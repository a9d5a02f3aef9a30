import FlowEngine.Proofs.Run.Message
import FlowEngine.Proofs.Step.Plain

/-!
# The step ceiling

A run makes as many visits as its ceiling allows and no more. It is cut short exactly where a node
waits for its turn after the last visit. A cut is all that a ceiling does: the visits that a run makes
under a smaller ceiling are the first ones it makes under a larger one.
-/

namespace FlowEngine

namespace FlowGraph

variable {graph : FlowGraph} {own : Option Int}

theorem searchBody_maxSteps (avoid : String) (steps : Nat) (pending body : List String) :
    searchBody { graph with maxSteps := own } avoid steps pending body =
      searchBody graph avoid steps pending body := by
  fun_induction searchBody graph avoid steps pending body with
  | case1 => simp only [searchBody]
  | case2 steps id pending body hs ih =>
    rw [searchBody.eq_def]
    simp only [hs, if_true, ih]
  | case3 id pending body hs => rw [searchBody, if_neg hs]
  | case4 id pending body hs steps ih =>
    rw [searchBody, if_neg hs]
    exact ih

theorem loopBody_maxSteps (id : String) :
    loopBody { graph with maxSteps := own } id = graph.loopBody id :=
  searchBody_maxSteps ..

end FlowGraph

namespace Walk

variable {graph : FlowGraph} {walk walk' walk₁ walk₂ : Walk}

theorem Step.ending_eq_none (h : Step graph walk walk') : walk.ending = none := by
  cases h <;> rfl

theorem Step.visits_snoc (h : Step graph walk walk') (ho : walk'.ending ≠ some .overflow) :
    ∃ v, walk'.visits = walk.visits ++ [v] := by
  cases h with
  | overflow => exact absurd rfl ho
  | terminal => exact ⟨_, rfl⟩
  | halt => exact ⟨_, rfl⟩
  | cycle => exact ⟨_, rfl⟩
  | goOn => exact ⟨_, rfl⟩

/-- The outcome of a visit settles what the walk does. -/
theorem Step.eq_of_visits (h₁ : Step graph walk walk₁) (h₂ : Step graph walk walk₂)
    (hv : walk₁.visits = walk₂.visits) : walk₁ = walk₂ := by
  cases h₁ <;> cases h₂ <;> simp_all [Visit.Stops]

/-- Walks with the same visits are the same, except that one of them may have been cut short. -/
theorem Reachable.eq_of_visits (h₁ : Reachable graph walk₁) (h₂ : Reachable graph walk₂)
    (ho₁ : walk₁.ending ≠ some .overflow) (ho₂ : walk₂.ending ≠ some .overflow)
    (hv : walk₁.visits = walk₂.visits) : walk₁ = walk₂ := by
  induction h₁ generalizing walk₂ with
  | refl =>
    cases h₂ with
    | refl => rfl
    | tail _ hs =>
      obtain ⟨v, hs⟩ := hs.visits_snoc ho₂
      exact absurd (hv.trans hs) (by simp [starting])
  | tail _ hs₁ ih =>
    obtain ⟨v₁, hv₁⟩ := hs₁.visits_snoc ho₁
    cases h₂ with
    | refl => exact absurd (hv₁.symm.trans hv) (by simp [starting])
    | tail hr₂ hs₂ =>
      obtain ⟨v₂, hv₂⟩ := hs₂.visits_snoc ho₂
      have hfront := List.append_inj_left' ((hv₁.symm.trans hv).trans hv₂) rfl
      obtain rfl := ih hr₂ (by simp [hs₁.ending_eq_none]) (by simp [hs₂.ending_eq_none]) hfront
      exact hs₁.eq_of_visits hs₂ hv

/-- After some visits the walk goes on, and a node is the next to have its turn. -/
def Awaits (graph : FlowGraph) (visits : List Visit) (node : Node) : Prop :=
  ∃ queue failed, Reachable graph ⟨node :: queue, visits, failed, none⟩

theorem Awaits.unique {visits : List Visit} {node node' : Node} (h : Awaits graph visits node)
    (h' : Awaits graph visits node') : node = node' := by
  obtain ⟨queue, failed, hr⟩ := h
  obtain ⟨queue', failed', hr'⟩ := h'
  cases hr.eq_of_visits hr' (by simp) (by simp) rfl
  rfl

theorem Reachable.cut (hr : Reachable graph walk) (he : walk.ending = some .overflow) :
    walk.failed = true ∧ ∃ node, Awaits graph walk.visits node := by
  cases hr with
  | refl => cases he
  | tail hr hs =>
    cases hs with
    | overflow node queue visits failed => exact ⟨rfl, node, queue, failed, hr⟩
    | terminal => cases he
    | halt => cases he
    | cycle => cases he
    | goOn => cases he

/-- A walk was cut short exactly where a node still waits after its visits. -/
theorem Reachable.overflow_iff (hr : Reachable graph walk) (ho : walk.isOver = true) :
    walk.ending = some .overflow ↔ ∃ node, Awaits graph walk.visits node := by
  constructor
  · exact fun he => (hr.cut he).2
  · rintro ⟨node, queue, failed, hw⟩
    by_contra hne
    have hopen := congrArg isOver (hr.eq_of_visits hw hne (by simp) rfl)
    rw [ho] at hopen
    cases hopen

theorem eq_of_not_isOver (ho : ¬ walk.isOver = true) :
    ∃ node queue visits failed, walk = ⟨node :: queue, visits, failed, none⟩ := by
  obtain ⟨_ | ⟨node, queue⟩, visits, failed, _ | ending⟩ := walk
  · exact absurd rfl ho
  · exact absurd rfl ho
  · exact ⟨node, queue, visits, failed, rfl⟩
  · exact absurd rfl ho

end Walk

namespace Turn

theorem after_ending {graph : FlowGraph} {node : Node} {outcome : Outcome} {walk : Walk}
    {context : Context} (hw : walk.ending = none) :
    (after graph node outcome walk context).walk.ending ≠ some .overflow := by
  intro he
  obtain ⟨queue, visits, failed, _⟩ := walk
  obtain rfl : _ = none := hw
  have hs := after_step graph node outcome queue visits failed context
  have hv := after_visits graph node outcome ⟨queue, visits, failed, none⟩ context
  generalize (after graph node outcome ⟨queue, visits, failed, none⟩ context).walk = walk' at *
  cases hs <;> simp_all

end Turn

namespace Engine

open Doing

variable {engine : Engine} {graph : FlowGraph} {executionId : String} {payload : Entries Value}
  {place : Place}

/-- A run makes no more visits than it may. One that is cut short has made them all, and its message
names the node that waits. -/
theorem follow_counted {most : Nat} (hl : Limit.least ">=" (engine.limit graph) = .ok most) :
    (engine.follow graph executionId payload).Yields place fun passage _ =>
      passage.walk.visits.length ≤ most ∧
        (passage.walk.ending = some .overflow → passage.walk.visits.length = most ∧
          ∃ node, Walk.Awaits graph passage.walk.visits node ∧
            passage.context.errorMessage = some (overflowText (engine.limit graph) node)) := by
  -- The visits made and those left come up to the ceiling all the way.
  refine Yields.mono ?_ (ends_follow hl (fun left walk context =>
    Walk.Reachable graph walk ∧ walk.visits.length + left = most ∧
      (walk.ending = some .overflow → left = 0 ∧
        ∃ node, Walk.Awaits graph walk.visits node ∧
          context.errorMessage = some (overflowText (engine.limit graph) node)))
    (fun _ => True) (fun _ _ => trivial) ?_ ?_ ?_ fun _ _ _ _ _ _ _ _ _ => trivial).yields
  · rintro passage _ ⟨-, left, now, context, ⟨-, hcount, hover⟩, -, hc⟩
    refine ⟨by omega, fun he => ?_⟩
    obtain ⟨rfl, node, hn, hm⟩ := hover he
    exact ⟨hcount, node, hn, by rw [hc]; exact hm⟩
  · exact fun now => ⟨.refl, by simp [Walk.starting], by simp [Walk.starting]⟩
  · rintro left node queue ⟨_, visits, failed, _⟩ scene rfl rfl ⟨hr, hcount, -⟩
    refine (yields_visit fun executor _ => ensures_of_forall ?_).ends
    intro result scene' outcome _
    refine ⟨hr.tail (Turn.after_step graph node outcome queue visits failed _), ?_, ?_⟩
    · rw [turnOf, Turn.after_visits, List.length_append, List.length_singleton]
      dsimp only at hcount ⊢
      omega
    · exact fun he => absurd he (Turn.after_ending rfl)
  · rintro node queue ⟨_, visits, failed, _⟩ context rfl rfl ⟨hr, hcount, -⟩
    exact ⟨hr.tail (.overflow node queue visits failed), hcount,
      fun _ => ⟨rfl, node, ⟨queue, failed, hr⟩, rfl⟩⟩

section Cut

variable {other : Engine} {own : Option Int} {limit limit' : Value} {node : Node} {walk : Walk}
  {scene : Scene} {σ : Type} {serve : (r : Request) → σ → r.Reply × σ} {s : σ}

/-- Of an engine a visit needs the executors only, and it does not ask for the ceiling of a flow. -/
theorem visit_congr (hr : other.registry = engine.registry) :
    visit other { graph with maxSteps := own } node walk = visit engine graph node walk := by
  unfold visit
  rw [hr]
  rfl

theorem yields_visits_walkOn (engine : Engine) (graph : FlowGraph) (limit : Value) (left : Nat)
    (walk : Walk) (scene : Scene) :
    (walkOn engine graph limit left walk).Yields scene
      fun walk' _ => walk.visits <+: walk'.visits := by
  refine Yields.mono ?_ (ends_walkOn (fun _ walk' _ => walk.visits <+: walk'.visits)
    (fun _ => True) ?_ ?_ (fun _ _ _ _ _ _ _ _ _ => trivial) left (List.prefix_refl _)).yields
  · rintro walk' _ ⟨⟨-, h⟩, -⟩
    exact h
  · rintro left node queue walk' scene - - h
    refine (yields_visit fun executor _ => ensures_of_forall ?_).ends
    intro result scene outcome _
    refine h.trans ?_
    simp only [turnOf, Turn.after_visits]
    exact List.prefix_append _ _
  · rintro node queue walk' scene - - h
    exact h

/-- What a run has in common with one that has a verdict and is cut short earlier: it adds visits to
those of the other, and it is the other where that is not cut short. -/
def Extends (short long : (Except Fault Walk × Scene) × σ) : Prop :=
  ∀ walk, short.1.1 = .ok walk →
    (walk.ending ≠ some .overflow → long = short) ∧
      ∀ walk', long.1.1 = .ok walk' → walk.visits <+: walk'.visits

theorem Extends.refl (r : (Except Fault Walk × Scene) × σ) : Extends r r := by
  refine fun walk hw => ⟨fun _ => rfl, fun walk' hw' => ?_⟩
  obtain rfl := Except.ok.inj (hw.symm.trans hw')
  exact List.prefix_refl _

theorem Extends.bind {α : Type} {x : Work α} {f g : α → Work Walk}
    (h : ∀ a scene s, Extends ((f a).served serve scene s) ((g a).served serve scene s)) :
    Extends ((x >>= f).served serve scene s) ((x >>= g).served serve scene s) := by
  rw [served_bind, served_bind]
  rcases x.served serve scene s with ⟨⟨fault | a, scene⟩, s⟩
  · exact .refl _
  · exact h a scene s

/-- With more visits to come, a walk goes on where it would be cut short. -/
theorem extends_walkOn (hr : other.registry = engine.registry) (left extra : Nat) :
    Extends ((walkOn engine graph limit left walk).served serve scene s)
      ((walkOn other { graph with maxSteps := own } limit' (left + extra) walk).served serve scene
        s) := by
  -- On the visits left under the smaller ceiling. Where none is left, the other walk only adds visits.
  induction left generalizing walk scene s with
  | zero =>
    by_cases ho : walk.isOver = true
    · rw [walkOn_over _ _ _ _ ho, walkOn_over _ _ _ _ ho]
      exact .refl _
    have hlong := (yields_visits_walkOn other { graph with maxSteps := own } limit' (0 + extra)
      walk scene).served serve s
    obtain ⟨node, queue, visits, failed, rfl⟩ := Walk.eq_of_not_isOver ho
    have hshort : (walkOn engine graph limit 0 ⟨node :: queue, visits, failed, none⟩).Yields scene
        fun walk _ => walk = ⟨queue, visits, true, some .overflow⟩ := by
      refine ensures_bind.mpr (ensures_enter.mpr (ensures_overflow.mpr ?_))
      cases limit.shown with
      | error fault => rintro _ ⟨⟩
      | ok text =>
        rintro _ ⟨⟩
        rfl
    intro walk hw
    obtain rfl := hshort.served serve s walk hw
    exact ⟨fun h => absurd rfl h, hlong⟩
  | succ left ih =>
    by_cases ho : walk.isOver = true
    · rw [walkOn_over _ _ _ _ ho, walkOn_over _ _ _ _ ho]
      exact .refl _
    obtain ⟨node, queue, visits, failed, rfl⟩ := Walk.eq_of_not_isOver ho
    rw [Nat.add_right_comm]
    unfold walkOn
    refine Extends.bind fun _ scene s => ?_
    dsimp only
    rw [visit_congr hr]
    exact Extends.bind fun walk scene s => ih

theorem ensures_concluded (walk : Walk) (scene : Scene) :
    (do conclude walk; return walk : Work Walk).Ensures scene fun result _ => result = .ok walk :=
  ensures_bind.mpr (ensures_conclude.mpr fun _ => rfl)

theorem Extends.conclude {x y : Work Walk}
    (h : Extends (x.served serve scene s) (y.served serve scene s)) :
    Extends ((x >>= fun walk => do conclude walk; return walk).served serve scene s)
      ((y >>= fun walk => do conclude walk; return walk).served serve scene s) := by
  rw [served_bind, served_bind]
  generalize x.served serve scene s = short, y.served serve scene s = long at h
  obtain ⟨⟨fault | walk, scene⟩, s⟩ := short
  · rintro _ ⟨⟩
  · obtain ⟨hsame, hlong⟩ := h walk rfl
    by_cases he : walk.ending = some .overflow
    · dsimp only
      intro closing hc
      rw [(ensures_concluded walk scene).served serve s] at hc
      obtain rfl := Except.ok.inj hc
      refine ⟨fun hne => absurd he hne, ?_⟩
      obtain ⟨⟨fault | walk', scene'⟩, s'⟩ := long
      · rintro _ ⟨⟩
      · rw [(ensures_concluded walk' scene').served serve s']
        exact hlong
    · rw [hsame he]
      exact .refl _

theorem extends_perform (hr : other.registry = engine.registry) {most most' : Nat}
    (hl : Limit.least ">=" (engine.limit graph) = .ok most)
    (hl' : Limit.least ">=" (other.limit { graph with maxSteps := own }) = .ok most')
    (hm : most ≤ most') :
    Extends ((engine.perform graph).served serve scene s)
      ((other.perform { graph with maxSteps := own }).served serve scene s) := by
  obtain ⟨extra, rfl⟩ := Nat.exists_eq_add_of_le hm
  have walks : ∀ scene s, Extends
      ((do
        let most ← ofExcept (Limit.least ">=" (engine.limit graph))
        let walk ← walkOn engine graph (engine.limit graph) most (Walk.starting (startOf graph))
        conclude walk
        return walk : Work Walk).served serve scene s)
      ((do
        let most ← ofExcept (Limit.least ">=" (other.limit { graph with maxSteps := own }))
        let walk ← walkOn other { graph with maxSteps := own }
          (other.limit { graph with maxSteps := own }) most (Walk.starting (startOf graph))
        conclude walk
        return walk : Work Walk).served serve scene s) := by
    intro scene s
    rw [hl, hl']
    exact (extends_walkOn hr most extra).conclude
  -- What comes before the first visit does not depend on the ceiling.
  unfold perform
  cases hs : graph.start?.isNone with
  | false =>
    have hs' : ({ graph with maxSteps := own } : FlowGraph).start?.isNone = false := hs
    simp only [hs', Bool.false_eq_true, if_false]
    exact Extends.bind fun _ _ _ => Extends.bind fun _ => walks
  | true =>
    have hs' : ({ graph with maxSteps := own } : FlowGraph).start?.isNone = true := hs
    simp only [hs', if_true]
    exact Extends.bind fun _ _ _ => Extends.bind fun _ _ _ => Extends.bind fun _ => walks

theorem opening_maxSteps (graph : FlowGraph) (own : Option Int) (executionId : String)
    (payload : Entries Value) (now : Instant) :
    opening { graph with maxSteps := own } executionId payload now =
      opening graph executionId payload now := by
  unfold opening Context.noteLoops
  simp only [FlowGraph.loopBody_maxSteps]
  rfl

def begun (graph : FlowGraph) (executionId : String) (payload : Entries Value) (place : Place)
    (now : Instant) : Scene where
  context := opening graph executionId payload now
  place :=
    { place with
      trace := place.trace.putAll
        [("flow_id", .text graph.id), ("execution_id", .text executionId)] }

def arrived (place : Place) (done : Except Fault Walk × Scene) : Except Fault Passage × Place :=
  (done.1.map fun walk => ⟨walk, done.2.context⟩, { done.2.place with trace := place.trace })

theorem served_follow (engine : Engine) (graph : FlowGraph) (place : Place) :
    (engine.follow graph executionId payload).served serve place s =
      let (now, s) := serve .now s
      let (done, s) :=
        (engine.perform graph).served serve (begun graph executionId payload place now) s
      (arrived place done, s) :=
  Dialogue.run_bind _ _ serve _

/-- With the same replies a larger ceiling changes nothing in a run that is not cut short, and adds
visits to one that is. -/
theorem follow_cut (hr : other.registry = engine.registry) {most most' : Nat}
    (hl : Limit.least ">=" (engine.limit graph) = .ok most)
    (hl' : Limit.least ">=" (other.limit { graph with maxSteps := own }) = .ok most')
    (hm : most ≤ most') {passage : Passage}
    (hp : ((engine.follow graph executionId payload).served serve place s).1.1 = .ok passage) :
    (passage.walk.ending ≠ some .overflow →
      (other.follow { graph with maxSteps := own } executionId payload).served serve place s =
        (engine.follow graph executionId payload).served serve place s) ∧
    ∀ passage', ((other.follow { graph with maxSteps := own } executionId payload).served serve place
      s).1.1 = .ok passage' → passage.walk.visits <+: passage'.walk.visits := by
  have hx : Extends
      ((engine.perform graph).served serve
        (begun graph executionId payload place (serve .now s).1) (serve .now s).2)
      ((other.perform { graph with maxSteps := own }).served serve
        (begun graph executionId payload place (serve .now s).1) (serve .now s).2) :=
    extends_perform hr hl hl' hm
  rw [served_follow] at hp ⊢
  rw [served_follow]
  have hb : begun { graph with maxSteps := own } executionId payload place (serve .now s).1 =
      begun graph executionId payload place (serve .now s).1 := by
    unfold begun
    rw [opening_maxSteps]
  dsimp only at hp ⊢
  rw [hb]
  generalize (engine.perform graph).served serve
    (begun graph executionId payload place (serve .now s).1) (serve .now s).2 = short at hx hp ⊢
  generalize (other.perform { graph with maxSteps := own }).served serve
    (begun graph executionId payload place (serve .now s).1) (serve .now s).2 = long at hx ⊢
  obtain ⟨⟨fault | walk, scene⟩, s⟩ := short
  · cases hp
  · cases hp
    obtain ⟨hsame, hlong⟩ := hx walk rfl
    refine ⟨fun he => by rw [hsame he], ?_⟩
    obtain ⟨⟨fault | walk', scene'⟩, s'⟩ := long
    · rintro _ ⟨⟩
    · rintro _ ⟨⟩
      exact hlong walk' rfl

end Cut

/-- The ceiling of a run is that of its flow, unless this is zero, and else that of its engine. -/
structure Bounds (engine : Engine) (graph : FlowGraph) (most : Nat) : Prop where
  pos : 1 ≤ most
  source : graph.maxSteps = some (most : Int) ∨
    graph.maxSteps.getD 0 = 0 ∧ engine.maxSteps = .int most

theorem Bounds.limit {most : Nat} (h : engine.Bounds graph most) :
    engine.limit graph = .int most := by
  unfold Engine.limit
  rcases h.source with hs | ⟨hz, he⟩
  · have hpos := h.pos
    rw [hs]
    dsimp only
    rw [if_neg (by omega)]
  · cases hs : graph.maxSteps with
    | none => exact he
    | some n =>
      rw [hs] at hz
      obtain rfl : n = 0 := hz
      exact he

theorem Bounds.least {most : Nat} (h : engine.Bounds graph most) :
    Limit.least ">=" (engine.limit graph) = .ok most := by
  rw [h.limit]
  rfl

/-- A run keeps to its ceiling, and tells of it exactly where it is cut short. -/
structure Ceiled (engine : Engine) (graph : FlowGraph) (most : Nat) (passage : Passage) :
    Prop where
  length_le : passage.walk.visits.length ≤ most
  order_le : engine.Keeps Context.order → passage.context.order.length ≤ most
  /-- A node was still waiting when the last visit had been made. -/
  overflow_iff : passage.walk.ending = some .overflow ↔
    passage.walk.visits.length = most ∧ ∃ node, Walk.Awaits graph passage.walk.visits node
  told : ∀ node, passage.walk.ending = some .overflow →
    Walk.Awaits graph passage.walk.visits node → passage.context.status = .failure ∧
      passage.context.errorMessage = some (overflowText (.int most) node)
  /-- Without a cut the text is there only if an executor gave it as its own. -/
  unforged : engine.Discreet → ∀ node, passage.walk.ending ≠ some .overflow →
    passage.context.errorMessage = some (overflowText (.int most) node) →
    ∃ v ∈ passage.walk.visits, v.outcome.errorMessage = some (overflowText (.int most) node)

theorem follow_ceiled {most : Nat} (hb : engine.Bounds graph most) :
    (engine.follow graph executionId payload).Yields place fun passage _ =>
      engine.Ceiled graph most passage := by
  have hexplained : (engine.follow graph executionId payload).Yields place fun passage _ =>
      engine.Discreet → passage.walk.Explained passage.context.errorMessage := by
    by_cases hd : engine.Discreet
    · exact Yields.mono (fun _ _ hx _ => hx) hd.follow_explained
    · exact ensures_of_forall fun _ _ _ _ h => absurd h hd
  refine Yields.mono ?_ ((((follow_reachable.and (follow_counted hb.least)).and follow_status).and
    follow_order).and hexplained)
  rintro passage _ ⟨⟨⟨⟨⟨hr, ho⟩, hle, hover⟩, hstatus⟩, horder⟩, hx⟩
  have hiff := hr.overflow_iff ho
  constructor
  · exact hle
  · intro hk
    rw [horder hk, Walk.executed, List.length_map]
    exact hle
  · exact ⟨fun he => ⟨(hover he).1, hiff.mp he⟩, fun h => hiff.mpr h.2⟩
  · intro node he hn
    obtain ⟨-, waiting, hw, hm⟩ := hover he
    obtain rfl := hn.unique hw
    rw [hb.limit] at hm
    refine ⟨?_, hm⟩
    rw [hstatus, (hr.cut he).1]
    rfl
  · intro hd node hne hm
    rcases (hx hd).source hne _ hm with hown | hv
    · exact absurd rfl (hown.ne_overflowText _ _)
    · exact hv

/-- A ceiling bounds every run, and it only cuts runs short: with the same replies, and executors that
stay the same, a larger ceiling changes nothing in a run that was not cut short and adds visits to
one that was. -/
theorem follow_ceiling (engine : Engine) (graph : FlowGraph) (executionId : String)
    (payload : Entries Value) (place : Place) (most : Nat) (hb : engine.Bounds graph most) :
    ((engine.follow graph executionId payload).Yields place fun passage _ =>
      engine.Ceiled graph most passage) ∧
    ∀ (other : Engine) (own : Option Int) (most' : Nat), other.registry = engine.registry →
      other.Bounds { graph with maxSteps := own } most' → most ≤ most' →
      ∀ {σ : Type} (serve : (r : Request) → σ → r.Reply × σ) (s : σ) (passage : Passage),
        let short := (engine.follow graph executionId payload).served serve place s
        let long :=
          (other.follow { graph with maxSteps := own } executionId payload).served serve place s
        short.1.1 = .ok passage →
          (passage.walk.ending ≠ some .overflow → long = short) ∧
          ∀ passage', long.1.1 = .ok passage' →
            passage.walk.visits <+: passage'.walk.visits ∧
            (engine.Keeps Context.order → passage.context.order <+: passage'.context.order) := by
  refine ⟨follow_ceiled hb, ?_⟩
  intro other own most' hr hb' hm σ serve s passage short long hp
  obtain ⟨hsame, hfront⟩ := follow_cut hr hb.least hb'.least hm hp
  refine ⟨hsame, fun passage' hp' => ⟨hfront passage' hp', fun hk => ?_⟩⟩
  have hk' : other.Keeps Context.order := by
    unfold Engine.Keeps
    rw [hr]
    exact hk
  have horder := follow_order.served serve s passage hp hk
  have horder' := follow_order.served serve s passage' hp' hk'
  rw [horder, horder']
  exact (hfront passage' hp').map _

end Engine

namespace Brief

def last : Node := .plainMapper "last" "1"

/-- Two nodes, of which the first one alone may be visited. -/
def flow : FlowGraph :=
  { FlowGraph.plain [.plainStart, last] [("start", "last", .always)] with maxSteps := some 1 }

theorem bounds : Engine.plain.Bounds flow 1 := ⟨by decide, Or.inl rfl⟩

theorem bounds_uncapped : Engine.plain.Bounds { flow with maxSteps := none } 5000 :=
  ⟨by decide, Or.inr ⟨rfl, rfl⟩⟩

theorem serves_last : Engine.plain.Serves last := Engine.plain_serves_mapper (by decide)

theorem gives_start {own : Option Int} {limit : Value} {left : Nat} {scene : Scene}
    {post : Walk → Scene → Prop}
    (h : ∀ outcome scene, (Engine.walkOn .plain { flow with maxSteps := own } limit left
      ⟨[last], [⟨.plainStart, outcome⟩], false, none⟩).Gives scene post) :
    (Engine.walkOn .plain { flow with maxSteps := own } limit (left + 1)
      (Walk.starting .plainStart)).Gives scene post := by
  refine Engine.gives_walkOn (Engine.plain_serves_start.gives_visit ?_)
  intro outcome context place hs hh _
  have hnext : { flow with maxSteps := own }.next Node.plainStart.id outcome.status = [last] := by
    rw [hs]
    rfl
  have hnew : Walk.mayEnter (([] : List Visit).map (·.node.id) ++ [Node.plainStart.id])
      outcome.status last = true := by
    rw [hs]
    decide
  have hw := (Turn.after_next { flow with maxSteps := own } [] context rfl hh (by simp [hs]) hnext
    hnew).1
  simp only [hw, List.nil_append]
  exact h outcome _

theorem gives_overflow :
    (Engine.plain.follow flow "run" []).Gives .outside fun passage _ =>
      passage.walk.ending = some .overflow := by
  refine Engine.gives_follow rfl bounds.least fun now trace => gives_start fun outcome scene => ?_
  unfold Engine.walkOn
  exact Doing.gives_bind.mpr (Engine.ensures_enter.mpr ⟨(), rfl, Engine.ensures_overflow.mpr
    ⟨_, rfl, fun _ => rfl⟩⟩)

theorem gives_all :
    (Engine.plain.follow { flow with maxSteps := none } "run" []).Gives .outside
      fun passage _ => passage.walk.ending = none := by
  refine Engine.gives_follow rfl bounds_uncapped.least fun now trace =>
    gives_start fun first scene => ?_
  refine Engine.gives_walkOn (serves_last.gives_visit ?_)
  intro outcome context place hs hh _
  have hqueue : Walk.enqueue ([(⟨.plainStart, first⟩ : Visit)].map (·.node.id) ++ [last.id])
      outcome.status [] (endsLast ({ flow with maxSteps := none }.next last.id outcome.status)) =
        .ok [] := by
    rw [hs]
    rfl
  have hw := (Turn.after_queued { flow with maxSteps := none } [⟨.plainStart, first⟩] context rfl hh
    (by simp [hs]) hqueue).1
  simp only [hw]
  exact Engine.gives_walkOn_over rfl fun _ => rfl

/-- One visit is made under the ceiling of the flow, and it is the first one that is made without. -/
theorem brief_cut :
    ∃ passage passage',
      ((Engine.plain.follow flow "run" []).served Request.answer .outside ()).1.1 = .ok passage ∧
      ((Engine.plain.follow { flow with maxSteps := none } "run" []).served Request.answer .outside
        ()).1.1 = .ok passage' ∧
      passage.walk.ending = some .overflow ∧ passage.walk.visits.length = 1 ∧
      passage'.walk.ending = none ∧ passage.walk.visits <+: passage'.walk.visits := by
  obtain ⟨passage, hp, hover⟩ := gives_overflow.served Request.answer ()
  obtain ⟨passage', hp', hnone⟩ := gives_all.served Request.answer ()
  obtain ⟨hceiled, hlonger⟩ :=
    Engine.follow_ceiling Engine.plain flow "run" [] .outside 1 bounds
  have hcount := ((hceiled.served Request.answer () passage hp).overflow_iff.mp hover).1
  obtain ⟨-, hfront⟩ :=
    hlonger Engine.plain none 5000 rfl bounds_uncapped (by decide) Request.answer () passage hp
  exact ⟨passage, passage', hp, hp', hover, hcount, hnone, (hfront passage' hp').1⟩

end Brief

end FlowEngine
