import FlowEngine.Proofs.Retry.Readable
import FlowEngine.Proofs.Run.Ceiling

/-!
# Runs that return

What an executor raises becomes an outcome, and what goes wrong between nodes becomes a message. So a
run for whose nodes there are executors returns its context, unless what it reads between two calls
of executors cannot be read: the retry policy of a node, the name under which an outcome is saved,
and the ceiling that a message names. Nothing catches the fault of that.
-/

namespace FlowEngine

open Doing

/-- A node of which all is legible that is read outside of its executor. -/
structure Node.Legible (node : Node) : Prop where
  policy : RetryPolicy.Readable node.config
  saveName : ∃ name, node.saveName = .ok name

theorem Node.legible_defaultStart : Node.defaultStart.Legible :=
  ⟨RetryPolicy.readable_nil, none, rfl⟩

theorem Registry.exists_get {ε : Type} {r : Registry ε} {type : NodeType}
    (h : r.supports type = true) (id : Option String) :
    ∃ executor, r.get type id = .ok executor := by
  obtain ⟨executor, hf⟩ := Option.isSome_iff_exists.mp ((r.supports_iff type).mp h)
  exact ⟨executor, by rw [get, hf]⟩

/-- There is an executor for start nodes and for each type of node that occurs in a flow. -/
structure Engine.Supports (engine : Engine) (graph : FlowGraph) : Prop where
  start : engine.registry.supports .start = true
  nodes : ∀ node ∈ graph.nodes, engine.registry.supports node.type = true

/-- A node of the flow, or the start node that stands in for a missing one. -/
def FlowGraph.Known (graph : FlowGraph) (node : Node) : Prop :=
  node ∈ graph.nodes ∨ node = .defaultStart

namespace FlowGraph

variable {graph : FlowGraph} {node : Node}

theorem known_startOf : graph.Known (Engine.startOf graph) := by
  unfold Engine.startOf
  cases hs : graph.start? with
  | none => exact Or.inr rfl
  | some start => exact Or.inl (List.mem_of_find?_eq_some hs)

theorem Known.supports {engine : Engine} (hk : graph.Known node) (hs : engine.Supports graph) :
    engine.registry.supports node.type = true := by
  rcases hk with hn | rfl
  · exact hs.nodes node hn
  · exact hs.start

theorem Known.legible (hk : graph.Known node) (hr : ∀ node ∈ graph.nodes, node.Legible) :
    node.Legible := by
  rcases hk with hn | rfl
  · exact hr node hn
  · exact Node.legible_defaultStart

end FlowGraph

namespace Walk

/-- All nodes visited have a policy, and their outcomes could be recorded. -/
def Legible (walk : Walk) : Prop :=
  ∀ v ∈ walk.visits, RetryPolicy.Readable v.node.config ∧ Engine.recordable v.node = .ok ()

variable {graph : FlowGraph} {walk walk' : Walk}

theorem known_step (hs : Step graph walk walk') (h : ∀ node ∈ walk.queue, graph.Known node) :
    ∀ node ∈ walk'.queue, graph.Known node := by
  cases hs with
  | overflow | terminal | halt | cycle => exact fun node hn => h node (List.mem_cons_of_mem _ hn)
  | goOn node outcome queue visits failed hs queue' he =>
    intro waiting hw
    rcases mem_of_mem_enqueue he waiting hw with hq | hn
    · exact h waiting (List.mem_cons_of_mem _ hq)
    · exact Or.inl (FlowGraph.target?_eq_some (FlowGraph.mem_next.mp (mem_endsLast.mp hn)).2).1

theorem Reachable.known (hr : Reachable graph walk) : ∀ node ∈ walk.queue, graph.Known node := by
  induction hr with
  | refl => simpa [starting] using FlowGraph.known_startOf
  | tail _ hs ih => exact known_step hs ih

theorem Awaits.known {visits : List Visit} {node : Node} (h : Awaits graph visits node) :
    graph.Known node := by
  obtain ⟨queue, failed, hr⟩ := h
  exact hr.known node List.mem_cons_self

end Walk

namespace Work

variable {α β : Type}

/-- Work that has a result wherever it is done and whatever the replies are. -/
def Returns (x : Work α) : Prop := ∀ scene, x.Gives scene fun _ _ => True

theorem returns_bind {x : Work α} {f : α → Work β} (hx : x.Returns) (hf : ∀ a, (f a).Returns) :
    Returns (x >>= f) :=
  fun scene => gives_bind.mpr (Gives.mono (fun a scene _ => hf a scene) (hx scene))

theorem returns_pure (a : α) : Returns (pure a) := fun _ => ⟨a, rfl, trivial⟩

theorem returns_note (line : Log.Line) : Returns (note line) :=
  fun _ => ensures_note.mpr ⟨(), rfl, trivial⟩

theorem returns_emitFor (node : Node) (event : (flow execution node : Option String) → Event) :
    Returns (emitFor node event) :=
  fun _ => ensures_emitFor.mpr ⟨(), rfl, trivial⟩

end Work

namespace Attempt

open Work

variable (executor : Executor) (node : Node)

theorem returns_once : (once executor node).Returns := by
  refine returns_bind
    (fun _ => ensures_attempt.mpr (ensures_of_forall fun result _ => ⟨result, rfl, trivial⟩)) ?_
  rintro (fault | outcome)
  · exact returns_bind (returns_note _) fun _ =>
      returns_bind (returns_emitFor node _) fun _ => returns_pure _
  · exact returns_pure outcome

theorem returns_series (policy : RetryPolicy) (left made : Nat) (delay : Double) :
    (series executor node policy left made delay).Returns := by
  induction left generalizing made delay with
  | zero => exact returns_once executor node
  | succ left ih =>
    refine returns_bind (returns_once executor node) fun outcome => ?_
    cases callsForMore outcome with
    | false => exact returns_pure outcome
    | true =>
      refine returns_bind (returns_bind (returns_note _) fun _ => returns_emitFor node _) fun _ => ?_
      refine returns_bind (fun _ reply => ⟨reply, rfl, trivial⟩) fun cancelled => ?_
      cases cancelled with
      | false => exact ih _ _
      | true =>
        exact returns_bind (returns_note _) fun _ =>
          returns_bind (fun _ => ⟨(), rfl, trivial⟩) fun _ => returns_pure _

/-- Only an unreadable policy keeps a node from having an outcome. -/
theorem ends_run (scene : Scene) :
    (run executor node).Ends scene (fun _ _ => RetryPolicy.Readable node.config)
      fun fault => RetryPolicy.Illegible fault ∧ RetryPolicy.ofConfig node.config = .error fault := by
  refine ends_bind.mpr (ensures_noteAll.mpr (ends_bind.mpr (ensures_ofExcept.mpr ?_)))
  rcases RetryPolicy.ofConfig_cases node.config with ⟨hr, policy, hp⟩ | ⟨-, fault, hf, hp⟩
  · rw [hp]
    refine Ensures.mono ?_ (returns_series executor node policy _ _ _ scene)
    rintro _ scene ⟨outcome, rfl, -⟩
    exact hr
  · rw [hp]
    exact ⟨hf, rfl⟩

end Attempt

namespace Engine

variable {engine : Engine} {graph : FlowGraph} {executionId : String} {payload : Entries Value}
  {place : Place}

/-- The limit of the engine itself can be compared with a count, as that of a flow always can. -/
def Limited (engine : Engine) : Prop := ∃ most, Limit.least ">=" engine.maxSteps = .ok most

theorem Limited.least (h : engine.Limited) (graph : FlowGraph) :
    ∃ most, Limit.least ">=" (engine.limit graph) = .ok most := by
  unfold limit
  split
  · split
    · exact h
    · exact ⟨_, rfl⟩
  · exact h

/-- What keeps a run from returning, with the fault it ends in: the save name of the node it starts
with, the policy or the save name of a node that has its turn, or a ceiling that has been reached. -/
inductive Breaks (engine : Engine) (graph : FlowGraph) : Fault → Prop where
  | start {fault} (h : (startOf graph).saveName = .error fault) : Breaks engine graph fault
  | policy {visits node fault} (ha : Walk.Awaits graph visits node)
      (h : RetryPolicy.ofConfig node.config = .error fault) : Breaks engine graph fault
  | saveName {visits node fault} (ha : Walk.Awaits graph visits node) (hs : node.type ≠ .start)
      (h : node.saveName = .error fault) : Breaks engine graph fault
  | ceiling {visits node fault} (ha : Walk.Awaits graph visits node)
      (hl : Limit.least ">=" (engine.limit graph) = .ok visits.length)
      (h : (engine.limit graph).shown = .error fault) : Breaks engine graph fault

theorem Breaks.illegible {fault : Fault} (h : Breaks engine graph fault) :
    RetryPolicy.Illegible fault := by
  cases h with
  | start h => exact Node.eq_unprintable_of_saveName h ▸ .unprintable
  | policy _ h =>
    rcases RetryPolicy.ofConfig_cases _ with ⟨-, policy, hp⟩ | ⟨-, fault', hf, hp⟩
    · cases hp.symm.trans h
    · exact Except.error.inj (hp.symm.trans h) ▸ hf
  | saveName _ _ h => exact Node.eq_unprintable_of_saveName h ▸ .unprintable
  | ceiling _ _ h => exact Value.eq_unprintable_of_shown h ▸ .unprintable

/-- Where everything is legible, nothing keeps a run from returning. -/
theorem not_breaks (hr : ∀ node ∈ graph.nodes, node.Legible)
    (hl : (engine.limit graph).isPrintable = true) (fault : Fault) :
    ¬ Breaks engine graph fault := by
  rintro (h | ⟨ha, h⟩ | ⟨ha, -, h⟩ | ⟨-, -, h⟩)
  · obtain ⟨name, hname⟩ := (FlowGraph.known_startOf.legible hr).saveName
    cases hname.symm.trans h
  · rcases RetryPolicy.ofConfig_cases _ with ⟨-, policy, hp⟩ | ⟨hread, -⟩
    · cases hp.symm.trans h
    · exact hread (ha.known.legible hr).policy
  · obtain ⟨name, hname⟩ := (ha.known.legible hr).saveName
    cases hname.symm.trans h
  · cases (Value.shown_eq_ok hl).symm.trans h

theorem breaks_of_recordable {visits : List Visit} {node : Node} {fault : Fault}
    (ha : Walk.Awaits graph visits node) (h : recordable node = .error fault) :
    Breaks engine graph fault := by
  unfold recordable at h
  split at h
  · cases h
  · rename_i hs
    cases hn : node.saveName with
    | ok name =>
      rw [hn] at h
      cases h
    | error fault' =>
      rw [hn] at h
      cases h
      exact .saveName ha (by simpa using hs) hn

theorem follow_ends (hl : engine.Limited) (hs : engine.Supports graph) :
    (engine.follow graph executionId payload).Ends place
      (fun passage _ => (∃ name, (startOf graph).saveName = .ok name) ∧ passage.walk.Legible)
      (Breaks engine graph) := by
  obtain ⟨most, hmost⟩ := hl.least graph
  -- The visits made and those left come up to the ceiling, so that it is reached where none is left.
  refine Ends.mono ?_ (ends_follow hmost (fun left walk _ => Walk.Reachable graph walk ∧
    walk.visits.length + left = most ∧ walk.Legible) _ (fun _ => .start) ?_ ?_ ?_ ?_)
  · rintro passage _ ⟨hname, -, -, -, ⟨-, -, hv⟩, -⟩
    exact ⟨hname, hv⟩
  · exact fun _ => ⟨.refl, by simp [Walk.starting], by simp [Walk.Legible, Walk.starting]⟩
  · rintro left node queue ⟨_, visits, failed, _⟩ scene rfl rfl ⟨hr, hcount, hv⟩
    have ha : Walk.Awaits graph visits node := ⟨queue, failed, hr⟩
    obtain ⟨executor, hg⟩ := Registry.exists_get (ha.known.supports hs) (some node.id)
    refine ends_visit ?_
    rw [hg]
    refine Ensures.mono ?_ (Attempt.ends_run executor node _)
    rintro (fault | outcome) scene hread
    · exact .policy ha hread.2
    · cases hn : recordable node with
      | error fault => exact breaks_of_recordable ha hn
      | ok =>
        refine ⟨hr.tail (Turn.after_step graph node outcome queue visits failed _), ?_, ?_⟩
        · rw [turnOf, Turn.after_visits, List.length_append, List.length_singleton]
          dsimp only at hcount ⊢
          omega
        · rw [Walk.Legible, turnOf, Turn.after_visits]
          intro v hm
          rcases List.mem_append.mp hm with hm | hm
          · exact hv v hm
          · rw [List.mem_singleton.mp hm]
            exact ⟨hread, hn⟩
  · rintro node queue ⟨_, visits, failed, _⟩ context rfl rfl ⟨hr, hcount, hv⟩
    exact ⟨hr.tail (.overflow node queue visits failed), hcount, hv⟩
  · rintro node queue ⟨_, visits, failed, _⟩ context rfl rfl ⟨hr, rfl, -⟩ fault h
    exact .ceiling ⟨queue, failed, hr⟩ hmost h

/-- Where each type of node has an executor, a run returns with a verdict, or it ends in the fault of
a policy, a save name or a ceiling that cannot be read, when its turn has come. Where all of them can
be read it returns. -/
theorem follow_returns (engine : Engine) (graph : FlowGraph) (executionId : String)
    (payload : Entries Value) (place : Place) (hl : engine.Limited) (hs : engine.Supports graph) :
    (engine.follow graph executionId payload).Ends place
      (fun passage _ =>
        (passage.context.status = .success ∨ passage.context.status = .failure) ∧
          (∃ name, (startOf graph).saveName = .ok name) ∧ passage.walk.Legible)
      (fun fault => RetryPolicy.Illegible fault ∧ Breaks engine graph fault) ∧
    ((∀ node ∈ graph.nodes, node.Legible) → (engine.limit graph).isPrintable = true →
      (engine.execute graph executionId payload).Gives place fun context _ =>
        context.status = .success ∨ context.status = .failure) := by
  have hends : (engine.follow graph executionId payload).Ends place _ (Breaks engine graph) :=
    (follow_ends hl hs).and_yields (follow_status.mono fun passage _ hp =>
      show passage.context.status = .success ∨ passage.context.status = .failure by
        rw [hp]
        cases passage.walk.failed
        · exact Or.inl rfl
        · exact Or.inr rfl)
  refine ⟨Ensures.mono ?_ hends, fun hr hp => ?_⟩
  · rintro (fault | passage) place h
    · exact ⟨h.illegible, h⟩
    · exact h.symm
  · refine gives_bind.mpr (Ensures.mono ?_ hends)
    rintro (fault | passage) place h
    · exact absurd h (not_breaks hr hp fault)
    · exact ⟨passage, rfl, passage.context, rfl, h.2⟩

end Engine

namespace Asking

def start (retries : Int) : Node :=
  ⟨"start", .start, "", [("retry", .object [("maxRetries", .int retries)])], []⟩

def flow (retries : Int) : FlowGraph := .plain [start retries] []

theorem limited : Engine.plain.Limited := ⟨5000, rfl⟩

theorem supports (retries : Int) : Engine.plain.Supports (flow retries) := by
  refine ⟨by decide, ?_⟩
  intro node hn
  rw [List.mem_singleton.mp hn]
  rfl

theorem readable_iff {retries : Int} :
    RetryPolicy.Readable (start retries).config ↔ retries.natAbs < Double.bound := by
  rw [← Value.nearDouble_int_iff]
  constructor
  · exact fun h => (h _ rfl "maxRetries" (by decide)).near
  · rintro hnear _ ⟨⟩ name hn
    simp only [RetryPolicy.settingNames, List.mem_cons, List.not_mem_nil, or_false] at hn
    rcases hn with rfl | rfl | rfl
    · exact ⟨hnear, hnear.isPrintable_int⟩
    · exact RetryPolicy.legible_null
    · exact RetryPolicy.legible_null

/-- Three retries can be read, so the run returns. -/
theorem three_return :
    (Engine.plain.execute (flow 3) "run" []).Gives .outside fun context _ =>
      context.status = .success ∨ context.status = .failure := by
  refine (Engine.follow_returns Engine.plain (flow 3) "run" [] .outside limited (supports 3)).2 ?_
    (Value.isPrintable_int_iff.mpr ?_)
  · intro node hn
    rw [List.mem_singleton.mp hn]
    refine ⟨readable_iff.mpr (Nat.lt_of_lt_of_le ?_ Double.two_pow_le_bound), none, rfl⟩
    exact Nat.lt_of_lt_of_le (by decide : 3 < 2 ^ 2) (Double.two_pow_le (by decide))
  · exact Nat.lt_of_lt_of_le (by decide : 5000 < 10 ^ 4)
      (Nat.pow_le_pow_right (by decide) (by decide))

section Unreadable

variable {retries : Int} (hr : ¬ retries.natAbs < Double.bound)

include hr

theorem policy_unreadable :
    RetryPolicy.ofConfig (start retries).config = .error .integerTooLarge := by
  have hd : Double.ofInt? retries = none := Double.ofInt?_eq_none_iff.mpr (Nat.not_lt.mp hr)
  have hsetting : RetryPolicy.numberSetting (.int retries) = .error .integerTooLarge := by
    rw [RetryPolicy.numberSetting, Value.Numeric.toDouble, hd]
    rfl
  change (RetryPolicy.numberSetting (.int retries) >>= _) = _
  rw [hsetting]
  rfl

/-- The fault comes from the first node, before its executor is called. -/
theorem ensures_walkOn_unreadable (limit : Value) (left : Nat) (scene : Scene) :
    (Engine.walkOn .plain (flow retries) limit (left + 1) (Walk.starting (start retries))).Ensures
      scene fun result _ => result = .error .integerTooLarge := by
  have hget : Engine.plain.registry.get .start (some "start") = .ok Step.start := rfl
  unfold Engine.walkOn
  refine ensures_bind.mpr (Engine.ensures_enter.mpr (ensures_bind.mpr (Engine.ensures_visit.mpr ?_)))
  simp only [start, hget]
  refine ensures_bind.mpr (Work.ensures_noteAll.mpr (ensures_bind.mpr (ensures_ofExcept.mpr ?_)))
  rw [← start, policy_unreadable hr]

theorem ensures_unreadable :
    (Engine.plain.execute (flow retries) "run" []).Ensures .outside fun result _ =>
      result = .error .integerTooLarge := by
  refine ensures_bind.mpr (Engine.ensures_follow.mpr fun now => Engine.ensures_perform.mpr ?_)
  refine Ensures.mono ?_ (ensures_walkOn_unreadable hr _ _ _)
  rintro _ scene rfl
  rfl

end Unreadable

/-- An executor for each type is not enough: so many retries cannot be read. -/
theorem huge_faults :
    ¬ ∀ (engine : Engine) (graph : FlowGraph) (executionId : String) (payload : Entries Value)
      (place : Place), (∃ n, engine.maxSteps = .int n) → engine.Supports graph →
      (engine.execute graph executionId payload).Gives place fun context _ =>
        context.status = .success ∨ context.status = .failure := by
  intro hall
  obtain ⟨n, hn⟩ : ∃ n, 1024 ≤ 3 * n := ⟨400, by decide⟩
  have hgives := hall Engine.plain (flow (10 ^ n : Nat)) "run" [] .outside ⟨5000, rfl⟩ (supports _)
  have hhuge : ¬ ((10 ^ n : Nat) : Int).natAbs < Double.bound := by
    rw [Int.natAbs_natCast]
    exact Nat.not_lt.mpr (Double.bound_le_ten_pow hn)
  have hfault := ensures_unreadable hhuge
  obtain ⟨⟨result, place⟩, ⟨context, hok, -⟩, herror⟩ := (hgives.and hfault).exists
  rw [hok] at herror
  cases herror

end Asking

end FlowEngine
