import FlowEngine.Proofs.Expression.Operands
import FlowEngine.Proofs.Run.Calls
import FlowEngine.Proofs.Run.Iteration
import FlowEngine.Proofs.Run.Ledger
import FlowEngine.Proofs.Step.LoopState

/-!
# The index of a loop

The state of a loop outlives its visits. It is made on the first one and kept when the loop is left,
entered again or tried again, so the index counts over the whole run how often the loop went on, and
its bound is one for the whole run too.
-/

namespace FlowEngine

namespace Visit

def isLoop (id : String) (call : Visit) : Bool := call.node.type == .loop && call.node.id == id

def continues (id : String) (call : Visit) : Bool :=
  call.isLoop id && call.outcome.status == .continuing

variable {id : String} {call : Visit}

theorem isLoop_iff : call.isLoop id = true ↔ call.node.type = .loop ∧ call.node.id = id := by
  simp [isLoop]

theorem continues_iff :
    call.continues id = true ↔ call.isLoop id = true ∧ call.outcome.status = .continuing := by
  simp [continues]

end Visit

/-- How often a loop may go on by its setting: a finite number is cut down to the range from 1 to
1000, and anything else that is no number means 100. -/
def Node.GoesAtMost (node : Node) (most : Int) : Prop :=
  ∃ d, (node.setting "maxIterations").asDouble = .ok d ∧
    most = if d.isFinite then min 1000 (max 1 d.truncate) else 100

namespace Step.Loop

variable {node : Node} {most : Int} {scene : Scene}

theorem bound_eq_ok_iff :
    bound (node.setting "maxIterations") = .ok most ↔ node.GoesAtMost most := by
  unfold bound Node.GoesAtMost
  cases (node.setting "maxIterations").asDouble with
  | error fault =>
    constructor
    · intro h
      cases h
    · rintro ⟨d, ⟨⟩, -⟩
  | ok d =>
    have hbound : (Except.ok d >>= fun d => if d.isFinite then
        .ok (min mostIterations (max 1 d.truncate)) else .ok defaultMaxIterations :
          Except Fault Int) = .ok (if d.isFinite then min 1000 (max 1 d.truncate) else 100) := by
      cases hd : d.isFinite <;> simp [hd, bind, Except.bind, mostIterations, defaultMaxIterations]
    rw [hbound]
    constructor
    · intro h
      exact ⟨d, rfl, (Except.ok.inj h).symm⟩
    · rintro ⟨_, ⟨⟩, rfl⟩
      rfl

theorem one_le_of_bound (h : bound (node.setting "maxIterations") = .ok most) : 1 ≤ most := by
  obtain ⟨d, -, rfl⟩ := bound_eq_ok_iff.mp h
  split <;> omega

theorem bound_eq_error (h : ¬ (node.setting "maxIterations").NearDouble) :
    bound (node.setting "maxIterations") = .error .integerTooLarge := by
  rcases Value.asDouble_cases (node.setting "maxIterations") with ⟨hn, -⟩ | ⟨-, hf⟩
  · exact absurd hn h
  · rw [bound, hf]
    rfl

/-- A loop whose iterations are used up halts the run, and leaves all indices and outputs alone. -/
theorem gives_usedUp (hb : bound (node.setting "maxIterations") = .ok most)
    (hm : most ≤ scene.context.loopIndex node.id) :
    (execute node).Gives scene fun outcome scene' =>
      outcome.status = .failure ∧ outcome.halts = true ∧
        ∀ id, scene'.context.loopIndex id = scene.context.loopIndex id ∧
          scene'.context.loopItems id = scene.context.loopItems id := by
  refine Doing.ensures_bind.mpr (Work.ensures_context.mpr (Doing.ensures_ite.mpr ?_))
  split
  · obtain ⟨nodeId, hstate⟩ := scene.context.enterLoop_eq node.id most
    refine Doing.ensures_bind.mpr (Doing.ensures_ofExcept.mpr ?_)
    rw [hb]
    refine Doing.ensures_bind.mpr (Work.ensures_context.mpr (Doing.ensures_bind.mpr
      (Work.ensures_change.mpr ?_)))
    rw [hstate]
    refine Doing.ensures_ite.mpr ?_
    rw [if_pos hm]
    have hw := Context.writes_setLoop scene.context node.id
      ⟨nodeId, scene.context.loopIndex node.id, scene.context.loopItems node.id, most⟩
    exact ⟨_, rfl, rfl, rfl, fun id => hw.unmoved rfl rfl id⟩
  · exact ⟨_, rfl, rfl, rfl, fun id => ⟨rfl, rfl⟩⟩

end Step.Loop

namespace Engine

open Doing

/-- The executor of loops is the one that comes with the engine, and no other one writes the state
of a loop. -/
structure Looping (engine : Engine) : Prop where
  loop : ∀ id, engine.registry.get .loop id = .ok Step.Loop.execute
  others : ∀ type id executor, engine.registry.get type id = .ok executor → type ≠ .loop →
    ∀ node, Work.Keeps Context.loopStates (executor node)

variable {engine : Engine} {graph : FlowGraph} {executionId : String} {payload : Entries Value}
  {walk walk' : Walk} {context context' : Context} {calls : List Visit} {scene scene' : Scene}
  {node : Node} {executor : Executor} {result : Except Fault Outcome} {id : String} {most : Int}
  {n : Nat}

theorem addressed_loop (ha : graph.Addressed node) (hl : node.type = .loop) :
    graph.target? node.id = some node := by
  rcases ha with rfl | ht
  · rw [type_startOf] at hl
    cases hl
  · exact ht

theorem addressed_unique {other : Node} (ha : graph.Addressed node) (hl : node.type = .loop)
    (hb : graph.Addressed other) (hm : other.type = .loop) (hid : other.id = node.id) :
    other = node := by
  have h := addressed_loop hb hm
  rw [hid, addressed_loop ha hl] at h
  exact (Option.some.inj h).symm

theorem Looping.effect (hl : engine.Looping)
    (hg : engine.registry.get node.type (some node.id) = .ok executor)
    (hc : (executor node).CanEnd scene result scene') :
    node.type ≠ .loop ∧ scene'.context.loopStates = scene.context.loopStates ∨
      node.type = .loop ∧
        Step.Loop.Effect node scene.context (Attempt.outcomeOf node result) scene'.context := by
  by_cases ht : node.type = .loop
  · rw [ht, hl.loop] at hg
    cases hg
    exact Or.inr ⟨ht, Ensures.of_canEnd (Step.Loop.ensures_effect node scene) hc⟩
  · exact Or.inl ⟨ht, Ensures.of_canEnd ((hl.others _ _ _ hg ht node).same scene) hc⟩

/-- What the calls so far tell of the states of loops. -/
structure Counted (graph : FlowGraph) (calls : List Visit) (context : Context) : Prop where
  index : ∀ id, context.loopIndex id = calls.countP (Visit.continues id)
  bounded : ∀ node most, node.type = .loop → graph.target? node.id = some node →
    Step.Loop.bound (node.setting "maxIterations") = .ok most → context.loopIndex node.id ≤ most
  unread : ∀ node fault, node.type = .loop → graph.target? node.id = some node →
    Step.Loop.bound (node.setting "maxIterations") = .error fault →
    context.loopStates.get? node.id = none ∧
      ∀ call ∈ calls, call.isLoop node.id = true → call.outcome.status = .failure

theorem counted_nil (h : context.loopStates = []) : Counted graph [] context where
  index id := by simp [Context.loopIndex, h]
  bounded node most _ _ hb := by
    have hone := Step.Loop.one_le_of_bound hb
    have hzero : context.loopIndex node.id = 0 := by simp [Context.loopIndex, h]
    omega
  unread node fault _ _ _ := ⟨by simp [h], fun call hc => absurd hc List.not_mem_nil⟩

theorem Counted.congr (h : Counted graph calls context)
    (hs : context'.loopStates = context.loopStates) : Counted graph calls context' where
  index id := (Context.loopIndex_congr hs id).trans (h.index id)
  bounded node most ht hn hb := by
    rw [Context.loopIndex_congr hs]
    exact h.bounded node most ht hn hb
  unread node fault ht hn hb := by
    rw [hs]
    exact h.unread node fault ht hn hb

theorem Counted.idle {call : Visit} (h : Counted graph calls context)
    (hs : context'.loopStates = context.loopStates)
    (hn : call.node.type = .loop → call.outcome.status = .failure) :
    Counted graph (calls ++ [call]) context' where
  index id := by
    have hfalse : ¬ call.continues id = true := by
      intro hc
      obtain ⟨hloop, hstatus⟩ := Visit.continues_iff.mp hc
      rw [hn (Visit.isLoop_iff.mp hloop).1] at hstatus
      cases hstatus
    rw [(h.congr hs).index id]
    simp [List.countP_append, hfalse]
  bounded := (h.congr hs).bounded
  unread node fault ht hf hb := by
    obtain ⟨hnone, hall⟩ := (h.congr hs).unread node fault ht hf hb
    refine ⟨hnone, ?_⟩
    intro other ho hloop
    rcases List.mem_append.mp ho with ho | ho
    · exact hall other ho hloop
    · cases List.mem_singleton.mp ho
      exact hn (Visit.isLoop_iff.mp hloop).1

theorem Counted.written {state : LoopState} {outcome : Outcome} (h : Counted graph calls context)
    (ha : graph.target? node.id = some node) (hl : node.type = .loop)
    (hb : Step.Loop.bound (node.setting "maxIterations") = .ok most)
    (hw : context.Writes context' node.id state)
    (hi : state.index = context.loopIndex node.id + if outcome.status = .continuing then 1 else 0)
    (hm : state.index ≤ most) : Counted graph (calls ++ [⟨node, outcome⟩]) context' where
  index id := by
    have hcount : (calls ++ [(⟨node, outcome⟩ : Visit)]).countP (Visit.continues id) =
        calls.countP (Visit.continues id) +
          if node.id = id then (if outcome.status = .continuing then 1 else 0) else 0 := by
      rw [List.countP_append, List.countP_singleton]
      by_cases hid : node.id = id
      · by_cases hs : outcome.status = .continuing <;>
          simp [Visit.continues, Visit.isLoop, hl, hid, hs]
      · simp [Visit.continues, Visit.isLoop, hid]
    rw [hw.index, hcount]
    by_cases hid : node.id = id
    · rw [if_pos hid, if_pos hid, hi, hid, h.index id]
      split <;> simp
    · rw [if_neg hid, if_neg hid, h.index id]
      rfl
  bounded other most' ht hn hb' := by
    rw [hw.index]
    split
    · rename_i hid
      rw [← hid, ha] at hn
      cases hn
      cases hb.symm.trans hb'
      exact hm
    · exact h.bounded other most' ht hn hb'
  unread other fault ht hn hb' := by
    -- A loop whose bound cannot be read writes no state, so this one is another.
    have hid : node.id ≠ other.id := by
      intro hid
      rw [← hid, ha] at hn
      cases hn
      cases hb.symm.trans hb'
    obtain ⟨hnone, hall⟩ := h.unread other fault ht hn hb'
    constructor
    · rw [hw other.id, if_neg hid, hnone]
    · intro call hc hloop
      rcases List.mem_append.mp hc with hc | hc
      · exact hall call hc hloop
      · cases List.mem_singleton.mp hc
        exact absurd (Visit.isLoop_iff.mp hloop).2 hid

theorem Counted.call (hl : engine.Looping) (ha : graph.Addressed node)
    (hg : engine.registry.get node.type (some node.id) = .ok executor)
    (hc : (executor node).CanEnd scene result scene') (h : Counted graph calls scene.context) :
    Counted graph (calls ++ [⟨node, Attempt.outcomeOf node result⟩]) scene'.context := by
  rcases hl.effect hg hc with ⟨ht, hs⟩ | ⟨ht, heffect⟩
  · exact h.idle hs fun hloop => absurd hloop ht
  · have hn := addressed_loop ha ht
    rcases heffect.written with ⟨ho, hs⟩ | ⟨most, index, items, nodeId, hb, hi, hm, -, hw⟩
    · exact h.idle hs fun _ => ho
    · have hle : index ≤ most := hm (h.bounded node most ht hn hb)
      exact h.written hn ht hb hw hi hle

theorem Passes.counted (hl : engine.Looping)
    (h : Passes engine graph executionId payload calls context) : Counted graph calls context :=
  h.loopStates (Counted graph) (fun _ _ _ _ _ _ ha hg hc hi => hi.call hl ha hg hc)
    (fun _ _ _ hs hi => hi.congr hs) fun _ hs => counted_nil hs

/-- Calls that a node is tried again after do not count where failures do not. -/
theorem countP_tried {p : Visit → Bool} {outcomes : List Outcome} {outcome : Outcome}
    (hp : ∀ call : Visit, call.outcome.status = .failure → p call = false)
    (ht : Attempt.Tried executor node n scene outcomes outcome scene') :
    (outcomes.map (Visit.mk node)).countP p = [(⟨node, outcome⟩ : Visit)].countP p := by
  have hbefore (before : List Outcome)
      (ha : ∀ outcome ∈ before, Attempt.callsForMore outcome = true) :
      (before.map (Visit.mk node)).countP p = 0 := by
    rw [List.countP_eq_zero]
    intro call hc
    obtain ⟨failure, hf, rfl⟩ := List.mem_map.mp hc
    rw [hp _ (Attempt.callsForMore_iff.mp (ha failure hf)).1]
    exact Bool.false_ne_true
  cases ht with
  | ended ha hm hc =>
    rw [List.map_append, List.countP_append, hbefore _ ha, Nat.zero_add]
    rfl
  | cancelled ha hm hl hc text =>
    have hfailed := (Attempt.callsForMore_iff.mp hl).1
    rw [List.map_append, List.countP_append, hbefore _ ha, List.map_singleton,
      List.countP_singleton, List.countP_singleton, hp _ hfailed, hp _ hfailed, Nat.zero_add]

theorem Goes.countP_visits {p : Visit → Bool}
    (hp : ∀ call : Visit, call.outcome.status = .failure → p call = false)
    (h : Goes engine graph walk context calls walk' context') :
    walk'.visits.countP p = walk.visits.countP p + calls.countP p := by
  induction h with
  | refl => simp
  | tail _ hm ih =>
    rw [List.countP_append, ← Nat.add_assoc, ← ih]
    cases hm with
    | visited he hq hg hpol ht hn =>
      rw [countP_tried hp ht, turnOf, Turn.after_visits, List.countP_append]
    | overflowed => rfl
    | closed => rfl

theorem Looping.gives_halted {queue : List Node} {visits : List Visit} {failed : Bool}
    {limit : Value} {left : Nat} {policy : RetryPolicy} {name : Option String}
    (hl : engine.Looping) (ht : node.type = .loop)
    (hp : RetryPolicy.ofConfig node.config = .ok policy) (hn : node.saveName = .ok name)
    (hb : Step.Loop.bound (node.setting "maxIterations") = .ok most)
    (hm : most ≤ scene.context.loopIndex node.id) :
    (walkOn engine graph limit (left + 1) ⟨node :: queue, visits, failed, none⟩).Gives scene
      fun walk scene' => walk.ending = some .halted ∧ walk.failed = true ∧
        (∃ outcome, walk.visits = visits ++ [⟨node, outcome⟩] ∧ outcome.status = .failure) ∧
        ∀ id, scene'.context.loopIndex id = scene.context.loopIndex id ∧
          scene'.context.loopItems id = scene.context.loopItems id := by
  have hg : engine.registry.get node.type (some node.id) = .ok Step.Loop.execute := by
    rw [ht]
    exact hl.loop _
  have hused : most ≤ (entered node scene).context.loopIndex node.id := hm
  refine gives_walkOn (gives_visit hg hn (Attempt.gives_run hp (Gives.mono ?_
    (Step.Loop.gives_usedUp hb hused))))
  rintro outcome scene' ⟨hstatus, hhalts, hstates⟩
  refine ⟨by simp [Attempt.callsForMore, hhalts], ?_⟩
  have hwalk : (turnOf graph node outcome ⟨queue, visits, failed, none⟩ scene'.context).walk =
      ⟨queue, visits ++ [⟨node, outcome⟩], true, some .halted⟩ := by
    have hend : node.type.isTerminal = false := by rw [ht]; rfl
    simp [turnOf, Turn.after, hend, hhalts, Turn.halt]
  have hkept :=
    loopStates_turnOf graph node outcome ⟨queue, visits, failed, none⟩ scene'.context
  dsimp only
  rw [hwalk]
  apply gives_walkOn_over rfl
  refine ⟨rfl, rfl, ⟨outcome, rfl, hstatus⟩, ?_⟩
  intro id
  exact ⟨(Context.loopIndex_congr hkept id).trans (hstates id).1,
    (Context.loopItems_congr hkept id).trans (hstates id).2⟩

/-- A loop that is at its bound has been visited before, and so its policy and its save name have been
read before. -/
theorem Looping.settings_read (hl : engine.Looping) {queue : List Node}
    (h : Runs engine graph executionId payload calls walk context)
    (hq : walk.queue = node :: queue) (ht : node.type = .loop)
    (hb : node.GoesAtMost (context.loopIndex node.id)) :
    (∃ policy, RetryPolicy.ofConfig node.config = .ok policy) ∧
      ∃ name, node.saveName = .ok name := by
  have hone := Step.Loop.one_le_of_bound (Step.Loop.bound_eq_ok_iff.mpr hb)
  have hcount : 0 < calls.countP (Visit.continues node.id) := by
    have hsame := ((Passes.between h).counted hl).index node.id
    omega
  obtain ⟨call, hc, hgoes⟩ := List.countP_pos_iff.mp hcount
  obtain ⟨hloop, hid⟩ := Visit.isLoop_iff.mp (Visit.continues_iff.mp hgoes).1
  have hr := h.reachable
  obtain ⟨now, hrun⟩ := h
  obtain ⟨ha, hn, policy, hp⟩ := hrun.mem .refl call hc
  have hsame : call.node = node :=
    addressed_unique (hr.addressed node (hq ▸ List.mem_cons_self)) ht ha hloop hid
  have hstart : node.type ≠ .start := by rw [ht]; decide
  exact ⟨⟨policy, hsame ▸ hp⟩, exists_saveName_of_recordable hstart (hsame ▸ hn)⟩

/-- The index of a loop is the number of its calls that went on, and so of its visits that did. It
never exceeds the bound, and a turn of the loop that finds it there ends the run as a failure with
all indices and collected outputs as they were. Where the bound cannot be read the loop has no
state, and each of its calls fails. -/
theorem Looping.loop_index (hl : engine.Looping) :
    (∀ calls context, Passes engine graph executionId payload calls context →
      (∀ id, context.loopIndex id = calls.countP (Visit.continues id)) ∧
      ∀ node, node.type = .loop → graph.target? node.id = some node →
        (∀ most, node.GoesAtMost most → context.loopIndex node.id ≤ most) ∧
        (¬ (node.setting "maxIterations").NearDouble →
          context.loopStates.get? node.id = none ∧
          ∀ call ∈ calls, call.isLoop node.id = true → call.outcome.status = .failure)) ∧
    ∀ (calls : List Visit) (walk : Walk) (scene : Scene),
      Runs engine graph executionId payload calls walk scene.context →
      (∀ id, scene.context.loopIndex id = walk.visits.countP (Visit.continues id)) ∧
      ∀ node queue limit left, walk.ending = none → walk.queue = node :: queue →
        node.type = .loop → node.GoesAtMost (scene.context.loopIndex node.id) →
        (walkOn engine graph limit (left + 1) walk).Gives scene fun walk' scene' =>
          walk'.ending = some .halted ∧
          (∀ now, (closed walk' now scene'.context).status = .failure) ∧
          (∃ outcome, walk'.visits = walk.visits ++ [⟨node, outcome⟩] ∧
            outcome.status = .failure) ∧
          ∀ id, scene'.context.loopIndex id = scene.context.loopIndex id ∧
            scene'.context.loopItems id = scene.context.loopItems id := by
  constructor
  · intro calls context h
    have hcounted := h.counted hl
    refine ⟨hcounted.index, ?_⟩
    intro node ht hn
    constructor
    · intro most hb
      exact hcounted.bounded node most ht hn (Step.Loop.bound_eq_ok_iff.mpr hb)
    · intro hlarge
      exact hcounted.unread node _ ht hn (Step.Loop.bound_eq_error hlarge)
  · intro calls walk scene h
    have hindex := ((Passes.between h).counted hl).index
    constructor
    · intro id
      obtain ⟨now, hgoes⟩ := h
      have hfailure (call : Visit) (hc : call.outcome.status = .failure) :
          call.continues id = false := by
        simp [Visit.continues, hc]
      rw [hindex id, hgoes.countP_visits hfailure]
      simp [Walk.starting]
    · intro node queue limit left he hq ht hb
      obtain ⟨⟨policy, hp⟩, name, hn⟩ := hl.settings_read h hq ht hb
      obtain ⟨_, visits, failed, _⟩ := walk
      cases he
      cases hq
      have hbound := Step.Loop.bound_eq_ok_iff.mpr hb
      refine Gives.mono ?_ (hl.gives_halted ht hp hn hbound (Int.le_refl _))
      rintro walk' scene' ⟨hending, hfailed, hvisits, hstates⟩
      refine ⟨hending, ?_, hvisits, hstates⟩
      intro now
      simp [closed, hfailed]

/-- Of the executors that come with the engine only that of loops writes the state of a loop. -/
theorem looping_of_standard (hs : ∀ entry ∈ engine.registry.entries, Step.Standard entry)
    (hl : engine.registry.supports .loop = true) : engine.Looping where
  loop id := by
    obtain ⟨executor, hg⟩ := Registry.exists_get hl id
    obtain ⟨settings, connectors, launcher, hx⟩ := hs _ (Registry.mem_of_get hg)
    rw [hg]
    exact congrArg Except.ok (Option.some.inj hx).symm
  others type id executor hg ht node := by
    obtain ⟨settings, connectors, launcher, hx⟩ := hs _ (Registry.mem_of_get hg)
    exact Step.keeps_executor_of_ne_loop node (fun _ _ _ => rfl) settings connectors launcher ht hx

theorem plain_looping : plain.Looping := looping_of_standard plain_standard rfl

end Engine

namespace Limited

/-- A loop that would never end, but for its bound. -/
def loop : Node := ⟨"loop", .loop, "", [("condition", .text "true"), ("maxIterations", .int 1)], []⟩

def flow : FlowGraph :=
  .plain [.plainStart, loop, .plainMapper "b" "1"]
    [("start", "loop", .always), ("loop", "b", .continuing), ("b", "loop", .always)]

/-- It goes on once, and its second visit ends the run. -/
theorem limited_index :
    ∃ calls walk context, Engine.Runs Engine.plain flow "run" [] calls walk context ∧
      walk.ending = some .halted ∧ loop.GoesAtMost 1 ∧ context.loopIndex "loop" = 1 ∧
      calls.countP (Visit.continues "loop") = 1 := by
  have hrun : ((Engine.plain.evaluated flow "run" []).map fun passage =>
      (passage.context.loopIndex "loop", passage.walk.ending)) = .ok (1, some .halted) := by
    decide +kernel
  obtain ⟨passage, calls, -, hruns, hends⟩ := Engine.exists_of_evaluated hrun
  obtain ⟨hone, hended⟩ := Prod.mk.inj hends
  have hbound : loop.GoesAtMost 1 := Step.Loop.bound_eq_ok_iff.mp (by decide)
  obtain ⟨hindex, -⟩ := Engine.plain_looping.loop_index.1 calls _ (.between hruns)
  have hcount := hindex "loop"
  refine ⟨calls, passage.walk, passage.context, hruns, hended, hbound, hone, ?_⟩
  omega

end Limited

end FlowEngine
