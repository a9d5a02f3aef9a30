import FlowEngine.Proofs.Run.LoopIndex

/-!
# The collected outputs of a loop

A loop collects before it looks at its condition, and what it has collected stays. A condition that
ends in a fault makes the attempt a failure, and the next attempt collects the same output again. So
there are at most as many outputs as visits and attempts after the first ones.
-/

namespace FlowEngine

open Doing

namespace Attempt

variable {γ : Type} {view : Context → γ} {executor : Executor} {node : Node} {most : Nat}
  {scene scene' : Scene} {outcome : Outcome} {outcomes : List Outcome}

theorem Calls.keeps (hk : Work.Keeps view (executor node))
    (h : Calls executor node scene outcomes scene') :
    view scene'.context = view scene.context := by
  induction h with
  | done => rfl
  | call he _ ih => exact ih.trans (Ensures.of_canEnd (hk.same _) he)

theorem Tried.keeps (hk : Work.Keeps view (executor node))
    (hf : ∀ (c : Context) message, view (c.fail message) = view c)
    (h : Tried executor node most scene outcomes outcome scene') :
    view scene'.context = view scene.context := by
  cases h with
  | ended _ _ hc => exact hc.keeps hk
  | cancelled _ _ _ hc text => exact (hf _ text).trans (hc.keeps hk)

/-- Of the calls at a node all but one ask for another, and there are as many as are granted. -/
theorem Tried.length_le (h : Tried executor node most scene outcomes outcome scene') :
    outcomes.length ≤ outcomes.countP callsForMore + 1 ∧ outcomes.length ≤ most + 1 := by
  have hasks (before : List Outcome) (last : Outcome)
      (ha : ∀ outcome ∈ before, callsForMore outcome = true) :
      before.length ≤ (before ++ [last]).countP callsForMore := by
    rw [List.countP_append, List.countP_eq_length.mpr ha]
    exact Nat.le_add_right _ _
  cases h with
  | ended ha hm _ =>
    have hbefore := hasks _ outcome ha
    rw [List.length_append, List.length_singleton]
    omega
  | @cancelled _ last _ ha hm _ _ _ =>
    have hbefore := hasks _ last ha
    rw [List.length_append, List.length_singleton]
    omega

end Attempt

/-- The loop with this id was called and asked to be called again. -/
def Visit.asksAgain (id : String) (call : Visit) : Bool :=
  call.isLoop id && Attempt.callsForMore call.outcome

namespace Engine

variable {engine : Engine} {graph : FlowGraph} {executionId : String} {payload : Entries Value}
  {walk walk' : Walk} {context context' : Context} {calls : List Visit} {scene scene' : Scene}
  {node : Node} {executor : Executor} {result : Except Fault Outcome} {id : String}

/-- A call at a loop puts at most one output behind those collected, and any other call none. -/
theorem Looping.appends (hl : engine.Looping)
    (hg : engine.registry.get node.type (some node.id) = .ok executor)
    (hc : (executor node).CanEnd scene result scene') (id : String) :
    ∃ more, scene'.context.loopItems id = scene.context.loopItems id ++ more ∧
      more.length ≤ if node.type = .loop ∧ node.id = id then 1 else 0 := by
  have hkept (hs : scene'.context.loopStates = scene.context.loopStates) :
      ∃ more, scene'.context.loopItems id = scene.context.loopItems id ++ more ∧
        more.length ≤ if node.type = .loop ∧ node.id = id then 1 else 0 :=
    ⟨[], by rw [Context.loopItems_congr hs, List.append_nil], Nat.zero_le _⟩
  rcases hl.effect hg hc with ⟨-, hs⟩ | ⟨ht, heffect⟩
  · exact hkept hs
  · rcases heffect.written with ⟨-, hs⟩ | ⟨most, index, items, nodeId, -, -, -, hi, hw⟩
    · exact hkept hs
    · -- What is written is behind the outputs of this loop alone.
      by_cases hid : node.id = id
      · refine ⟨items, ?_, ?_⟩
        · rw [hw.items, if_pos hid, hid]
        · rw [if_pos ⟨ht, hid⟩]
          exact hi
      · refine ⟨[], ?_, Nat.zero_le _⟩
        rw [hw.items, if_neg hid, List.append_nil]

theorem Passes.length_loopItems (hl : engine.Looping)
    (h : Passes engine graph executionId payload calls context) (id : String) :
    (context.loopItems id).length ≤ calls.countP (Visit.isLoop id) := by
  refine h.loopStates
    (fun calls context => (context.loopItems id).length ≤ calls.countP (Visit.isLoop id)) ?_ ?_ ?_
  · intro calls node executor scene scene' result _ hg hc hi
    obtain ⟨more, hitems, hmore⟩ := hl.appends hg hc id
    have hone : [(⟨node, Attempt.outcomeOf node result⟩ : Visit)].countP (Visit.isLoop id) =
        if node.type = .loop ∧ node.id = id then 1 else 0 := by
      simp [List.countP_singleton, Visit.isLoop]
    rw [hitems, List.length_append, List.countP_append, hone]
    exact Nat.add_le_add hi hmore
  · intro calls context context' hs hi
    rw [Context.loopItems_congr hs]
    exact hi
  · intro context hs
    simp [Context.loopItems, hs]

theorem Goes.loopItems_prefix (hl : engine.Looping) (hr : walk.Reachable graph)
    (h : Goes engine graph walk context calls walk' context') (id : String) :
    context.loopItems id <+: context'.loopItems id := by
  refine h.loopStates (fun _ later => context.loopItems id <+: later.loopItems id) ?_ ?_ hr []
    List.prefix_rfl
  · intro calls node executor scene scene' result _ hg hc hi
    obtain ⟨more, hitems, -⟩ := hl.appends hg hc id
    rw [hitems]
    exact hi.trans (List.prefix_append _ _)
  · intro calls before after hs hi
    rw [Context.loopItems_congr hs]
    exact hi

theorem Goes.order (ho : engine.Keeps Context.order)
    (h : Goes engine graph walk context calls walk' context')
    (hw : context.order = walk.executed) : context'.order = walk'.executed := by
  induction h with
  | refl => exact hw
  | tail _ hm ih =>
    cases hm with
    | visited he hq hg hp ht hn =>
      have hkept := ht.keeps (ho.of_get hg) fun _ _ => rfl
      rw [order_turnOf, executed_turnOf, hkept]
      exact congrArg (· ++ [_]) ih
    | overflowed => exact ih
    | closed => exact ih

theorem countP_isLoop_map (node : Node) (outcomes : List Outcome) (id : String) :
    (outcomes.map (Visit.mk node)).countP (Visit.isLoop id) =
      if node.type = .loop ∧ node.id = id then outcomes.length else 0 := by
  by_cases hloop : node.type = .loop ∧ node.id = id
  · rw [if_pos hloop, List.countP_eq_length.mpr, List.length_map]
    intro call hc
    obtain ⟨outcome, -, rfl⟩ := List.mem_map.mp hc
    exact Visit.isLoop_iff.mpr hloop
  · rw [if_neg hloop, List.countP_eq_zero]
    intro call hc hcall
    obtain ⟨outcome, -, rfl⟩ := List.mem_map.mp hc
    exact hloop (Visit.isLoop_iff.mp hcall)

theorem countP_asksAgain_map (node : Node) (outcomes : List Outcome) (id : String) :
    (outcomes.map (Visit.mk node)).countP (Visit.asksAgain id) =
      if node.type = .loop ∧ node.id = id then outcomes.countP Attempt.callsForMore else 0 := by
  rw [List.countP_map]
  by_cases hloop : node.type = .loop ∧ node.id = id
  · rw [if_pos hloop]
    apply List.countP_congr
    intro outcome _
    simp [Visit.asksAgain, Visit.isLoop, hloop.1, hloop.2]
  · rw [if_neg hloop, List.countP_eq_zero]
    intro outcome _ hcall
    simp only [Function.comp_apply, Visit.asksAgain, Bool.and_eq_true] at hcall
    exact hloop (Visit.isLoop_iff.mp hcall.1)

/-- A loop is called once for each visit, and again where a call asked for that. -/
theorem Goes.countP_isLoop (h : Goes engine graph walk context calls walk' context') (id : String) :
    calls.countP (Visit.isLoop id) + walk.visits.countP (Visit.isLoop id) ≤
      walk'.visits.countP (Visit.isLoop id) + calls.countP (Visit.asksAgain id) := by
  -- By the moves: only a visit makes calls, and each but the last of them asked for another.
  induction h with
  | refl => simp
  | tail _ hm ih =>
    rw [List.countP_append, List.countP_append]
    cases hm with
    | @visited _ node _ _ _ outcomes outcome _ he hq hg hp ht =>
      have hone : [(⟨node, outcome⟩ : Visit)].countP (Visit.isLoop id) =
          if node.type = .loop ∧ node.id = id then 1 else 0 := countP_isLoop_map node [outcome] id
      have hasks : (outcomes.map (Visit.mk node)).countP (Visit.asksAgain id) =
          if node.type = .loop ∧ node.id = id then outcomes.countP Attempt.callsForMore else 0 :=
        countP_asksAgain_map node outcomes id
      have hle := ht.length_le.1
      simp only [turnOf, Turn.after_visits, List.countP_append, hone, hasks, countP_isLoop_map]
      by_cases hloop : node.type = .loop ∧ node.id = id
      · simp only [if_pos hloop]
        omega
      · simp only [if_neg hloop]
        omega
    | overflowed => simpa using ih
    | closed => simpa using ih

theorem Goes.countP_isLoop_policy {policy : RetryPolicy}
    (h : Goes engine graph walk context calls walk' context') (hr : walk.Reachable graph)
    (ht : node.type = .loop) (hn : graph.target? node.id = some node)
    (hp : RetryPolicy.ofConfig node.config = .ok policy) :
    calls.countP (Visit.isLoop node.id) +
        (policy.maxRetries + 1) * walk.visits.countP (Visit.isLoop node.id) ≤
      (policy.maxRetries + 1) * walk'.visits.countP (Visit.isLoop node.id) := by
  induction h with
  | refl => simp
  | @tail calls walk' context' more walk'' context'' hgoes hm ih =>
    rw [List.countP_append]
    cases hm with
    | @visited _ head _ _ policy' outcomes outcome _ he hq hg hp' htried =>
      have hone : [(⟨head, outcome⟩ : Visit)].countP (Visit.isLoop node.id) =
          if head.type = .loop ∧ head.id = node.id then 1 else 0 :=
        countP_isLoop_map head [outcome] node.id
      simp only [turnOf, Turn.after_visits, List.countP_append, hone, countP_isLoop_map,
        Nat.mul_add]
      by_cases hloop : head.type = .loop ∧ head.id = node.id
      · simp only [if_pos hloop, Nat.mul_one]
        have ha : graph.Addressed head :=
          (hgoes.reachable hr).addressed head (hq ▸ List.mem_cons_self)
        have hsame : head = node := addressed_unique (Or.inr hn) ht ha hloop.1 hloop.2
        rw [hsame, hp] at hp'
        cases hp'
        have hle := htried.length_le.2
        omega
      · simp only [if_neg hloop]
        omega
    | overflowed => simpa using ih
    | closed => simpa using ih

theorem countP_visits_le (walk : Walk) (id : String) :
    walk.visits.countP (Visit.isLoop id) ≤ walk.executed.count id := by
  rw [Walk.executed, List.count, List.countP_map]
  apply List.countP_mono_left
  intro call _ hc
  simpa using (Visit.isLoop_iff.mp hc).2

/-- At most one output is collected for each time that a loop is in the order of the run, and one
more for each of its calls that asked for another. With no retries granted there is no more than the
former. What is collected only grows, by what is put behind it. -/
theorem Looping.loop_items (hl : engine.Looping) (ho : engine.Keeps Context.order)
    (h : Runs engine graph executionId payload calls walk context) :
    (∀ id, (context.loopItems id).length ≤
      context.order.count id + calls.countP (Visit.asksAgain id)) ∧
    (∀ node policy, node.type = .loop → graph.target? node.id = some node →
      RetryPolicy.ofConfig node.config = .ok policy →
      (context.loopItems node.id).length ≤
        (policy.maxRetries + 1) * context.order.count node.id) ∧
    ∀ more walk' context', Goes engine graph walk context more walk' context' →
      ∀ id, context.loopItems id <+: context'.loopItems id := by
  have hr := h.reachable
  have hitems (id : String) := (Passes.between h).length_loopItems hl id
  obtain ⟨now, hgoes⟩ := h
  have horder : context.order = walk.executed :=
    hgoes.order ho (order_opening graph executionId payload now)
  refine ⟨?_, ?_, ?_⟩
  · intro id
    have hcalls := hgoes.countP_isLoop id
    have hvisits := countP_visits_le walk id
    have hall := hitems id
    rw [horder]
    simp only [Walk.starting, List.countP_nil] at hcalls
    omega
  · intro node policy ht hn hp
    have hcalls := hgoes.countP_isLoop_policy .refl ht hn hp
    have hvisits := Nat.mul_le_mul_left (policy.maxRetries + 1) (countP_visits_le walk node.id)
    have hall := hitems node.id
    rw [horder]
    simp only [Walk.starting, List.countP_nil] at hcalls
    omega
  · intro more walk' context' hmore id
    exact hmore.loopItems_prefix hl hr id

end Engine

namespace Retried

/-- A loop whose condition computes with the payload, and which may be tried again twice. -/
def loop : Node :=
  ⟨"loop", .loop, "",
    [("condition", .text "\x7b\x7bnodes.start.output.body.n - loop.index\x7d\x7d > 0"),
      ("retry", .object [("maxRetries", .int 2), ("backoffMs", .int 1)])], []⟩

def flow : FlowGraph :=
  .plain [.plainStart, .plainMapper "body" "1", loop, .plainEnd]
    [("start", "body", .always), ("body", "loop", .always), ("loop", "body", .continuing),
      ("loop", "done", .success)]

/-- An integer that no double is near to. -/
def payload : Entries Value := [("n", .int (10 ^ 400 : Nat))]

theorem opening_eq (now : Instant) : Engine.opening flow "run" payload now =
    { (Context.create "g" "run" now).seed .plainStart payload with
      loopEdges := [("loop", true)]
      loopBodies := [("loop", ["body"])] } := by
  have hbody : flow.loopBody "loop" = ["body"] := by
    simp [FlowGraph.loopBody, FlowGraph.searchBody, flow, FlowGraph.plain,
      FlowGraph.continueTargets, FlowGraph.outgoing, FlowGraph.successors]
  rw [← hbody]
  rfl

/-- On its one visit the loop collects the output of the body three times. -/
theorem runs_thrice : ∃ calls walk context,
    Engine.Runs Engine.plain flow "run" payload calls walk context ∧
      (context.loopItems "loop").length = 3 ∧ context.order.count "loop" = 1 := by
  have hrun : ((Engine.plain.evaluated flow "run" payload).map fun passage =>
      ((passage.context.loopItems "loop").length, passage.context.order.count "loop")) =
      .ok (3, 1) := by
    rw [Engine.evaluated, Engine.served_follow]
    -- The search for the body is not evaluated, so its result is put in its place.
    simp only [Engine.begun, opening_eq]
    decide +kernel
  obtain ⟨passage, calls, -, hruns, hends⟩ := Engine.exists_of_evaluated hrun
  obtain ⟨hitems, horder⟩ := Prod.mk.inj hends
  exact ⟨calls, passage.walk, passage.context, hruns, hitems, horder⟩

/-- What its condition computes with fails, at each try of the visit. -/
example : Value.evaluate .minus (.int (10 ^ 400 : Nat)) (.int 0) = .error .integerTooLarge := by
  decide +kernel

theorem plain_keeps_order : Engine.plain.Keeps Context.order :=
  fun entry he node => (Engine.plain_standard entry he).keeps Context.apart_order node

/-- The outputs beyond the first one belong to calls that asked for another. -/
theorem retried_items : ∃ calls walk context,
    Engine.Runs Engine.plain flow "run" payload calls walk context ∧
      (context.loopItems "loop").length = 3 ∧
      2 ≤ calls.countP (Visit.asksAgain "loop") := by
  obtain ⟨calls, walk, context, hruns, hitems, horder⟩ := runs_thrice
  have hle := (Engine.plain_looping.loop_items plain_keeps_order hruns).1 "loop"
  rw [hitems, horder] at hle
  exact ⟨calls, walk, context, hruns, hitems, by omega⟩

/-- A body pass is not collected once only. -/
theorem pass_collected_again :
    ¬ ∀ (engine : Engine) (graph : FlowGraph) (executionId : String) (payload : Entries Value)
      (calls : List Visit) (walk : Walk) (context : Context), engine.Looping →
      engine.Keeps Context.order → Engine.Runs engine graph executionId payload calls walk context →
      ∀ id, (context.loopItems id).length ≤ context.order.count id := by
  intro hall
  obtain ⟨calls, walk, context, hruns, hitems, horder⟩ := runs_thrice
  have hle := hall Engine.plain flow "run" payload calls walk context Engine.plain_looping
    plain_keeps_order hruns "loop"
  rw [hitems, horder] at hle
  exact absurd hle (by decide)

end Retried

end FlowEngine
