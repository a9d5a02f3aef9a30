import FlowEngine.Dispatch.Dispatcher
import FlowEngine.Proofs.Run.Compatible
import FlowEngine.Proofs.Step.Aloof

/-!
# The course of a trigger

What a trigger asks of its surroundings, in order. A run that is refused keeps one execution and tells
that it failed. A run that is conducted keeps an execution as it begins, tells so, asks what the engine
asks, keeps the execution as it has ended, and tells how. A start in the background keeps an execution
and hands it on.
-/

namespace FlowEngine

open Doing

namespace Act

variable {place place' : Place} {t : List Exchange} {result : Except Fault Unit} {event : Event}

theorem path_emit {id : String} (h : (emit id event).Path place t result place') :
    ∃ reply told, t = ⟨.publish event, reply⟩ :: told ∧ Exchange.AreLog told ∧ result = .ok () ∧
      place' = place := by
  obtain ⟨t₁, t₂, first, place₁, rfl, h₁, h₂⟩ := path_bind.mp h
  obtain ⟨reply, rfl, rfl, rfl⟩ := path_ask.mp h₁
  cases reply with
  | none =>
    obtain ⟨rfl, rfl, rfl⟩ := path_pure.mp h₂
    exact ⟨none, [], rfl, Exchange.areLog_nil, rfl, rfl⟩
  | some reason =>
    obtain ⟨rfl, rfl, rfl⟩ := Act.path_note.mp h₂
    exact ⟨some reason, _, rfl, Exchange.areLog_log _, rfl, rfl⟩

theorem path_inside {α : Type} {flow : String} {x : Act α} {result : Except Fault α} :
    (inside flow x).Path place t result place' ↔
      ∃ after, x.Path { place with chain := place.chain ++ [flow] } t result after ∧
        place' = { after with chain := place.chain } := by
  refine Dialogue.path_bind.trans ⟨?_, ?_⟩
  · rintro ⟨t₁, t₂, ⟨first, after⟩, rfl, h₁, h₂⟩
    obtain ⟨rfl, he⟩ := Dialogue.path_done.mp h₂
    cases he
    exact ⟨after, (List.append_nil t₁).symm ▸ h₁, rfl⟩
  · rintro ⟨after, h, rfl⟩
    exact ⟨t, [], (result, after), (List.append_nil t).symm, h, .here _⟩

end Act

namespace Engine

variable {engine : Engine} {graph : FlowGraph} {id : String} {payload : Entries Value}
  {place place' : Place} {t : List Exchange}

theorem path_execute {result : Except Fault Context}
    (h : (engine.execute graph id payload).Path place t result place') :
    ∃ now inner walked scene,
      t = ⟨.now, now⟩ :: inner ∧
      (engine.perform graph).Path ⟨opening graph id payload now, { place with
        trace := place.trace.putAll [("flow_id", .text graph.id), ("execution_id", .text id)] }⟩
        inner walked scene ∧
      result = walked.map (fun _ => scene.context) ∧
      place' = { scene.place with trace := place.trace } := by
  obtain ⟨t₁, t₂, first, place₁, rfl, h₁, h₂⟩ := path_bind.mp h
  obtain ⟨now, rest, rfl, hr⟩ := Dialogue.path_ask.mp h₁
  obtain ⟨t₃, t₄, ⟨walked, scene⟩, rfl, hp, hd⟩ := Dialogue.path_bind.mp hr
  obtain ⟨rfl, he⟩ := Dialogue.path_done.mp hd
  cases he
  rw [List.append_nil]
  cases walked with
  | error fault =>
    obtain ⟨rfl, rfl, rfl⟩ := h₂
    exact ⟨now, t₃, _, scene, by simp, hp, rfl, rfl⟩
  | ok walk =>
    obtain ⟨rfl, rfl, rfl⟩ := path_pure.mp h₂
    exact ⟨now, t₃, _, scene, by simp, hp, rfl, rfl⟩

end Engine

namespace Dispatcher

def refusedExecution (id flow startedBy reason : String) (now : Instant) : Execution :=
  ⟨id, flow, .failure, startedBy, now, some now, some (Execution.crashSnapshot reason)⟩

/-- How a run ended with which the engine came back. -/
def endingOf (outcome : Except Fault Context) : Ending :=
  match outcome >>= Ending.ofContext with
  | .ok ending => ending
  | .error fault => Ending.ofFault fault

def finished (execution : Execution) (ending : Ending) (now : Instant) : Execution :=
  { execution with
    status := ending.status
    completedAt := some now
    snapshot := some ending.snapshot }

inductive Refused (flow startedBy reason : String) : List Exchange → Execution → Prop where
  | mk (record : Log.Record) (now : Instant) (id : String) (reply : Option String)
      (told : List Exchange) (ht : Exchange.AreLog told) :
      Refused flow startedBy reason
        (⟨.log record, ()⟩ :: ⟨.now, now⟩ :: ⟨.freshId, id⟩ ::
          ⟨.keep (refusedExecution id flow startedBy reason now), ()⟩ ::
          ⟨.publish (Event.executionFailed (some flow) (some id) reason), reply⟩ :: told)
        (refusedExecution id flow startedBy reason now)

inductive Conducted (engine : Engine) (graph : FlowGraph) (execution : Execution)
    (payload : Entries Value) (place : Place) (inner : List Exchange)
    (outcome : Except Fault Context) : List Exchange → Execution → Prop where
  | mk (reply reply' : Option String) (told told' told'' : List Exchange) (now : Instant)
      (ht : Exchange.AreLog told) (ht' : Exchange.AreLog told') (ht'' : Exchange.AreLog told'')
      (hp : ∃ after, (engine.execute graph execution.id payload).Path
        { place with chain := place.chain ++ [graph.id] } inner outcome after) :
      Conducted engine graph execution payload place inner outcome
        (⟨.publish (Event.executionStarted (some graph.id) (some execution.id) payload), reply⟩ ::
          (told ++ inner ++ told' ++
            ⟨.now, now⟩ :: ⟨.keep (finished execution (endingOf outcome) now), ()⟩ ::
            ⟨.publish ((endingOf outcome).event graph.id execution.id), reply'⟩ :: told''))
        (finished execution (endingOf outcome) now)

inductive Begun (flow startedBy : String) : List Exchange → Execution → Prop where
  | mk (id : String) (now : Instant) :
      Begun flow startedBy
        [⟨.freshId, id⟩, ⟨.now, now⟩, ⟨.keep (Execution.begun id flow startedBy now), ()⟩]
        (Execution.begun id flow startedBy now)

variable {d : Dispatcher} {engine : Engine} {graph : FlowGraph} {execution : Execution}
  {payload : Entries Value} {flow startedBy reason : String} {place place' : Place}
  {t : List Exchange}

theorem path_begin {result : Except Fault Execution}
    (h : (begin flow startedBy).Path place t result place') :
    ∃ execution, Begun flow startedBy t execution ∧ result = .ok execution ∧ place' = place := by
  obtain ⟨t₁, t₂, _, place₁, rfl, h₁, h₂⟩ := path_bind.mp h
  obtain ⟨id, rfl, rfl, rfl⟩ := path_ask.mp h₁
  obtain ⟨t₃, t₄, _, place₂, rfl, h₃, h₄⟩ := path_bind.mp h₂
  obtain ⟨now, rfl, rfl, rfl⟩ := path_ask.mp h₃
  obtain ⟨t₅, t₆, _, place₃, rfl, h₅, h₆⟩ := path_bind.mp h₄
  obtain ⟨⟨⟩, rfl, rfl, rfl⟩ := path_ask.mp h₅
  obtain ⟨rfl, rfl, rfl⟩ := path_pure.mp h₆
  exact ⟨_, .mk id now, rfl, rfl⟩

theorem path_refuse {result : Except Fault Execution}
    (h : (refuse flow startedBy reason).Path place t result place') :
    ∃ execution, Refused flow startedBy reason t execution ∧ result = .ok execution ∧
      place' = place := by
  obtain ⟨t₁, t₂, _, place₁, rfl, h₁, h₂⟩ := path_bind.mp h
  obtain ⟨rfl, rfl, rfl⟩ := Act.path_note.mp h₁
  obtain ⟨t₃, t₄, _, place₂, rfl, h₃, h₄⟩ := path_bind.mp h₂
  obtain ⟨now, rfl, rfl, rfl⟩ := path_ask.mp h₃
  obtain ⟨t₅, t₆, _, place₃, rfl, h₅, h₆⟩ := path_bind.mp h₄
  obtain ⟨id, rfl, rfl, rfl⟩ := path_ask.mp h₅
  obtain ⟨t₇, t₈, _, place₄, rfl, h₇, h₈⟩ := path_bind.mp h₆
  obtain ⟨⟨⟩, rfl, rfl, rfl⟩ := path_ask.mp h₇
  obtain ⟨t₉, t₁₀, _, place₅, rfl, h₉, h₁₀⟩ := path_bind.mp h₈
  obtain ⟨reply, told, rfl, ht, rfl, rfl⟩ := Act.path_emit h₉
  obtain ⟨rfl, rfl, rfl⟩ := path_pure.mp h₁₀
  rw [List.append_nil]
  exact ⟨_, .mk _ now id reply told ht, rfl, rfl⟩

/-- What a run inside others asks, from the news of its beginning to what has become of it. -/
theorem path_runInside {result : Except Fault Ending}
    (h : (runInside engine graph execution payload).Path place t result place') :
    ∃ reply told inner outcome told',
      t = ⟨.publish (Event.executionStarted (some graph.id) (some execution.id) payload), reply⟩ ::
        (told ++ inner ++ told') ∧
      Exchange.AreLog told ∧ Exchange.AreLog told' ∧
      (∃ after, (engine.execute graph execution.id payload).Path
        { place with chain := place.chain ++ [graph.id] } inner outcome after) ∧
      result = .ok (endingOf outcome) ∧ place' = place := by
  obtain ⟨after, hin, rfl⟩ := Act.path_inside.mp h
  obtain ⟨t₁, t₂, _, place₁, rfl, h₁, h₂⟩ := path_bind.mp hin
  obtain ⟨reply, told, rfl, ht, rfl, rfl⟩ := Act.path_emit h₁
  obtain ⟨t₃, t₄, _, place₂, rfl, h₃, h₄⟩ := path_bind.mp h₂
  obtain ⟨attempted, rfl, hended⟩ := path_attempt.mp h₃
  obtain ⟨inner, t₆, outcome, place₃, rfl, hexecute, hrest⟩ := path_bind.mp hended
  have hplace : place₃.trace = place.trace := by
    obtain ⟨_, _, _, _, -, -, -, rfl⟩ := Engine.path_execute hexecute
    rfl
  -- What the engine came back with and what its snapshot became are one result for the handler.
  have hsame : t₆ = [] ∧ attempted = (outcome >>= Ending.ofContext) ∧ place₂ = place₃ := by
    cases outcome with
    | error fault => exact ⟨hrest.1, hrest.2.1, hrest.2.2⟩
    | ok context =>
      obtain ⟨ht₆, hr, hp⟩ := path_ofExcept.mp hrest
      exact ⟨ht₆, hr, hp⟩
  obtain ⟨rfl, rfl, rfl⟩ := hsame
  rw [List.append_nil] at *
  refine ⟨reply, told, inner, outcome, t₄, by simp, ht, ?_⟩
  have hend : Exchange.AreLog t₄ ∧ result = .ok (endingOf outcome) ∧ after = place₂ := by
    unfold endingOf
    cases hr : outcome >>= Ending.ofContext with
    | ok ending =>
      rw [hr] at h₄
      obtain ⟨rfl, rfl, rfl⟩ := path_pure.mp h₄
      exact ⟨Exchange.areLog_nil, rfl, rfl⟩
    | error fault =>
      rw [hr] at h₄
      obtain ⟨t₇, t₈, _, place₄, rfl, h₇, h₈⟩ := path_bind.mp h₄
      obtain ⟨rfl, rfl, rfl⟩ := Act.path_noteCourse.mp h₇
      obtain ⟨rfl, rfl, rfl⟩ := path_pure.mp h₈
      exact ⟨Exchange.areLog_log _, rfl, rfl⟩
  obtain ⟨hlog, rfl, rfl⟩ := hend
  refine ⟨hlog, ⟨_, hexecute⟩, rfl, ?_⟩
  rw [hplace]

theorem path_conduct {result : Except Fault Execution}
    (h : (conduct engine graph execution payload).Path place t result place') :
    ∃ inner outcome execution',
      Conducted engine graph execution payload place inner outcome t execution' ∧
        result = .ok execution' ∧ place' = place := by
  obtain ⟨t₁, t₂, _, place₁, rfl, h₁, h₂⟩ := path_bind.mp h
  obtain ⟨reply, told, inner, outcome, told', rfl, ht, ht', hp, rfl, rfl⟩ := path_runInside h₁
  obtain ⟨t₃, t₄, _, place₂, rfl, h₃, h₄⟩ := path_bind.mp h₂
  obtain ⟨now, rfl, rfl, rfl⟩ := path_ask.mp h₃
  obtain ⟨t₅, t₆, _, place₃, rfl, h₅, h₆⟩ := path_bind.mp h₄
  obtain ⟨⟨⟩, rfl, rfl, rfl⟩ := path_ask.mp h₅
  obtain ⟨t₇, t₈, _, place₄, rfl, h₇, h₈⟩ := path_bind.mp h₆
  obtain ⟨reply', told'', rfl, ht'', rfl, rfl⟩ := Act.path_emit h₇
  obtain ⟨t₉, t₁₀, _, place₅, rfl, h₉, h₁₀⟩ := path_bind.mp h₈
  obtain ⟨hlast, rfl, rfl⟩ := Act.path_note.mp h₉
  obtain ⟨rfl, rfl, rfl⟩ := path_pure.mp h₁₀
  refine ⟨inner, outcome, _, ?_, rfl, rfl⟩
  have ht₉ : Exchange.AreLog t₉ := hlast ▸ Exchange.areLog_log _
  have hmk := Conducted.mk reply reply' told told' _ now ht ht'
    (ht''.append ht₉) hp
  simp only [List.append_assoc, List.cons_append, List.append_nil, List.nil_append] at hmk ⊢
  exact hmk

/-- The exchanges of a trigger that is waited for, and what it gives. Those of the engine are as they
have to be inside one more run. -/
inductive Course (d : Dispatcher) (inside : Nat → List String → List Exchange → Prop) :
    Nat → String → Entries Value → String → Place → List Exchange → Except Fault Execution → Prop where
  | unknown {room flow payload startedBy place} (hf : d.flow flow = .error (.flowNotFound flow)) :
      Course d inside room flow payload startedBy place [] (.error (.flowNotFound flow))
  | unordered {room flow payload startedBy place graph fault} (hf : d.flow flow = .ok graph)
      (hr : d.refusal? place.chain flow = .error fault) :
      Course d inside room flow payload startedBy place [] (.error fault)
  | refused {room flow payload startedBy place graph reason t execution} (hf : d.flow flow = .ok graph)
      (hr : d.refusal? place.chain flow = .ok (some reason) ∨
        d.refusal? place.chain flow = .ok none ∧ room = 0 ∧ reason = d.depthText)
      (ht : Refused flow startedBy reason t execution) :
      Course d inside room flow payload startedBy place t (.ok execution)
  | conducted {room flow payload startedBy place graph t execution inner outcome t' execution'}
      (hf : d.flow flow = .ok graph) (hr : d.refusal? place.chain flow = .ok none)
      (hb : Begun flow startedBy t execution)
      (hi : inside room (place.chain ++ [graph.id]) inner)
      (hc : Conducted (d.engineWith (d.runWithin room)) graph execution payload place inner outcome t'
        execution') :
      Course d inside (room + 1) flow payload startedBy place (t ++ t') (.ok execution')

theorem flow_cases (d : Dispatcher) (flow : String) :
    (∃ graph, d.flow flow = .ok graph) ∨ d.flow flow = .error (.flowNotFound flow) := by
  unfold Dispatcher.flow
  cases Entries.get? d.flows flow with
  | none => exact Or.inr rfl
  | some graph => exact Or.inl ⟨graph, rfl⟩

/-- Whoever waits for a run is given its execution, except for a flow that is not known and a depth
that has no order to counts. -/
theorem path_runWithin {room : Nat} {result : Except Fault Execution}
    {inside : Nat → List String → List Exchange → Prop}
    (hi : ∀ (room' : Nat) (graph : FlowGraph) (id : String) (place : Place)
      (inner : List Exchange) outcome after, room = room' + 1 → d.flow flow = .ok graph →
      ((d.engineWith (d.runWithin room')).execute graph id payload).Path place inner outcome after →
        inside room' place.chain inner)
    (h : (d.runWithin room flow payload startedBy).Path place t result place') :
    d.Course inside room flow payload startedBy place t result ∧ place' = place := by
  unfold runWithin at h
  obtain ⟨t₁, t₂, _, place₁, rfl, h₁, h₂⟩ := path_bind.mp h
  obtain ⟨rfl, rfl, rfl⟩ := path_ofExcept.mp h₁
  obtain ⟨graph, hf⟩ | hf := d.flow_cases flow
  · rw [hf] at h₂
    obtain ⟨t₃, t₄, _, place₂, rfl, h₃, h₄⟩ := path_bind.mp h₂
    obtain ⟨rfl, rfl, rfl⟩ := path_state.mp h₃
    obtain ⟨t₅, t₆, _, place₃, rfl, h₅, h₆⟩ := path_bind.mp h₄
    obtain ⟨rfl, rfl, rfl⟩ := path_ofExcept.mp h₅
    cases hr : d.refusal? place₃.chain flow with
    | error fault =>
      rw [hr] at h₆
      obtain ⟨rfl, rfl, rfl⟩ := h₆
      exact ⟨.unordered hf hr, rfl⟩
    | ok refusal =>
      rw [hr] at h₆
      cases refusal with
      | some reason =>
        obtain ⟨execution, hrefused, rfl, rfl⟩ := path_refuse h₆
        exact ⟨.refused hf (Or.inl hr) hrefused, rfl⟩
      | none =>
        cases room with
        | zero =>
          obtain ⟨execution, hrefused, rfl, rfl⟩ := path_refuse h₆
          exact ⟨.refused hf (Or.inr ⟨hr, rfl, rfl⟩) hrefused, rfl⟩
        | succ room =>
          obtain ⟨t₇, t₈, _, place₄, rfl, h₇, h₈⟩ := path_bind.mp h₆
          obtain ⟨execution, hb, rfl, rfl⟩ := path_begin h₇
          obtain ⟨inner, outcome, execution', hc, rfl, rfl⟩ := path_conduct h₈
          refine ⟨?_, rfl⟩
          simp only [List.nil_append]
          refine .conducted hf hr hb ?_ hc
          obtain ⟨reply, reply', told, told', told'', now, ht, ht', ht'', after, hp⟩ := hc
          exact hi room graph _ _ inner outcome after rfl hf hp
  · rw [hf] at h₂
    obtain ⟨rfl, rfl, rfl⟩ := h₂
    exact ⟨.unknown hf, rfl⟩

theorem place_runWithin {room : Nat} {result : Except Fault Execution}
    (h : (d.runWithin room flow payload startedBy).Path place t result place') : place' = place := by
  have hcourse : d.Course (fun _ _ _ => True) room flow payload startedBy place t result ∧
      place' = place := path_runWithin (fun _ _ _ _ _ _ _ _ _ _ => trivial) h
  exact hcourse.2

inductive Started (d : Dispatcher) (flow : String) (payload : Entries Value) (startedBy : String)
    (place : Place) : List Exchange → Execution → Prop where
  | mk {graph : FlowGraph} {t : List Exchange} {execution : Execution} (record : Log.Record) (hf : d.flow flow = .ok graph)
      (hb : Begun flow startedBy t execution) :
      Started d flow payload startedBy place
        (t ++ [⟨.start ⟨graph, execution, payload, place.trace, place.chain⟩, ()⟩,
          ⟨.log record, ()⟩]) execution

theorem path_start {result : Except Fault Execution}
    (h : (d.start flow payload startedBy).Path place t result place') :
    place' = place ∧
      (t = [] ∧ result = .error (.flowNotFound flow) ∧ d.flow flow = .error (.flowNotFound flow) ∨
        ∃ execution, d.Started flow payload startedBy place t execution ∧ result = .ok execution) := by
  obtain ⟨t₁, t₂, _, place₁, rfl, h₁, h₂⟩ := path_bind.mp h
  obtain ⟨rfl, rfl, rfl⟩ := path_ofExcept.mp h₁
  obtain ⟨graph, hf⟩ | hf := d.flow_cases flow
  · rw [hf] at h₂
    obtain ⟨t₃, t₄, _, place₂, rfl, h₃, h₄⟩ := path_bind.mp h₂
    obtain ⟨execution, hb, rfl, rfl⟩ := path_begin h₃
    obtain ⟨t₅, t₆, _, place₃, rfl, h₅, h₆⟩ := path_bind.mp h₄
    obtain ⟨rfl, rfl, rfl⟩ := path_state.mp h₅
    obtain ⟨t₇, t₈, _, place₄, rfl, h₇, h₈⟩ := path_bind.mp h₆
    obtain ⟨⟨⟩, rfl, rfl, rfl⟩ := path_ask.mp h₇
    obtain ⟨t₉, t₁₀, _, place₅, rfl, h₉, h₁₀⟩ := path_bind.mp h₈
    obtain ⟨rfl, rfl, rfl⟩ := Act.path_note.mp h₉
    obtain ⟨rfl, rfl, rfl⟩ := path_pure.mp h₁₀
    exact ⟨rfl, Or.inr ⟨execution, .mk _ hf hb, rfl⟩⟩
  · rw [hf] at h₂
    obtain ⟨rfl, rfl, rfl⟩ := h₂
    exact ⟨rfl, Or.inl ⟨rfl, rfl, hf⟩⟩

/-- A child is started in the background only where the depth leaves room for it. -/
theorem path_startDetached {result : Except Fault Unit}
    (h : (d.startDetached flow payload startedBy).Path place t result place') :
    place' = place ∧ (Exchange.AreLog t ∨
      ∃ execution, d.Started flow payload startedBy place t execution ∧
        Limit.reached d.maxDepth place.chain.length = .ok false) := by
  obtain ⟨t₁, t₂, _, place₁, rfl, h₁, h₂⟩ := path_bind.mp h
  obtain ⟨rfl, rfl, rfl⟩ := path_state.mp h₁
  obtain ⟨t₃, t₄, _, place₂, rfl, h₃, h₄⟩ := path_bind.mp h₂
  obtain ⟨rfl, rfl, rfl⟩ := path_ofExcept.mp h₃
  cases hr : Limit.reached d.maxDepth place₂.chain.length with
  | error fault =>
    rw [hr] at h₄
    obtain ⟨rfl, rfl, rfl⟩ := h₄
    exact ⟨rfl, Or.inl Exchange.areLog_nil⟩
  | ok isReached =>
    rw [hr] at h₄
    cases isReached with
    | true =>
      obtain ⟨rfl, rfl, rfl⟩ := Act.path_note.mp h₄
      exact ⟨rfl, Or.inl (Exchange.areLog_log _)⟩
    | false =>
      obtain ⟨graph, hf⟩ | hf := d.flow_cases flow
      · simp only [Then, hf, Bool.false_eq_true, if_false] at h₄
        obtain ⟨t₅, t₆, _, place₃, rfl, h₅, h₆⟩ := path_bind.mp h₄
        obtain ⟨rfl, ⟨-, -, hf'⟩ | ⟨execution, hs, rfl⟩⟩ := path_start h₅
        · rw [hf] at hf'
          cases hf'
        · obtain ⟨rfl, rfl, rfl⟩ := path_pure.mp h₆
          rw [List.append_nil]
          exact ⟨rfl, Or.inr ⟨execution, hs, rfl⟩⟩
      · simp only [Then, hf, Bool.false_eq_true, if_false] at h₄
        obtain ⟨rfl, rfl, rfl⟩ := Act.path_note.mp h₄
        exact ⟨rfl, Or.inl (Exchange.areLog_log _)⟩

end Dispatcher

end FlowEngine
