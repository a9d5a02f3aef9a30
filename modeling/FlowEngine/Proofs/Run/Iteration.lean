import FlowEngine.Proofs.Run.Tour
import FlowEngine.Proofs.Step.Plain

/-!
# What a loop iterates

A loop that counts to a number runs its body that often when the body is a single node. With a
longer body only the first pass comes back to the loop; the second one ends the run with the alarm,
since the nodes after the first one have been visited before.
-/

namespace FlowEngine

namespace Circuit

variable {graph : FlowGraph} {circuit : Circuit} {id : String} {node : Node}

theorem count_laps (hs : id ≠ circuit.start.id) (hl : circuit.lap.count id = 1) (p : Nat) :
    (circuit.laps p).count id = p := by
  rw [laps, List.count_cons_of_ne (Ne.symm hs), List.count_flatten, List.map_replicate,
    List.sum_replicate_nat, hl, Nat.mul_one]

theorem count_path_body (hr : graph.IsCircuit circuit) (hb : node ∈ circuit.body) (p : Nat) :
    (circuit.laps p ++ [circuit.loop.id, circuit.done.id]).count node.id = p := by
  obtain ⟨-, -, -, -, -, -, hnd⟩ := hr.ids
  have hlap : circuit.lap.count node.id = 1 := by
    rw [lap, List.count_cons_of_ne (hr.loop_ne hb)]
    exact List.count_eq_one_of_mem hnd (List.mem_map_of_mem hb)
  rw [List.count_append, count_laps (Ne.symm (hr.start_ne hb)) hlap,
    List.count_cons_of_ne (hr.loop_ne hb), List.count_cons_of_ne (hr.done_ne hb), List.count_nil,
    Nat.add_zero]

theorem count_path_loop (hr : graph.IsCircuit circuit) (p : Nat) :
    (circuit.laps p ++ [circuit.loop.id, circuit.done.id]).count circuit.loop.id = p + 1 := by
  obtain ⟨hsl, -, hld, -, hlb, -⟩ := hr.ids
  have hlap : circuit.lap.count circuit.loop.id = 1 := by
    rw [lap, List.count_cons_self, List.count_eq_zero_of_not_mem hlb]
  rw [List.count_append, count_laps (Ne.symm hsl) hlap, List.count_cons_self,
    List.count_cons_of_ne (Ne.symm hld), List.count_nil]

theorem length_outputs (circuit : Circuit) (visits : List Visit) :
    (circuit.outputs visits).length = (visits.map (·.node.id)).count circuit.last.id := by
  rw [outputs, List.length_map, List.count, List.countP_map, List.countP_eq_length_filter]
  rfl

end Circuit

/-- A run has iterated the body of a loop a number of times: each node of the body ran so often, the
loop once more, and it tells what the last node of the body produced each time. -/
structure Passage.Iterates (passage : Passage) (circuit : Circuit) (k : Nat) : Prop where
  status : passage.context.status = .success
  body : ∀ node ∈ circuit.body, passage.context.order.count node.id = k
  loop : passage.context.order.count circuit.loop.id = k + 1
  outputs : (circuit.outputs passage.walk.visits).length = k
  summary : ∃ outcome, passage.context.nodes.get? circuit.loop.id = some outcome ∧
    outcome.successOutput = some [("index", .int k),
      ("accumulated", .list (circuit.outputs passage.walk.visits)),
      ("iterationCount", .int (k + 1))]

/-- A run has failed on the second pass through the body of a loop, when the first node led to the
second one. -/
structure Passage.Stalls (passage : Passage) (circuit : Circuit) (second : Node) : Prop where
  status : passage.context.status = .failure
  order : passage.context.order = circuit.laps 1 ++ [circuit.loop.id, circuit.first.id]
  message : passage.context.errorMessage = some (Turn.cycleText circuit.first second)

namespace Engine

variable {engine : Engine} {graph : FlowGraph} {circuit : Circuit} {k ceiling : Nat} {most : Int}
  {executionId : String} {payload : Entries Value} {place : Place}

section Circuit

variable (hr : graph.IsCircuit circuit) (ht : engine.Tours circuit k most)
  (hl : Limit.least ">=" (engine.limit graph) = .ok ceiling)
  (hc : (circuit.body.length + 1) * k + 3 ≤ ceiling)

include hr ht hl hc

theorem gives_iterates (hfresh : circuit.body.length = 1 ∨ k ≤ 1) :
    (engine.follow graph executionId payload).Gives place fun passage _ =>
      passage.Iterates circuit k := by
  have hrest : circuit.rest = [] ∨ k ≤ 1 := hfresh.imp_left fun h => by simpa [Circuit.body] using h
  obtain ⟨left, hceiling⟩ := Nat.exists_eq_add_of_le hc
  have hsteps : ceiling = left + k * (circuit.rest.length + 2) + 2 + 1 := by
    have hbody : circuit.body.length + 1 = circuit.rest.length + 2 := rfl
    rw [hceiling, hbody, Nat.mul_comm k]
    omega
  obtain ⟨name, hname⟩ := ht.exists_startName hr
  refine gives_follow hname hl fun now trace => ?_
  rw [hsteps]
  refine Tour.gives_start hr ht fun visits scene hat => ?_
  refine Doing.Gives.mono ?_ (Tour.gives_iterated hr ht hrest (Nat.zero_add k) hat)
  intro walk scene hi now
  have horder : scene.context.order = circuit.laps k ++ [circuit.loop.id, circuit.done.id] :=
    hi.order.trans hi.path
  constructor
  · simp [closed, hi.failed]
  · intro node hb
    exact (congrArg (List.count node.id) horder).trans (Circuit.count_path_body hr hb k)
  · exact (congrArg (List.count circuit.loop.id) horder).trans (Circuit.count_path_loop hr k)
  · rw [Circuit.length_outputs]
    exact (congrArg (List.count circuit.last.id) hi.path).trans
      (Circuit.count_path_body hr circuit.last_mem k)
  · exact ⟨_, hi.summary, rfl⟩

theorem gives_stalls {second : Node} {rest : List Node} (hrest : circuit.rest = second :: rest)
    (hk : 2 ≤ k) :
    (engine.follow graph executionId payload).Gives place fun passage _ =>
      passage.Stalls circuit second := by
  have hsteps : ∃ left, ceiling = left + circuit.rest.length + 4 + 1 := by
    have hmul : (circuit.body.length + 1) * 2 ≤ (circuit.body.length + 1) * k :=
      Nat.mul_le_mul_left _ hk
    rw [Circuit.body, List.length_cons] at hc hmul
    exact ⟨ceiling - circuit.rest.length - 5, by omega⟩
  obtain ⟨left, hsteps⟩ := hsteps
  obtain ⟨name, hname⟩ := ht.exists_startName hr
  refine gives_follow hname hl fun now trace => ?_
  rw [hsteps]
  refine Tour.gives_start hr ht fun visits scene hat => ?_
  refine Doing.Gives.mono ?_ (Tour.gives_stalled hr ht hrest hk hat)
  intro walk scene hs now
  constructor
  · simp [closed, hs.failed]
  · exact hs.order.trans hs.path
  · exact hs.message

end Circuit

/-- A loop that counts to a number, within its bound and with room for all steps, iterates its body
that often exactly when the body is a single node or there is no second pass. Otherwise the run
fails on the second pass. -/
theorem follow_circuit (engine : Engine) (graph : FlowGraph) (circuit : Circuit) (k ceiling : Nat)
    (most : Int) (executionId : String) (payload : Entries Value) (place : Place)
    (hr : graph.IsCircuit circuit) (ht : engine.Tours circuit k most)
    (hl : Limit.least ">=" (engine.limit graph) = .ok ceiling)
    (hc : (circuit.body.length + 1) * k + 3 ≤ ceiling) :
    (engine.follow graph executionId payload).Gives place fun passage _ =>
      (passage.Iterates circuit k ↔ circuit.body.length = 1 ∨ k ≤ 1) ∧
      (∀ second rest, circuit.body = circuit.first :: second :: rest → 2 ≤ k →
        passage.Stalls circuit second) := by
  by_cases hfresh : circuit.body.length = 1 ∨ k ≤ 1
  · refine Doing.Gives.mono ?_ (gives_iterates hr ht hl hc hfresh)
    intro passage _ hi
    refine ⟨⟨fun _ => hfresh, fun _ => hi⟩, ?_⟩
    intro second rest hb hk
    rw [hb, List.length_cons, List.length_cons] at hfresh
    omega
  · obtain ⟨second, rest, hrest⟩ : ∃ second rest, circuit.rest = second :: rest := by
      cases hrest : circuit.rest with
      | nil => exact absurd (Or.inl (by simp [Circuit.body, hrest])) hfresh
      | cons second rest => exact ⟨second, rest, rfl⟩
    have hk : 2 ≤ k := by omega
    refine Doing.Gives.mono ?_ (gives_stalls hr ht hl hc hrest hk)
    intro passage _ hs
    refine ⟨⟨fun hi => ?_, fun h => absurd h hfresh⟩, ?_⟩
    · have := hi.status.symm.trans hs.status
      cases this
    · intro second' rest' hb _
      rw [Circuit.body, hrest] at hb
      cases hb
      exact hs

end Engine

namespace Counting

def loop : Node := ⟨"loop", .loop, "", [("condition", .text "loop.index < 2")], []⟩

def circuit (rest : List Node) : Circuit :=
  ⟨.plainStart, loop, .plainMapper "b1" "1", rest, .plainEnd⟩

def second : Node := .plainMapper "b2" "2"

def flow (circuit : Circuit) : FlowGraph := .plain circuit.nodes circuit.ways

theorem isCircuit_one : (flow (circuit [])).IsCircuit (circuit []) where
  nodes := .refl _
  ways := .refl _
  distinct := by decide
  start := rfl
  loop := rfl
  done := rfl
  body := by decide

theorem isCircuit_two : (flow (circuit [second])).IsCircuit (circuit [second]) where
  nodes := .refl _
  ways := .refl _
  distinct := by decide
  start := rfl
  loop := rfl
  done := rfl
  body := by decide

theorem tours {rest : List Node} (h : ∀ node ∈ rest, Engine.plain.Serves node) :
    Engine.plain.Tours (circuit rest) 2 100 where
  start := Engine.plain_serves_start
  done := Engine.plain_serves_end
  body := by
    intro node hn
    rcases List.mem_cons.mp hn with rfl | hn
    · exact Engine.plain_serves_mapper (by decide)
    · exact h node hn
  loop := rfl
  policy := ⟨.default, rfl⟩
  saveName := ⟨none, rfl⟩
  condition := show loop.setting "condition" = .text (Step.Loop.countsTo 2) by decide
  bound := show Step.Loop.bound (loop.setting "maxIterations") = .ok 100 by decide
  below := by decide

/-- With one mapper the loop runs it twice. -/
theorem one_iterates :
    (Engine.plain.follow (flow (circuit [])) "run" []).Gives .outside fun passage _ =>
      passage.Iterates (circuit []) 2 := by
  refine Doing.Gives.mono ?_ (Engine.follow_circuit Engine.plain (flow (circuit [])) (circuit []) 2
    5000 100 "run" [] .outside isCircuit_one (tours fun _ hn => absurd hn List.not_mem_nil) rfl
    (by decide))
  exact fun passage _ h => h.1.mpr (Or.inl rfl)

/-- Not every body is iterated: with two mappers in the body the run fails on the second pass. -/
theorem two_not_iterated :
    ¬ ∀ (engine : Engine) (graph : FlowGraph) (circuit : Circuit) (k ceiling : Nat) (most : Int)
      (executionId : String) (payload : Entries Value) (place : Place), graph.IsCircuit circuit →
      engine.Tours circuit k most → Limit.least ">=" (engine.limit graph) = .ok ceiling →
      (circuit.body.length + 1) * k + 3 ≤ ceiling →
      (engine.follow graph executionId payload).Gives place fun passage _ =>
        passage.Iterates circuit k := by
  intro hall
  have ht : Engine.plain.Tours (circuit [second]) 2 100 := tours fun node hn => by
    rw [List.mem_singleton.mp hn]
    exact Engine.plain_serves_mapper (by decide)
  have hi := hall Engine.plain (flow (circuit [second])) (circuit [second]) 2 5000 100 "run" []
    .outside isCircuit_two ht rfl (by decide)
  have hs : (Engine.plain.follow (flow (circuit [second])) "run" []).Gives .outside fun passage _ =>
      passage.Stalls (circuit [second]) second :=
    Engine.gives_stalls isCircuit_two ht rfl (by decide : (2 + 1) * 2 + 3 ≤ 5000) rfl
      (Nat.le_refl 2)
  obtain ⟨passage, _, hpi, hps⟩ := (hi.and_yields hs.yields).exists
  have := hpi.status.symm.trans hps.status
  cases this

end Counting

end FlowEngine
