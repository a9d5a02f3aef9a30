import FlowEngine.Proofs.Run.Alarm
import FlowEngine.Proofs.Run.Ceiling

/-!
# The verdict on a run

A run fails for one of five reasons, and each of them can be read off its visits: the ceiling was hit,
a visit led back to a node that may not be entered again, an outcome halted the run, an end node
failed, or a failure led nowhere. The flag that the walk carries is nothing but this.
-/

namespace FlowEngine

/-- No edge that a visit activates leads to a node that exists. -/
def FlowGraph.LeadsNowhere (graph : FlowGraph) (visit : Visit) : Prop :=
  ∀ target, graph.Leads visit.node.id visit.outcome.status target → ¬ graph.Has target

theorem FlowGraph.leadsNowhere_iff {graph : FlowGraph} {visit : Visit} :
    graph.LeadsNowhere visit ↔ graph.next visit.node.id visit.outcome.status = [] := by
  constructor
  · intro h
    refine List.eq_nil_iff_forall_not_mem.mpr fun next hn => ?_
    obtain ⟨hl, ht⟩ := mem_next.mp hn
    exact h next.id hl (target?_isSome.mp (by rw [ht]; rfl))
  · intro h target hl ht
    obtain ⟨next, hn, -⟩ := exists_mem_next hl ht
    rw [h] at hn
    cases hn

/-- A visit that fails the run whatever the other visits are. An end node ends the run by itself, so
that its outcome has no run to halt. -/
inductive Visit.Fatal (graph : FlowGraph) (visit : Visit) : Prop where
  | halted (hn : visit.node.type.isTerminal = false) (hh : visit.outcome.halts = true)
  | ended (ht : visit.node.type.isTerminal = true) (hf : visit.outcome.status = .failure)
  | unrouted (hn : visit.node.type.isTerminal = false) (hf : visit.outcome.status = .failure)
      (hl : graph.LeadsNowhere visit)

namespace Walk

variable {graph : FlowGraph} {walk walk' : Walk}

/-- A walk has failed exactly if it was cut short, raised the alarm, or made a fatal visit. -/
def Judged (graph : FlowGraph) (walk : Walk) : Prop :=
  walk.failed = true ↔ walk.ending = some .overflow ∨ walk.ending = some .cycle ∨
    ∃ v ∈ walk.visits, v.Fatal graph

theorem judged_starting (start : Node) : Judged graph (starting start) := by
  simp [Judged, starting]

theorem Judged.snoc {queue queue' : List Node} {visits : List Visit} {failed failed' : Bool}
    {ending : Option Ending} {v : Visit} (h : Judged graph ⟨queue, visits, failed, none⟩)
    (ho : ending ≠ some .overflow) (hc : ending ≠ some .cycle)
    (hf : failed' = true ↔ v.Fatal graph ∨ failed = true) :
    Judged graph ⟨queue', visits ++ [v], failed', ending⟩ := by
  have hold : failed = true ↔ ∃ v ∈ visits, v.Fatal graph := by simpa [Judged] using h
  unfold Judged
  simp only [ho, hc, false_or, List.mem_append, List.mem_singleton, or_and_right, exists_or,
    exists_eq_left]
  rw [hf, hold, or_comm]

theorem judged_step (hs : Step graph walk walk') (h : Judged graph walk) : Judged graph walk' := by
  -- Where the step visits a node, it sets the flag exactly if that visit is fatal.
  cases hs with
  | overflow node queue visits failed => simp [Judged]
  | terminal node outcome queue visits failed ht =>
    refine h.snoc (by simp) (by simp) ?_
    rw [Bool.or_eq_true, beq_iff_eq]
    refine or_congr_left ⟨fun hf => .ended ht hf, ?_⟩
    rintro (⟨hn, -⟩ | ⟨-, hf⟩ | ⟨hn, -⟩)
    · rw [ht] at hn
      cases hn
    · exact hf
    · rw [ht] at hn
      cases hn
  | halt node outcome queue visits failed ht hh =>
    exact h.snoc (by simp) (by simp) ⟨fun _ => Or.inl (.halted ht hh), fun _ => rfl⟩
  | cycle node outcome queue visits failed hs entered he => simp [Judged]
  | goOn node outcome queue visits failed hs queue' he =>
    refine h.snoc (by simp) (by simp) ?_
    simp only [Bool.or_eq_true, Bool.and_eq_true, beq_iff_eq, List.isEmpty_iff]
    refine or_congr_left ⟨?_, ?_⟩
    · rintro ⟨hf, hn⟩
      refine .unrouted ?_ hf (FlowGraph.leadsNowhere_iff.mpr hn)
      exact Bool.eq_false_iff.mpr fun ht => hs (Or.inl ht)
    · rintro (⟨-, hh⟩ | ⟨ht, -⟩ | ⟨-, hf, hl⟩)
      · exact absurd (Or.inr hh) hs
      · exact absurd (Or.inl ht) hs
      · exact ⟨hf, FlowGraph.leadsNowhere_iff.mp hl⟩

theorem Reachable.judged (hr : Reachable graph walk) : Judged graph walk := by
  induction hr with
  | refl => exact judged_starting _
  | tail _ hs ih => exact judged_step hs ih

inductive Fails (limit : Value) (graph : FlowGraph) (walk : Walk) : Prop where
  /-- A node waits, but the visits made come up to the limit. -/
  | ceiling (node) (hw : Awaits graph walk.visits node)
      (hl : Limit.reached limit walk.visits.length = .ok true)
  /-- A visit leads back to a node that may not be entered again. -/
  | reentry (h i) (hi : h ≤ i) (hr : Returns graph walk.visits h i)
  | fatal (v) (hv : v ∈ walk.visits) (hf : v.Fatal graph)

theorem Reachable.fails_iff {limit : Value} (hr : Reachable graph walk) (ho : walk.isOver = true)
    (hl : walk.ending = some .overflow → Limit.reached limit walk.visits.length = .ok true) :
    walk.failed = true ↔ Fails limit graph walk := by
  have hw := hr.watched
  refine hr.judged.trans ⟨?_, ?_⟩
  · rintro (he | he | ⟨v, hv, hf⟩)
    · obtain ⟨-, node, hn⟩ := hr.cut he
      exact .ceiling node hn (hl he)
    · obtain ⟨-, h, i, hi, hreturns⟩ := hw.alarmed he
      exact .reentry h i hi hreturns
    · exact .fatal v hv hf
  · rintro (⟨node, hn, -⟩ | ⟨h, i, hi, hreturns⟩ | ⟨v, hv, hf⟩)
    · exact Or.inl ((hr.overflow_iff ho).mpr ⟨node, hn⟩)
    · refine Or.inr (Or.inl ?_)
      by_contra hne
      exact hw.silent hne h i hi hreturns
    · exact Or.inr (Or.inr ⟨v, hv, hf⟩)

end Walk

namespace Engine

open Doing

variable {engine : Engine} {graph : FlowGraph} {executionId : String} {payload : Entries Value}
  {place : Place}

theorem follow_reached :
    (engine.follow graph executionId payload).Yields place fun passage _ =>
      passage.walk.ending = some .overflow →
        Limit.reached (engine.limit graph) passage.walk.visits.length = .ok true := by
  cases hl : Limit.least ">=" (engine.limit graph) with
  | error fault => exact yields_follow_unordered hl
  | ok most =>
    refine Yields.mono ?_ (follow_counted hl)
    rintro passage _ ⟨-, hover⟩ he
    rw [Limit.reached, hl, (hover he).1]
    simp [Except.map]

/-- A run that ends is closed. It has failed exactly for one of the five reasons, else it is a
success. It has a message exactly if it has failed, where executors come with the engine or leave the
message alone. -/
theorem follow_verdict (engine : Engine) (graph : FlowGraph) (executionId : String)
    (payload : Entries Value) (place : Place) (hd : engine.Discreet) :
    (engine.follow graph executionId payload).Yields place fun passage _ =>
      passage.context.completedAt.isSome = true ∧
      (passage.context.status = .failure ↔
        Walk.Fails (engine.limit graph) graph passage.walk) ∧
      (¬ Walk.Fails (engine.limit graph) graph passage.walk →
        passage.context.status = .success) ∧
      (passage.context.errorMessage.isSome = true ↔ passage.context.status = .failure) := by
  refine Yields.mono ?_ (((follow_reachable.and follow_reached).and follow_closed).and
    hd.follow_explained)
  rintro passage _ ⟨⟨⟨⟨hr, ho⟩, hreached⟩, now, context, hc⟩, hx⟩
  have hfails := hr.fails_iff ho hreached
  have hstatus : passage.context.status = if passage.walk.failed then .failure else .success := by
    rw [hc]
    rfl
  have hfailure : passage.context.status = .failure ↔ passage.walk.failed = true := by
    rw [hstatus]
    cases passage.walk.failed <;> simp
  refine ⟨by rw [hc]; rfl, hfailure.trans hfails, ?_, ?_⟩
  · intro hn
    rw [hstatus, if_neg (mt hfails.mp hn)]
  · rw [hx.isSome, hfailure]

theorem plain_discreet : plain.Discreet := fun entry he => Or.inl (plain_standard entry he)

end Engine

/-- The run that comes back to the node where its branches meet fails with a message. -/
theorem Late.late_fails :
    (Engine.plain.follow flow "run" []).Gives .outside fun passage _ =>
      passage.context.completedAt.isSome = true ∧ passage.context.status = .failure ∧
        passage.context.errorMessage.isSome = true := by
  have hv := Engine.follow_verdict Engine.plain flow "run" [] .outside Engine.plain_discreet
  refine Doing.Gives.mono ?_ ((gives_cycle.and_yields Engine.follow_reachable).and_yields hv)
  rintro passage _ ⟨⟨hc, hr, -⟩, hcompleted, hfailure, -, hmessage⟩
  obtain ⟨-, h, i, hi, hreturns⟩ := hr.watched.alarmed hc
  have hs := hfailure.mpr (.reentry h i hi hreturns)
  exact ⟨hcompleted, hs, hmessage.mpr hs⟩

end FlowEngine
