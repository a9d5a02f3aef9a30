import FlowEngine.Proofs.Run.Routing
import FlowEngine.Proofs.Step.Plain

/-!
# The alarm about loops

A run ends with the alarm exactly when a visit leads back to a node that is no loop and was visited
before. That is no sign of a cycle in the graph: without cycles the alarm is raised where branches
of different length meet, and only there.
-/

namespace FlowEngine

namespace Turn

variable {graph : FlowGraph} {node : Node} {outcome : Outcome} {walk : Walk} {context : Context}

theorem queueNext_refused {next : List Node} {turn : Turn} {entered : Node}
    (he : Walk.enqueue turn.walk.executed outcome.status turn.walk.queue (endsLast next) =
      .error entered) :
    (queueNext node outcome next turn).context = turn.context.fail (cycleText node entered) := by
  unfold queueNext
  rw [he]

/-- The message is that of the alarm, also where the failure of the node was noted before. -/
theorem goOn_refused {entered : Node}
    (he : Walk.enqueue walk.executed outcome.status walk.queue
      (endsLast (graph.next node.id outcome.status)) = .error entered) :
    (goOn graph node outcome walk context).context.errorMessage =
      some (cycleText node entered) := by
  cases hf : outcome.status == .failure && (graph.next node.id outcome.status).isEmpty with
  | false =>
    simp only [goOn, hf]
    exact congrArg Context.errorMessage (queueNext_refused he)
  | true =>
    simp only [goOn, hf]
    exact congrArg Context.errorMessage (queueNext_refused he)

theorem message_of_cycle (hw : walk.ending = none)
    (h : (after graph node outcome walk context).walk.ending = some .cycle) :
    ∃ entered ∈ graph.next node.id outcome.status,
      (after graph node outcome walk context).context.errorMessage =
        some (cycleText node entered) := by
  unfold after at h ⊢
  split at h
  · unfold atEnd at h
    split at h <;> cases h
  · rename_i ht
    split at h
    · cases h
    · rename_i hh
      rw [goOn_walk] at h
      split at h
      · rw [hw] at h
        cases h
      · rename_i entered he
        rw [if_neg ht, if_neg hh]
        exact ⟨entered, mem_endsLast.mp (Walk.refused_of_enqueue he).1, goOn_refused he⟩

end Turn

namespace Walk

variable {graph : FlowGraph} {walk walk' : Walk}

/-- The visit at one place leads to the node that was visited at another, which is no loop. -/
def Returns (graph : FlowGraph) (visits : List Visit) (h i : Nat) : Prop :=
  ∃ u v : Visit, visits[h]? = some u ∧ visits[i]? = some v ∧ ¬ v.Stops ∧
    v.outcome.status ≠ .continuing ∧ graph.Leads v.node.id v.outcome.status u.node.id ∧
    graph.Has u.node.id ∧ ¬ graph.IsLoop u.node.id

/-- The alarm is raised by the first visit that returns. -/
structure Watched (graph : FlowGraph) (walk : Walk) : Prop where
  silent : walk.ending ≠ some .cycle → ∀ h i, h ≤ i → ¬ Returns graph walk.visits h i
  alarmed : walk.ending = some .cycle →
    walk.failed = true ∧ ∃ h i, h ≤ i ∧ Returns graph walk.visits h i

theorem watched_starting (start : Node) : Watched graph (starting start) := by
  constructor <;> simp [starting, Returns]

section Turn

variable {node : Node} {outcome : Outcome} {queue : List Node} {visits : List Visit} {failed : Bool}

theorem Watched.returns_snoc (hw : Watched graph ⟨node :: queue, visits, failed, none⟩) {h i : Nat}
    (hi : h ≤ i) (hr : Returns graph (visits ++ [⟨node, outcome⟩]) h i) :
    ¬ Visit.Stops ⟨node, outcome⟩ ∧ outcome.status ≠ .continuing ∧
      ∃ u ∈ visits ++ [(⟨node, outcome⟩ : Visit)],
        graph.Leads node.id outcome.status u.node.id ∧ graph.Has u.node.id ∧
          ¬ graph.IsLoop u.node.id := by
  obtain ⟨u, v, hu, hv, hs, hc, hl, ht, hn⟩ := hr
  rcases List.getElem?_snoc.mp hv with hv | ⟨rfl, rfl⟩
  · have hlt := (List.getElem?_eq_some_iff.mp hv).1
    rw [List.getElem?_append_left (Nat.lt_of_le_of_lt hi hlt)] at hu
    exact absurd ⟨u, v, hu, hv, hs, hc, hl, ht, hn⟩ (hw.silent (by simp) h i hi)
  · exact ⟨hs, hc, u, List.mem_of_getElem? hu, hl, ht, hn⟩

theorem returns_of_refused (hs : ¬ Visit.Stops ⟨node, outcome⟩) {entered : Node}
    (he : enqueue ((visits ++ [(⟨node, outcome⟩ : Visit)]).map (·.node.id)) outcome.status queue
      (endsLast (graph.next node.id outcome.status)) = .error entered) :
    ∃ h i, h ≤ i ∧ Returns graph (visits ++ [⟨node, outcome⟩]) h i := by
  obtain ⟨hm, hr⟩ := refused_of_enqueue he
  obtain ⟨hl, ht⟩ := FlowGraph.mem_next.mp (mem_endsLast.mp hm)
  simp only [mayEnter, Bool.or_eq_false_iff, Bool.not_eq_false', beq_eq_false_iff_ne,
    List.contains_iff_mem] at hr
  obtain ⟨⟨hx, hc⟩, hn⟩ := hr
  obtain ⟨u, hu, hid⟩ := List.mem_map.mp hx
  obtain ⟨h, hh⟩ := List.mem_iff_getElem?.mp hu
  have hlt := (List.getElem?_eq_some_iff.mp hh).1
  rw [List.length_append] at hlt
  refine ⟨h, visits.length, Nat.le_of_lt_succ hlt, u, ⟨node, outcome⟩, hh, by simp, hs, hc,
    hid ▸ hl, ?_, ?_⟩
  · exact FlowGraph.target?_isSome.mp (by rw [hid, ht]; rfl)
  · rintro ⟨target, htarget, hloop⟩
    rw [hid, ht] at htarget
    cases htarget
    exact hn hloop

theorem Watched.wentOn (hw : Watched graph ⟨node :: queue, visits, failed, none⟩)
    {queue' : List Node}
    (he : enqueue ((visits ++ [(⟨node, outcome⟩ : Visit)]).map (·.node.id)) outcome.status queue
      (endsLast (graph.next node.id outcome.status)) = .ok queue') (failed' : Bool) :
    Watched graph ⟨queue', visits ++ [⟨node, outcome⟩], failed', none⟩ := by
  refine ⟨fun _ h i hi hr => ?_, by simp⟩
  obtain ⟨-, hc, u, hu, hl, ht, hn⟩ := hw.returns_snoc hi hr
  obtain ⟨next, hm, hid⟩ := FlowGraph.exists_mem_next hl ht
  have htarget := (FlowGraph.mem_next.mp hm).2
  rcases mayEnter_iff.mp (mayEnter_of_enqueue he next (mem_endsLast.mpr hm)) with hx | hc' | hloop
  · exact hx (List.mem_map.mpr ⟨u, hu, hid.symm⟩)
  · exact hc hc'
  · exact hn ⟨next, hid ▸ htarget, hloop⟩

end Turn

theorem watched_step (hs : Step graph walk walk') (hw : Watched graph walk) :
    Watched graph walk' := by
  cases hs with
  | overflow node queue visits failed =>
    exact ⟨fun _ => hw.silent (by simp), by simp⟩
  | terminal node outcome queue visits failed ht =>
    refine ⟨fun _ h i hi hr => ?_, by simp⟩
    exact (hw.returns_snoc hi hr).1 (Or.inl ht)
  | halt node outcome queue visits failed ht hh =>
    refine ⟨fun _ h i hi hr => ?_, by simp⟩
    exact (hw.returns_snoc hi hr).1 (Or.inr hh)
  | cycle node outcome queue visits failed hs entered he =>
    exact ⟨by simp, fun _ => ⟨rfl, returns_of_refused hs he⟩⟩
  | goOn node outcome queue visits failed hs queue' he => exact hw.wentOn he _

theorem Reachable.watched (hr : Reachable graph walk) : Watched graph walk := by
  induction hr with
  | refl => exact watched_starting _
  | tail _ hs ih => exact watched_step hs ih

/-- In a graph without cycles a visit leads back to an earlier one only, never to itself. -/
theorem Returns.lt {visits : List Visit} {h i : Nat} (ha : graph.Acyclic) (hi : h ≤ i)
    (hr : Returns graph visits h i) : h < i := by
  obtain ⟨u, v, hu, hv, -, -, ⟨edge, he, hs, ht, -⟩, hx, -⟩ := hr
  refine Nat.lt_of_le_of_ne hi ?_
  rintro rfl
  have huv : u = v := Option.some.inj (hu.symm.trans hv)
  exact ha u.node.id (.single ⟨edge, he, huv ▸ hs, ht, hx, hx⟩)

/-- The queue of a walk in a levelled graph: no level comes back, and no node is more than one level
ahead. -/
structure Layered (level : String → Nat) (walk : Walk) : Prop where
  rising : walk.visits.Pairwise fun u v => level u.node.id ≤ level v.node.id
  passed : ∀ u ∈ walk.visits, ∀ node ∈ walk.queue, level u.node.id ≤ level node.id
  sorted : walk.queue.Pairwise fun a b => level a.id ≤ level b.id
  narrow : ∀ a ∈ walk.queue, ∀ b ∈ walk.queue, level b.id ≤ level a.id + 1

theorem layered_starting (level : String → Nat) (start : Node) :
    Layered level (starting start) := by
  constructor <;> simp [starting]

theorem Layered.snoc {level : String → Nat} {node : Node} {queue : List Node} {visits : List Visit}
    {failed : Bool} (h : Layered level ⟨node :: queue, visits, failed, none⟩) (outcome : Outcome)
    (failed' : Bool) (ending : Option Ending) :
    Layered level ⟨queue, visits ++ [⟨node, outcome⟩], failed', ending⟩ := by
  constructor
  · rw [List.pairwise_append]
    refine ⟨h.rising, List.pairwise_singleton _ _, ?_⟩
    intro u hu v hv
    rw [List.mem_singleton.mp hv]
    exact h.passed u hu node List.mem_cons_self
  · intro u hu waiting hw
    rcases List.mem_append.mp hu with hu | hu
    · exact h.passed u hu waiting (List.mem_cons_of_mem _ hw)
    · rw [List.mem_singleton.mp hu]
      exact (List.pairwise_cons.mp h.sorted).1 waiting hw
  · exact (List.pairwise_cons.mp h.sorted).2
  · intro a ha b hb
    exact h.narrow a (List.mem_cons_of_mem _ ha) b (List.mem_cons_of_mem _ hb)

/-- The nodes that a visit queues are one level ahead of it, and none that waits is further. -/
theorem Layered.enqueue {level : String → Nat} {node : Node} {outcome : Outcome}
    {queue queue' : List Node} {visits : List Visit} {failed : Bool} {executed : List String}
    (hv : graph.Levelled level) (h : Layered level ⟨node :: queue, visits, failed, none⟩)
    (he : Walk.enqueue executed outcome.status queue
      (endsLast (graph.next node.id outcome.status)) = .ok queue') (failed' : Bool) :
    Layered level ⟨queue', visits ++ [⟨node, outcome⟩], failed', none⟩ := by
  obtain ⟨added, rfl, ha⟩ := append_of_enqueue he
  have hs := h.snoc outcome failed' none
  have hlevel : ∀ a ∈ added, level a.id = level node.id + 1 := by
    intro a hm
    obtain ⟨hl, ht⟩ := FlowGraph.mem_next.mp (mem_endsLast.mp (ha a hm))
    exact hl.level hv (FlowGraph.target?_isSome.mp (by rw [ht]; rfl))
  have hlow : ∀ a ∈ queue ++ added, level node.id ≤ level a.id := by
    intro a hm
    rcases List.mem_append.mp hm with hm | hm
    · exact (List.pairwise_cons.mp h.sorted).1 a hm
    · rw [hlevel a hm]
      exact Nat.le_succ _
  have hhigh : ∀ a ∈ queue ++ added, level a.id ≤ level node.id + 1 := by
    intro a hm
    rcases List.mem_append.mp hm with hm | hm
    · exact h.narrow node List.mem_cons_self a (List.mem_cons_of_mem _ hm)
    · exact Nat.le_of_eq (hlevel a hm)
  constructor
  · exact hs.rising
  · intro u hu waiting hw
    rcases List.mem_append.mp hu with hu | hu
    · exact Nat.le_trans (h.passed u hu node List.mem_cons_self) (hlow waiting hw)
    · rw [List.mem_singleton.mp hu]
      exact hlow waiting hw
  · rw [List.pairwise_append]
    refine ⟨hs.sorted, ?_, ?_⟩
    · refine List.pairwise_of_forall_mem_list ?_
      intro a hm b hm'
      exact Nat.le_of_eq ((hlevel a hm).trans (hlevel b hm').symm)
    · intro a hm b hm'
      rw [hlevel b hm']
      exact hhigh a (List.mem_append_left _ hm)
  · intro a hm b hm'
    exact Nat.le_trans (hhigh b hm') (Nat.add_le_add_right (hlow a hm) 1)

theorem layered_step {level : String → Nat} (hv : graph.Levelled level) (hs : Step graph walk walk')
    (h : Layered level walk) : Layered level walk' := by
  cases hs with
  | overflow node queue visits failed =>
    constructor
    · exact h.rising
    · intro u hu waiting hw
      exact h.passed u hu waiting (List.mem_cons_of_mem _ hw)
    · exact (List.pairwise_cons.mp h.sorted).2
    · intro a ha b hb
      exact h.narrow a (List.mem_cons_of_mem _ ha) b (List.mem_cons_of_mem _ hb)
  | terminal node outcome queue visits failed ht => exact h.snoc outcome _ _
  | halt node outcome queue visits failed ht hh => exact h.snoc outcome _ _
  | cycle node outcome queue visits failed hs entered he => exact h.snoc outcome _ _
  | goOn node outcome queue visits failed hs queue' he => exact h.enqueue hv he _

theorem Reachable.layered {level : String → Nat} (hv : graph.Levelled level)
    (hr : Reachable graph walk) : Layered level walk := by
  induction hr with
  | refl => exact layered_starting level _
  | tail _ hs ih => exact layered_step hv hs ih

theorem Layered.not_returns {level : String → Nat} (hv : graph.Levelled level)
    (hl : Layered level walk) {h i : Nat} (hi : h ≤ i) : ¬ Returns graph walk.visits h i := by
  rintro ⟨u, v, hu, hw, -, -, hlead, ht, -⟩
  have hlevel := hlead.level hv ht
  have hrise : level u.node.id ≤ level v.node.id := by
    rcases Nat.eq_or_lt_of_le hi with rfl | hlt
    · exact Nat.le_of_eq (congrArg (level ·.node.id) (Option.some.inj (hu.symm.trans hw)))
    · obtain ⟨hh, rfl⟩ := List.getElem?_eq_some_iff.mp hu
      obtain ⟨hi', rfl⟩ := List.getElem?_eq_some_iff.mp hw
      exact List.pairwise_iff_getElem.mp hl.rising h i hh hi' hlt
  omega

end Walk

namespace Engine

variable {engine : Engine} {graph : FlowGraph} {executionId : String} {payload : Entries Value}
  {place : Place}

/-- A run that ends with the alarm says which node was reached again from which. -/
theorem follow_message :
    (engine.follow graph executionId payload).Yields place fun passage _ =>
      passage.walk.ending = some .cycle →
        ∃ v entered, passage.walk.visits.getLast? = some v ∧
          entered ∈ graph.next v.node.id v.outcome.status ∧
          passage.context.errorMessage = some (Turn.cycleText v.node entered) := by
  refine Doing.Yields.mono ?_ (yields_follow (fun walk context => walk.ending = some .cycle →
    ∃ v entered, walk.visits.getLast? = some v ∧ entered ∈ graph.next v.node.id v.outcome.status ∧
      context.errorMessage = some (Turn.cycleText v.node entered)) ?_ ?_ ?_)
  · rintro passage _ ⟨now, context, h, -, hc⟩ he
    rw [hc]
    exact h he
  · rintro now ⟨⟩
  · rintro node queue walk scene he - -
    refine yields_visit fun executor _ => Doing.ensures_of_forall ?_
    intro result scene' outcome _ turn hc
    obtain ⟨entered, hm, hmessage⟩ := Turn.message_of_cycle (by exact he) hc
    refine ⟨⟨node, outcome⟩, entered, ?_, hm, hmessage⟩
    have hv : turn.walk.visits = walk.visits ++ [⟨node, outcome⟩] :=
      Turn.after_visits graph node outcome _ _
    rw [hv]
    exact List.getLast?_concat
  · rintro node queue walk context text - - - ⟨⟩

/-- In a graph without cycles the alarm is raised exactly where a visit leads back to a node that is
no loop and was visited earlier. Then the run fails and the message names the two. Nothing of the
kind happens where all paths between two nodes are equally long. -/
theorem follow_alarm (engine : Engine) (graph : FlowGraph) (executionId : String)
    (payload : Entries Value) (place : Place) (ha : graph.Acyclic) :
    (engine.follow graph executionId payload).Yields place fun passage _ =>
      (passage.walk.ending = some .cycle ↔
        ∃ h i, h < i ∧ Walk.Returns graph passage.walk.visits h i) ∧
      (passage.walk.ending = some .cycle → passage.context.status = .failure ∧
        ∃ v entered, passage.walk.visits.getLast? = some v ∧
          entered ∈ graph.next v.node.id v.outcome.status ∧
          passage.context.errorMessage = some (Turn.cycleText v.node entered)) ∧
      (∀ level, graph.Levelled level → passage.walk.ending ≠ some .cycle) := by
  refine Doing.Yields.mono ?_ ((follow_reachable.and follow_status).and follow_message)
  rintro passage _ ⟨⟨⟨hr, -⟩, hstatus⟩, hmessage⟩
  have hw := hr.watched
  refine ⟨⟨?_, ?_⟩, ?_, ?_⟩
  · intro he
    obtain ⟨-, h, i, hi, hreturns⟩ := hw.alarmed he
    exact ⟨h, i, hreturns.lt ha hi, hreturns⟩
  · rintro ⟨h, i, hi, hreturns⟩
    by_contra hn
    exact hw.silent hn h i (Nat.le_of_lt hi) hreturns
  · intro he
    refine ⟨?_, hmessage he⟩
    rw [hstatus, (hw.alarmed he).1]
    rfl
  · intro level hv he
    obtain ⟨-, h, i, hi, hreturns⟩ := hw.alarmed he
    exact (hr.layered hv).not_returns hv hi hreturns

end Engine

namespace Late

def join : Node := .plainMapper "join" "1"

def long : Node := .plainMapper "long" "2"

/-- From the start node one branch leads to a node at once, and one through another node. -/
def flow : FlowGraph :=
  .plain [.plainStart, join, long]
    [("start", "join", .always), ("start", "long", .always), ("long", "join", .always)]

theorem acyclic : flow.Acyclic :=
  FlowGraph.acyclic_of_rank (fun id => if id = "start" then 0 else if id = "long" then 1 else 2)
    (by decide)

section Queue

variable {status : Status} (hs : status = .success)

include hs

theorem enqueue_start :
    Walk.enqueue ["start"] status [] (endsLast (flow.next "start" status)) = .ok [join, long] := by
  subst hs
  decide

theorem enqueue_join :
    Walk.enqueue ["start", "join"] status [long] (endsLast (flow.next "join" status)) =
      .ok [long] := by
  subst hs
  decide

theorem enqueue_long :
    Walk.enqueue ["start", "join", "long"] status [] (endsLast (flow.next "long" status)) =
      .error join := by
  subst hs
  decide

theorem ne_failure : status ≠ .failure := by
  subst hs
  decide

end Queue

/-- The short branch runs the node where the two meet, and the long one comes back to it. -/
theorem gives_cycle :
    (Engine.plain.follow flow "run" []).Gives .outside fun passage _ =>
      passage.walk.ending = some .cycle := by
  have hservesJoin : Engine.plain.Serves join := Engine.plain_serves_mapper (by decide)
  have hservesLong : Engine.plain.Serves long := Engine.plain_serves_mapper (by decide)
  refine Engine.gives_follow rfl rfl fun now trace => ?_
  refine Engine.gives_walkOn (Engine.plain_serves_start.gives_visit ?_)
  intro first context place hs hh _
  have hstart : Node.plainStart.type.isTerminal = false := rfl
  have hw := (Turn.after_queued flow [] context hstart hh (ne_failure hs) (enqueue_start hs)).1
  simp only [hw, List.nil_append]
  refine Engine.gives_walkOn (hservesJoin.gives_visit ?_)
  intro second context place hs hh _
  have hjoin : join.type.isTerminal = false := rfl
  have hw := (Turn.after_queued flow [⟨.plainStart, first⟩] context hjoin hh (ne_failure hs)
    (enqueue_join hs)).1
  simp only [hw, List.singleton_append]
  refine Engine.gives_walkOn (hservesLong.gives_visit ?_)
  intro third context place hs hh _
  have hlong : long.type.isTerminal = false := rfl
  have hw := (Turn.after_refused flow [⟨.plainStart, first⟩, ⟨join, second⟩] context hlong hh
    (ne_failure hs) (enqueue_long hs)).1
  simp only [hw]
  exact Engine.gives_walkOn_over rfl fun _ => rfl

/-- The visit that raises the alarm leads back to an earlier one. -/
theorem late_returns :
    (Engine.plain.follow flow "run" []).Gives .outside fun passage _ =>
      passage.context.status = .failure ∧
        ∃ h i, h < i ∧ Walk.Returns flow passage.walk.visits h i := by
  have ha := Engine.follow_alarm Engine.plain flow "run" [] .outside acyclic
  refine Doing.Gives.mono ?_ (gives_cycle.and_yields ha)
  rintro passage _ ⟨hc, hiff, hfails, -⟩
  exact ⟨(hfails hc).1, hiff.mp hc⟩

/-- The alarm is raised without any cycle in the graph. -/
theorem alarm_without_cycle :
    ¬ ∀ (engine : Engine) (graph : FlowGraph) (executionId : String) (payload : Entries Value)
      (place : Place), (graph.nodes.map (·.id)).Nodup → graph.Acyclic →
      (engine.follow graph executionId payload).Yields place fun passage _ =>
        ¬ (passage.walk.ending = some .cycle ∧ ∃ node entered,
          passage.context.errorMessage = some (Turn.cycleText node entered)) := by
  intro hall
  have hn := hall Engine.plain flow "run" [] .outside (by decide) acyclic
  obtain ⟨passage, _, ⟨hc, hmessage⟩, hne⟩ :=
    ((gives_cycle.and_yields Engine.follow_message).and_yields hn).exists
  obtain ⟨v, entered, -, -, htext⟩ := hmessage hc
  exact hne ⟨hc, v.node, entered, htext⟩

end Late

end FlowEngine
