import Mathlib.Data.List.NodupEquivFin
import FlowEngine.Proofs.Run.Passage

/-!
# Routing

A node is entered because an edge of an earlier visit led to it, nothing follows an end, and while a
walk goes on no edge is forgotten: its target waits in the queue or has been entered since. A walk
whose queue runs empty has therefore served all of its edges.

The engine asks whether a node may be entered when it is queued, not when it has its turn. No id
waits twice, so a node that waits has not been visited since it was queued, or was queued by a loop
that goes on. Hence a node that is no loop is entered again only where a loop led to it in between.
-/

namespace FlowEngine

namespace Walk

variable {graph : FlowGraph} {walk walk' : Walk}

def Caused (graph : FlowGraph) (visits : List Visit) (bound : Nat) (id : String) : Prop :=
  ∃ (i : Nat) (u : Visit), i < bound ∧ visits[i]? = some u ∧
    graph.Leads u.node.id u.outcome.status id

def EnteredAfter (visits : List Visit) (i : Nat) (id : String) : Prop :=
  ∃ (j : Nat) (v : Visit), i < j ∧ visits[j]? = some v ∧ v.node.id = id

theorem Caused.snoc {visits : List Visit} {bound : Nat} {id : String} (v : Visit)
    (h : Caused graph visits bound id) : Caused graph (visits ++ [v]) bound id := by
  obtain ⟨i, u, hi, hu, hl⟩ := h
  exact ⟨i, u, hi, List.getElem?_snoc.mpr (Or.inl hu), hl⟩

theorem Caused.weaken {visits : List Visit} {bound bound' : Nat} {id : String} (hb : bound ≤ bound')
    (h : Caused graph visits bound id) : Caused graph visits bound' id := by
  obtain ⟨i, u, hi, hu, hl⟩ := h
  exact ⟨i, u, Nat.lt_of_lt_of_le hi hb, hu, hl⟩

theorem EnteredAfter.snoc {visits : List Visit} {i : Nat} {id : String} (v : Visit)
    (h : EnteredAfter visits i id) : EnteredAfter (visits ++ [v]) i id := by
  obtain ⟨j, u, hj, hu, hid⟩ := h
  exact ⟨j, u, hj, List.getElem?_snoc.mpr (Or.inl hu), hid⟩

/-- What holds between the visits of a walk, its queue and its ending. -/
structure Routing (graph : FlowGraph) (walk : Walk) : Prop where
  /-- Only the first node of a run waits without a cause. -/
  waiting : ∀ k node, walk.queue[k]? = some node → 0 < walk.visits.length + k →
    Caused graph walk.visits walk.visits.length node.id
  caused : ∀ (j : Nat) (v : Visit), 0 < j → walk.visits[j]? = some v →
    Caused graph walk.visits j v.node.id
  stopped : ∀ (i : Nat) (v : Visit), walk.visits[i]? = some v → v.Stops →
    walk.ending ≠ none ∧ i + 1 = walk.visits.length
  /-- An edge of a visit is served, or its target waits. -/
  served : walk.ending = none → ∀ (i : Nat) (u : Visit) target, walk.visits[i]? = some u →
    graph.Leads u.node.id u.outcome.status target → graph.Has target →
    (∃ node ∈ walk.queue, node.id = target) ∨ EnteredAfter walk.visits i target

theorem routing_starting (start : Node) : Routing graph (starting start) := by
  constructor
  · intro k node hk hpos
    have h0 : 0 < k := by simpa [starting] using hpos
    obtain ⟨k, rfl⟩ := Nat.exists_eq_succ_of_ne_zero (Nat.ne_of_gt h0)
    simp [starting] at hk
  all_goals simp [starting]

section Turn

variable {node : Node} {outcome : Outcome} {queue : List Node} {visits : List Visit} {failed : Bool}

/-- A visit of the first node in the queue has a cause, since that node waited for one. -/
theorem Routing.caused_snoc (h : Routing graph ⟨node :: queue, visits, failed, none⟩) :
    ∀ (j : Nat) (v : Visit), 0 < j → (visits ++ [⟨node, outcome⟩])[j]? = some v →
      Caused graph (visits ++ [⟨node, outcome⟩]) j v.node.id := by
  intro j v hj hv
  rcases List.getElem?_snoc.mp hv with hv | ⟨rfl, rfl⟩
  · exact (h.caused j v hj hv).snoc _
  · exact (h.waiting 0 node rfl hj).snoc _

theorem Routing.waiting_snoc (h : Routing graph ⟨node :: queue, visits, failed, none⟩) :
    ∀ waiting ∈ queue,
      Caused graph (visits ++ [⟨node, outcome⟩]) (visits.length + 1) waiting.id := by
  intro waiting hw
  obtain ⟨k, hk⟩ := List.mem_iff_getElem?.mp hw
  have hc := h.waiting (k + 1) waiting hk (by omega)
  exact (hc.snoc _).weaken (Nat.le_succ _)

/-- While a walk goes on no visit of it has stopped it, so only the last one may. -/
theorem Routing.stopped_snoc (h : Routing graph ⟨node :: queue, visits, failed, none⟩) :
    ∀ (i : Nat) (v : Visit), (visits ++ [⟨node, outcome⟩])[i]? = some v → v.Stops →
      v = ⟨node, outcome⟩ ∧ i = visits.length := by
  intro i v hv hs
  rcases List.getElem?_snoc.mp hv with hv | ⟨rfl, rfl⟩
  · exact absurd rfl (h.stopped i v hv hs).1
  · exact ⟨rfl, rfl⟩

theorem Routing.ended (h : Routing graph ⟨node :: queue, visits, failed, none⟩) (failed' : Bool)
    (ending : Ending) :
    Routing graph ⟨queue, visits ++ [⟨node, outcome⟩], failed', some ending⟩ := by
  constructor
  · intro k waiting hk _
    simpa using h.waiting_snoc waiting (List.mem_of_getElem? hk)
  · exact h.caused_snoc
  · intro i v hv hs
    obtain ⟨-, rfl⟩ := h.stopped_snoc i v hv hs
    exact ⟨by simp, by simp⟩
  · simp

/-- A visit that goes on queues the targets of its own edges. An edge of an earlier visit was served
before, or its target is the node that was entered now, or it waits still. -/
theorem Routing.wentOn (h : Routing graph ⟨node :: queue, visits, failed, none⟩)
    (hs : ¬ Visit.Stops ⟨node, outcome⟩) {executed : List String} {queue' : List Node}
    (he : enqueue executed outcome.status queue
      (endsLast (graph.next node.id outcome.status)) = .ok queue') (failed' : Bool) :
    Routing graph ⟨queue', visits ++ [⟨node, outcome⟩], failed', none⟩ := by
  constructor
  · intro k waiting hk _
    rcases mem_of_mem_enqueue he waiting (List.mem_of_getElem? hk) with hq | hn
    · simpa using h.waiting_snoc waiting hq
    · have hl := (FlowGraph.mem_next.mp (mem_endsLast.mp hn)).1
      exact ⟨visits.length, ⟨node, outcome⟩, by simp, by simp, hl⟩
  · exact h.caused_snoc
  · intro i v hv hv'
    obtain ⟨rfl, -⟩ := h.stopped_snoc i v hv hv'
    exact absurd hv' hs
  · intro _ i u target hu hl ht
    rcases List.getElem?_snoc.mp hu with hu | ⟨rfl, rfl⟩
    · have hi : i < visits.length := (List.getElem?_eq_some_iff.mp hu).1
      rcases h.served rfl i u target hu hl ht with ⟨waiting, hw, hid⟩ | ha
      · rcases List.mem_cons.mp hw with rfl | hw
        · right
          exact ⟨visits.length, ⟨waiting, outcome⟩, hi, by simp, hid⟩
        · exact Or.inl ⟨waiting, (isPrefix_enqueue he).subset hw, hid⟩
      · exact Or.inr (ha.snoc _)
    · left
      obtain ⟨next, hn, hid⟩ := FlowGraph.exists_mem_next hl ht
      obtain ⟨waiting, hw, hwid⟩ := id_mem_enqueue he next (mem_endsLast.mpr hn)
      exact ⟨waiting, hw, hwid.trans hid⟩

end Turn

theorem routing_step (hs : Step graph walk walk') (h : Routing graph walk) :
    Routing graph walk' := by
  cases hs with
  | overflow node queue visits failed =>
    constructor
    · intro k waiting hk _
      exact h.waiting (k + 1) waiting hk (Nat.add_pos_right _ (Nat.succ_pos k))
    · exact h.caused
    · intro i v hv hs
      exact absurd rfl (h.stopped i v hv hs).1
    · simp
  | terminal node outcome queue visits failed ht => exact h.ended _ _
  | halt node outcome queue visits failed ht hh => exact h.ended _ _
  | cycle node outcome queue visits failed hs entered he => exact h.ended _ _
  | goOn node outcome queue visits failed hs queue' he => exact h.wentOn hs he _

theorem Reachable.routing (hr : Reachable graph walk) : Routing graph walk := by
  induction hr with
  | refl => exact routing_starting _
  | tail _ hs ih => exact routing_step hs ih

/-- Edges are the only causes, ends are final, and no edge is lost. -/
structure Routed (graph : FlowGraph) (walk : Walk) : Prop where
  caused : ∀ (j : Nat) (v : Visit), 0 < j → walk.visits[j]? = some v →
    ∃ (i : Nat) (u : Visit), i < j ∧ walk.visits[i]? = some u ∧
      graph.Leads u.node.id u.outcome.status v.node.id
  stopped : ∀ (i : Nat) (v : Visit), walk.visits[i]? = some v → v.Stops → i + 1 = walk.visits.length
  /-- A walk that nothing ended has served every edge that its visits activated. -/
  served : walk.ending = none → ∀ (i : Nat) (u : Visit) target, walk.visits[i]? = some u →
    graph.Leads u.node.id u.outcome.status target → graph.Has target →
    ∃ (j : Nat) (v : Visit), i < j ∧ walk.visits[j]? = some v ∧ v.node.id = target

theorem Routing.routed (h : Routing graph walk) (ho : walk.isOver = true) : Routed graph walk where
  caused := h.caused
  stopped i v hv hs := (h.stopped i v hv hs).2
  served he i u target hu hl ht := by
    have hq : walk.queue = [] := by simpa [isOver, he] using ho
    rcases h.served he i u target hu hl ht with ⟨node, hn, -⟩ | ha
    · rw [hq] at hn
      cases hn
    · exact ha

end Walk

namespace Engine

/-- Every run is routed by its graph, whatever its executors answer. The order in the context is
that of the visits where executors leave it alone. -/
theorem follow_routed (engine : Engine) (graph : FlowGraph) (executionId : String)
    (payload : Entries Value) (place : Place) :
    (engine.follow graph executionId payload).Yields place fun passage _ =>
      Walk.Routed graph passage.walk ∧
        (engine.Keeps Context.order →
          passage.context.order = passage.walk.executed) := by
  have hr : (engine.follow graph executionId payload).Yields place fun passage _ =>
      Walk.Routed graph passage.walk :=
    Doing.Yields.mono (fun passage _ hp => hp.1.routing.routed hp.2) follow_reachable
  exact hr.and follow_order

end Engine

namespace Walk

variable {graph : FlowGraph} {walk walk' : Walk}

/-- A visit between two places, the first one counted in, continues a loop and leads to an id. -/
def Licence (graph : FlowGraph) (visits : List Visit) (i j : Nat) (id : String) : Prop :=
  ∃ (k : Nat) (u : Visit), i ≤ k ∧ k < j ∧ visits[k]? = some u ∧ u.outcome.status = .continuing ∧
    graph.Leads u.node.id .continuing id

theorem Licence.snoc {visits : List Visit} {i j j' : Nat} {id : String} (v : Visit) (hj : j ≤ j')
    (h : Licence graph visits i j id) : Licence graph (visits ++ [v]) i j' id := by
  obtain ⟨k, u, hi, hk, hu, hs, hl⟩ := h
  exact ⟨k, u, hi, Nat.lt_of_lt_of_le hk hj, List.getElem?_snoc.mpr (Or.inl hu), hs, hl⟩

/-- Who waits has a licence for each visit it has had, and so had each visit after an earlier
one. -/
structure Guarded (graph : FlowGraph) (walk : Walk) : Prop where
  nodup : (walk.queue.map (·.id)).Nodup
  waiting : ∀ node ∈ walk.queue, ¬ graph.IsLoop node.id →
    ∀ (i : Nat) (u : Visit), walk.visits[i]? = some u → u.node.id = node.id →
    Licence graph walk.visits i walk.visits.length node.id
  licensed : ∀ (i j : Nat) (u v : Visit), i < j → walk.visits[i]? = some u →
    walk.visits[j]? = some v → u.node.id = v.node.id → ¬ graph.IsLoop v.node.id →
    Licence graph walk.visits i j v.node.id

theorem guarded_starting (start : Node) : Guarded graph (starting start) := by
  constructor <;> simp [starting]

section Turn

variable {node : Node} {outcome : Outcome} {queue : List Node} {visits : List Visit} {failed : Bool}

theorem Guarded.licensed_snoc (h : Guarded graph ⟨node :: queue, visits, failed, none⟩) :
    ∀ (i j : Nat) (u v : Visit), i < j → (visits ++ [⟨node, outcome⟩])[i]? = some u →
      (visits ++ [⟨node, outcome⟩])[j]? = some v → u.node.id = v.node.id →
      ¬ graph.IsLoop v.node.id →
      Licence graph (visits ++ [⟨node, outcome⟩]) i j v.node.id := by
  intro i j u v hij hu hv hid hl
  have hu' : visits[i]? = some u := by
    rcases List.getElem?_snoc.mp hu with hu | ⟨rfl, -⟩
    · exact hu
    · have hj := (List.getElem?_eq_some_iff.mp hv).1
      rw [List.length_append] at hj
      exact absurd hij (Nat.not_lt.mpr (Nat.le_of_lt_succ hj))
  rcases List.getElem?_snoc.mp hv with hv | ⟨rfl, rfl⟩
  · exact (h.licensed i j u v hij hu' hv hid hl).snoc _ (Nat.le_refl j)
  · exact (h.waiting node List.mem_cons_self hl i u hu' hid).snoc _ (Nat.le_refl _)

/-- The visited node does not wait a second time, so the others keep their licences. -/
theorem Guarded.waiting_snoc (h : Guarded graph ⟨node :: queue, visits, failed, none⟩) :
    ∀ waiting ∈ queue, ¬ graph.IsLoop waiting.id → ∀ (i : Nat) (u : Visit),
      (visits ++ [⟨node, outcome⟩])[i]? = some u → u.node.id = waiting.id →
      Licence graph (visits ++ [⟨node, outcome⟩]) i (visits.length + 1) waiting.id := by
  intro waiting hw hl i u hu hid
  rcases List.getElem?_snoc.mp hu with hu | ⟨-, rfl⟩
  · have hm := List.mem_cons_of_mem node hw
    exact (h.waiting waiting hm hl i u hu hid).snoc _ (Nat.le_succ _)
  · have hn := (List.nodup_cons.mp h.nodup).1
    exact absurd (List.mem_map.mpr ⟨waiting, hw, hid.symm⟩) hn

theorem Guarded.ended (h : Guarded graph ⟨node :: queue, visits, failed, none⟩) (failed' : Bool)
    (ending : Ending) :
    Guarded graph ⟨queue, visits ++ [⟨node, outcome⟩], failed', some ending⟩ := by
  constructor
  · exact (List.nodup_cons.mp h.nodup).2
  · intro waiting hw hl i u hu hid
    simpa using h.waiting_snoc waiting hw hl i u hu hid
  · exact h.licensed_snoc

/-- A node that is queued now and was visited before is let in by the visit that queues it. -/
theorem Guarded.wentOn (h : Guarded graph ⟨node :: queue, visits, failed, none⟩)
    {queue' : List Node}
    (he : enqueue ((visits ++ [(⟨node, outcome⟩ : Visit)]).map (·.node.id)) outcome.status queue
      (endsLast (graph.next node.id outcome.status)) = .ok queue') (failed' : Bool) :
    Guarded graph ⟨queue', visits ++ [⟨node, outcome⟩], failed', none⟩ := by
  constructor
  · exact enqueue_nodup he (List.nodup_cons.mp h.nodup).2
  · intro waiting hw hl i u hu hid
    rcases mem_of_mem_enqueue he waiting hw with hq | hn
    · simpa using h.waiting_snoc waiting hq hl i u hu hid
    · obtain ⟨hlead, htarget⟩ := FlowGraph.mem_next.mp (mem_endsLast.mp hn)
      rcases mayEnter_iff.mp (mayEnter_of_enqueue he waiting hn) with hnew | hc | hloop
      · exact absurd (List.mem_map.mpr ⟨u, List.mem_of_getElem? hu, hid⟩) hnew
      · have hi := (List.getElem?_eq_some_iff.mp hu).1
        rw [List.length_append] at hi
        exact ⟨visits.length, ⟨node, outcome⟩, Nat.le_of_lt_succ hi, by simp, by simp, hc,
          hc ▸ hlead⟩
      · exact absurd ⟨waiting, htarget, hloop⟩ hl
  · exact h.licensed_snoc

end Turn

theorem guarded_step (hs : Step graph walk walk') (h : Guarded graph walk) :
    Guarded graph walk' := by
  cases hs with
  | overflow node queue visits failed =>
    constructor
    · exact (List.nodup_cons.mp h.nodup).2
    · intro waiting hw
      exact h.waiting waiting (List.mem_cons_of_mem node hw)
    · exact h.licensed
  | terminal node outcome queue visits failed ht => exact h.ended _ _
  | halt node outcome queue visits failed ht hh => exact h.ended _ _
  | cycle node outcome queue visits failed hs entered he => exact h.ended _ _
  | goOn node outcome queue visits failed hs queue' he => exact h.wentOn he _

theorem Reachable.guarded (hr : Reachable graph walk) : Guarded graph walk := by
  induction hr with
  | refl => exact guarded_starting _
  | tail _ hs ih => exact guarded_step hs ih

theorem Guarded.count_le_one (h : Guarded graph walk)
    (hc : ∀ v ∈ walk.visits, v.outcome.status ≠ .continuing) {id : String}
    (hl : ¬ graph.IsLoop id) : walk.executed.count id ≤ 1 := by
  by_contra hn
  have hd := List.duplicate_iff_two_le_count.mpr (Nat.lt_of_not_le hn)
  obtain ⟨⟨i, hi⟩, ⟨j, hj⟩, hij, hid, hjd⟩ := List.duplicate_iff_exists_distinct_get.mp hd
  rw [executed, List.length_map] at hi hj
  simp only [executed, List.get_eq_getElem, List.getElem_map] at hid hjd
  obtain ⟨k, u, -, -, hu, hs, -⟩ := h.licensed i j walk.visits[i] walk.visits[j] hij
    (List.getElem?_eq_getElem hi) (List.getElem?_eq_getElem hj) (hid.symm.trans hjd) (hjd ▸ hl)
  exact hc u (List.mem_of_getElem? hu) hs

end Walk

namespace Engine

/-- In every run a node that is no loop is entered again only with a licence, and at most once where
no outcome continues a loop. The order in the context is that of the visits where executors leave it
alone. -/
theorem follow_licensed (engine : Engine) (graph : FlowGraph) (executionId : String)
    (payload : Entries Value) (place : Place) :
    (engine.follow graph executionId payload).Yields place fun passage _ =>
      (∀ (i j : Nat) (u v : Visit), i < j → passage.walk.visits[i]? = some u →
        passage.walk.visits[j]? = some v → u.node.id = v.node.id → ¬ graph.IsLoop v.node.id →
        Walk.Licence graph passage.walk.visits i j v.node.id) ∧
      ((∀ v ∈ passage.walk.visits, v.outcome.status ≠ .continuing) →
        ∀ id, ¬ graph.IsLoop id → passage.walk.executed.count id ≤ 1) ∧
      (engine.Keeps Context.order → passage.context.order = passage.walk.executed) := by
  have hg : (engine.follow graph executionId payload).Yields place fun passage _ =>
      Walk.Guarded graph passage.walk :=
    Doing.Yields.mono (fun passage _ hp => hp.1.guarded) follow_reachable
  refine Doing.Yields.mono ?_ (hg.and follow_order)
  rintro passage _ ⟨h, ho⟩
  exact ⟨h.licensed, fun hc id hl => h.count_le_one hc hl, ho⟩

end Engine

end FlowEngine
