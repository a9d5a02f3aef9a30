import FlowEngine.Proofs.Run.Routing
import FlowEngine.Proofs.Step.Plain

/-!
# Steps before ends

A visit queues the ends it leads to behind its other targets, but only behind these: an end that an
earlier visit led to waits in front of them already. So whether a node is run before an end is settled
by the first visit that leads to either of the two.
-/

namespace FlowEngine

namespace Walk

variable {graph : FlowGraph} {walk walk' : Walk}

/-- Some visit leads to one id, and none before it to the other. -/
def LeadsFirst (graph : FlowGraph) (visits : List Visit) (id other : String) : Prop :=
  ∃ (h : Nat) (u : Visit), visits[h]? = some u ∧ graph.Leads u.node.id u.outcome.status id ∧
    ∀ (k : Nat) (w : Visit), k < h → visits[k]? = some w →
      ¬ graph.Leads w.node.id w.outcome.status other

section LeadsFirst

variable {visits : List Visit} {id other : String}

theorem leadsFirst_append {w : Visit} (hw : w ∈ visits)
    (hl : graph.Leads w.node.id w.outcome.status other) (more : List Visit) :
    LeadsFirst graph (visits ++ more) id other ↔ LeadsFirst graph visits id other := by
  obtain ⟨i, hi⟩ := List.mem_iff_getElem?.mp hw
  have hbound := (List.getElem?_eq_some_iff.mp hi).1
  have hfront (k : Nat) (hk : k < visits.length) : (visits ++ more)[k]? = visits[k]? :=
    List.getElem?_append_left hk
  constructor
  · rintro ⟨h, u, hu, hlead, hnone⟩
    have hh : h ≤ i := by
      by_contra hlt
      exact hnone i w (Nat.lt_of_not_le hlt) ((hfront i hbound).trans hi) hl
    refine ⟨h, u, (hfront h (by omega)).symm.trans hu, hlead, fun k x hk hx => ?_⟩
    exact hnone k x hk ((hfront k (by omega)).trans hx)
  · rintro ⟨h, u, hu, hlead, hnone⟩
    have hh := (List.getElem?_eq_some_iff.mp hu).1
    refine ⟨h, u, (hfront h hh).trans hu, hlead, fun k x hk hx => ?_⟩
    exact hnone k x hk ((hfront k (by omega)).symm.trans hx)

theorem leadsFirst_snoc (hn : ∀ w ∈ visits, ¬ graph.Leads w.node.id w.outcome.status other)
    (v : Visit) :
    LeadsFirst graph (visits ++ [v]) id other ↔
      LeadsFirst graph visits id other ∨ graph.Leads v.node.id v.outcome.status id := by
  constructor
  · rintro ⟨h, u, hu, hlead, hnone⟩
    rcases List.getElem?_snoc.mp hu with hu | ⟨-, rfl⟩
    · exact Or.inl ⟨h, u, hu, hlead, fun k w hk hw =>
        hnone k w hk (List.getElem?_snoc.mpr (Or.inl hw))⟩
    · exact Or.inr hlead
  · rintro (⟨h, u, hu, hlead, -⟩ | hlead)
    · have hh := (List.getElem?_eq_some_iff.mp hu).1
      refine ⟨h, u, List.getElem?_snoc.mpr (Or.inl hu), hlead, fun k w hk hw => ?_⟩
      rw [List.getElem?_append_left (Nat.lt_trans hk hh)] at hw
      exact hn w (List.mem_of_getElem? hw)
    · refine ⟨visits.length, v, by simp, hlead, fun k w hk hw => ?_⟩
      rw [List.getElem?_append_left hk] at hw
      exact hn w (List.mem_of_getElem? hw)

end LeadsFirst

/-- The ids that wait in front of another one. -/
def ahead (other : String) (queue : List Node) : List String :=
  (queue.map (·.id)).takeWhile (· ≠ other)

section Ahead

variable {other : String} {queue added : List Node} {node : Node}

theorem ahead_self (hn : node.id = other) : ahead other (node :: queue) = [] := by
  simp [ahead, hn]

theorem ahead_cons (hn : node.id ≠ other) :
    ahead other (node :: queue) = node.id :: ahead other queue := by
  simp [ahead, hn]

theorem ahead_append_of_mem (hm : other ∈ queue.map (·.id)) :
    ahead other (queue ++ added) = ahead other queue := by
  induction queue with
  | nil => cases hm
  | cons node queue ih =>
    by_cases hn : node.id = other
    · simp [ahead, hn]
    · rw [List.cons_append, ahead_cons hn, ahead_cons hn,
        ih ((List.mem_cons.mp hm).resolve_left (Ne.symm hn))]

theorem ahead_append_of_not_mem (hm : other ∉ queue.map (·.id)) (added : List Node) :
    ahead other (queue ++ added) = queue.map (·.id) ++ ahead other added := by
  rw [ahead, List.map_append, List.takeWhile_append_of_pos]
  · rfl
  · intro id hid
    simpa using ne_of_mem_of_not_mem hid hm

theorem ahead_eq_of_not_mem (hm : other ∉ queue.map (·.id)) :
    ahead other queue = queue.map (·.id) := by
  simpa [ahead] using ahead_append_of_not_mem hm []

end Ahead

/-- After the first visit the nodes that wait are those which their ids lead to. -/
structure Sourced (graph : FlowGraph) (walk : Walk) : Prop where
  opening : walk.visits = [] → walk.queue.length ≤ 1
  waiting : walk.visits ≠ [] → ∀ node ∈ walk.queue, graph.target? node.id = some node
  visited : ∀ (j : Nat) (v : Visit), 0 < j → walk.visits[j]? = some v →
    graph.target? v.node.id = some v.node

section Sourced

variable {node : Node} {outcome : Outcome} {queue : List Node} {visits : List Visit} {failed : Bool}

theorem Sourced.waiting_tail (h : Sourced graph ⟨node :: queue, visits, failed, none⟩) :
    ∀ waiting ∈ queue, graph.target? waiting.id = some waiting := by
  intro waiting hw
  by_cases hv : visits = []
  · have hlen := h.opening hv
    have hnil : queue = [] := List.eq_nil_of_length_eq_zero (by simpa using hlen)
    rw [hnil] at hw
    cases hw
  · exact h.waiting hv waiting (List.mem_cons_of_mem node hw)

theorem Sourced.visited_snoc (h : Sourced graph ⟨node :: queue, visits, failed, none⟩) :
    ∀ (j : Nat) (v : Visit), 0 < j → (visits ++ [⟨node, outcome⟩])[j]? = some v →
      graph.target? v.node.id = some v.node := by
  intro j v hj hv
  rcases List.getElem?_snoc.mp hv with hv | ⟨rfl, rfl⟩
  · exact h.visited j v hj hv
  · exact h.waiting (List.ne_nil_of_length_pos hj) node List.mem_cons_self

theorem Sourced.ended (h : Sourced graph ⟨node :: queue, visits, failed, none⟩) (failed' : Bool)
    (ending : Ending) :
    Sourced graph ⟨queue, visits ++ [⟨node, outcome⟩], failed', some ending⟩ where
  opening hv := by simp at hv
  waiting _ := h.waiting_tail
  visited := h.visited_snoc

end Sourced

theorem sourced_step (hs : Step graph walk walk') (h : Sourced graph walk) :
    Sourced graph walk' := by
  cases hs with
  | overflow node queue visits failed =>
    exact ⟨fun hv => by have hlen := h.opening hv; simp at hlen; simp [hlen],
      fun _ => h.waiting_tail, h.visited⟩
  | terminal node outcome queue visits failed ht => exact h.ended _ _
  | halt node outcome queue visits failed ht hh => exact h.ended _ _
  | cycle node outcome queue visits failed hs entered he => exact h.ended _ _
  | goOn node outcome queue visits failed hs queue' he =>
    refine ⟨fun hv => by simp at hv, fun _ waiting hw => ?_, h.visited_snoc⟩
    rcases mem_of_mem_enqueue he waiting hw with hq | hn
    · exact h.waiting_tail waiting hq
    · have htarget := (FlowGraph.mem_next.mp (mem_endsLast.mp hn)).2
      exact htarget

theorem Reachable.sourced (hr : Reachable graph walk) : Sourced graph walk := by
  induction hr with
  | refl => constructor <;> simp [starting]
  | tail _ hs ih => exact sourced_step hs ih

/-- Who is in front of whom in the queue, and was so when a visit was made. -/
structure Lined (graph : FlowGraph) (id other : String) (walk : Walk) : Prop where
  /-- Of two ids of which the first one was not visited, that one is in front which was led to
  first. -/
  waiting : walk.ending = none → walk.visits ≠ [] → id ∉ walk.executed →
    (id ∈ ahead other walk.queue ↔ LeadsFirst graph walk.visits id other)
  visited : ∀ (j : Nat) (v : Visit), 0 < j → walk.visits[j]? = some v →
    id ∉ (walk.visits.take j).map (·.node.id) →
    (v.node.id = other → ¬ LeadsFirst graph (walk.visits.take j) id other) ∧
    (v.node.id = id → LeadsFirst graph (walk.visits.take j) id other)

structure StepAndEnd (graph : FlowGraph) (step stop : Node) : Prop where
  target_step : graph.target? step.id = some step
  target_stop : graph.target? stop.id = some stop
  goes : step.type.isTerminal = false
  ends : stop.type.isTerminal = true

section Lined

variable {step stop node : Node} {outcome : Outcome} {queue : List Node} {visits : List Visit}
  {failed : Bool} (hp : StepAndEnd graph step stop)

include hp

theorem StepAndEnd.id_ne : step.id ≠ stop.id := by
  intro hid
  have hsame := hp.target_step
  rw [hid, hp.target_stop] at hsame
  cases hsame
  exact absurd hp.ends (by simp [hp.goes])

theorem StepAndEnd.stops {v : Visit} (hv : graph.target? v.node.id = some v.node)
    (hid : v.node.id = stop.id) : v.Stops := by
  rw [hid, hp.target_stop] at hv
  exact Or.inl (Option.some.inj hv ▸ hp.ends)

/-- Of what one visit queues a step is in front of an end. -/
theorem StepAndEnd.mem_ahead {nodes added : List Node} (hs : added.Sublist (endsLast nodes))
    (ha : ∀ node ∈ added, graph.target? node.id = some node) :
    step.id ∈ ahead stop.id added ↔ step.id ∈ added.map (·.id) := by
  refine ⟨fun hm => (List.takeWhile_sublist _).subset hm, fun hm => ?_⟩
  obtain ⟨node, hn, hid⟩ := List.mem_map.mp hm
  obtain rfl : step = node := by
    have htarget := ha node hn
    rw [hid, hp.target_step] at htarget
    exact Option.some.inj htarget
  obtain ⟨front, back, rfl⟩ := List.append_of_mem hn
  have hfront : stop.id ∉ front.map (·.id) := by
    intro hm
    obtain ⟨x, hx, hxid⟩ := List.mem_map.mp hm
    have htarget := ha x (List.mem_append_left _ hx)
    rw [hxid, hp.target_stop] at htarget
    cases htarget
    have hpairs := (List.pairwise_append.mp ((endsLast_pairwise nodes).sublist hs)).2.2
    have hends := hpairs stop hx step List.mem_cons_self hp.ends
    exact absurd hends (by simp [hp.goes])
  rw [ahead_append_of_not_mem hfront, ahead_cons hp.id_ne]
  exact List.mem_append_right _ List.mem_cons_self

/-- The end waits behind the first node exactly if a visit led to it. -/
theorem StepAndEnd.waits_iff (hr : Reachable graph ⟨node :: queue, visits, failed, none⟩)
    (hs : ¬ Visit.Stops ⟨node, outcome⟩) :
    stop.id ∈ queue.map (·.id) ↔
      ∃ w ∈ visits, graph.Leads w.node.id w.outcome.status stop.id := by
  constructor
  · intro hm
    obtain ⟨waiting, hw, hid⟩ := List.mem_map.mp hm
    obtain ⟨k, hk⟩ := List.mem_iff_getElem?.mp hw
    obtain ⟨i, w, -, hw, hl⟩ :=
      hr.routing.waiting (k + 1) waiting hk (Nat.add_pos_right _ k.succ_pos)
    exact ⟨w, List.mem_of_getElem? hw, hid ▸ hl⟩
  · rintro ⟨w, hw, hl⟩
    obtain ⟨i, hi⟩ := List.mem_iff_getElem?.mp hw
    have hhas : graph.Has stop.id := FlowGraph.target?_isSome.mp (by simp [hp.target_stop])
    rcases hr.routing.served rfl i w stop.id hi hl hhas with ⟨waiting, hm, hid⟩ | ⟨j, v, hij, hv, hid⟩
    · rcases List.mem_cons.mp hm with rfl | hm
      · have htarget := hr.sourced.waiting (List.ne_nil_of_mem hw) waiting List.mem_cons_self
        exact absurd (hp.stops (v := ⟨waiting, outcome⟩) htarget hid) hs
      · exact List.mem_map.mpr ⟨waiting, hm, hid⟩
    · have htarget := hr.sourced.visited j v (Nat.zero_lt_of_lt hij) hv
      exact absurd rfl (hr.routing.stopped j v hv (hp.stops htarget hid)).1

theorem Lined.visited_snoc (hl : Lined graph step.id stop.id ⟨node :: queue, visits, failed, none⟩) :
    ∀ (j : Nat) (v : Visit), 0 < j → (visits ++ [⟨node, outcome⟩])[j]? = some v →
      step.id ∉ ((visits ++ [(⟨node, outcome⟩ : Visit)]).take j).map (·.node.id) →
      (v.node.id = stop.id →
        ¬ LeadsFirst graph ((visits ++ [(⟨node, outcome⟩ : Visit)]).take j) step.id stop.id) ∧
      (v.node.id = step.id →
        LeadsFirst graph ((visits ++ [(⟨node, outcome⟩ : Visit)]).take j) step.id stop.id) := by
  intro j v hj hv hx
  rcases List.getElem?_snoc.mp hv with hv | ⟨rfl, rfl⟩
  · have hbound := (List.getElem?_eq_some_iff.mp hv).1
    rw [List.take_append_of_le_length (Nat.le_of_lt hbound)] at hx ⊢
    exact hl.visited j v hj hv hx
  · rw [List.take_left' rfl] at hx ⊢
    have hw := hl.waiting rfl (List.ne_nil_of_length_pos hj) hx
    constructor
    · intro hid
      rw [← hw, ahead_self hid]
      exact List.not_mem_nil
    · intro hid
      have hne : node.id ≠ stop.id := fun h => hp.id_ne (hid.symm.trans h)
      rw [← hw, ahead_cons hne]
      exact List.mem_cons.mpr (Or.inl hid.symm)

theorem Lined.tail (hr : Reachable graph ⟨node :: queue, visits, failed, none⟩)
    (hl : Lined graph step.id stop.id ⟨node :: queue, visits, failed, none⟩)
    (hs : ¬ Visit.Stops ⟨node, outcome⟩) (hx : step.id ∉ visits.map (·.node.id))
    (hn : node.id ≠ step.id) :
    step.id ∈ ahead stop.id queue ↔ LeadsFirst graph visits step.id stop.id := by
  by_cases hv : visits = []
  · have hlen := hr.sourced.opening hv
    have hnil : queue = [] := List.eq_nil_of_length_eq_zero (by simpa using hlen)
    subst hv hnil
    simp [ahead, LeadsFirst]
  · have htarget := hr.sourced.waiting hv node List.mem_cons_self
    have hne : node.id ≠ stop.id := fun hid =>
      hs (hp.stops (v := ⟨node, outcome⟩) htarget hid)
    rw [← hl.waiting rfl hv hx, ahead_cons hne, List.mem_cons]
    exact (or_iff_right (Ne.symm hn)).symm

/-- What a visit queues comes behind an end that waits already. Without one, each that waits is in
front of it, and of the new ones the step is. -/
theorem Lined.wentOn (hr : Reachable graph ⟨node :: queue, visits, failed, none⟩)
    (hl : Lined graph step.id stop.id ⟨node :: queue, visits, failed, none⟩)
    (hs : ¬ Visit.Stops ⟨node, outcome⟩) {executed : List String} {queue' : List Node}
    (he : enqueue executed outcome.status queue
      (endsLast (graph.next node.id outcome.status)) = .ok queue') (failed' : Bool) :
    Lined graph step.id stop.id ⟨queue', visits ++ [⟨node, outcome⟩], failed', none⟩ := by
  refine ⟨fun _ _ hx => ?_, hl.visited_snoc hp⟩
  obtain ⟨hx, hn⟩ : step.id ∉ visits.map (·.node.id) ∧ node.id ≠ step.id := by
    simpa [Walk.executed, eq_comm] using hx
  have hold := hl.tail hp hr hs hx hn
  have hwaits := hp.waits_iff hr hs
  obtain ⟨added, rfl, hadded⟩ := sublist_of_enqueue he
  by_cases hm : stop.id ∈ queue.map (·.id)
  · obtain ⟨w, hw, hlead⟩ := hwaits.mp hm
    rw [ahead_append_of_mem hm, leadsFirst_append hw hlead, hold]
  · have hnone : ∀ w ∈ visits, ¬ graph.Leads w.node.id w.outcome.status stop.id :=
      fun w hw hlead => hm (hwaits.mpr ⟨w, hw, hlead⟩)
    have hsource : ∀ waiting ∈ added, graph.target? waiting.id = some waiting := fun waiting hw =>
      (FlowGraph.mem_next.mp (mem_endsLast.mp (hadded.subset hw))).2
    have hback : step.id ∈ ahead stop.id added ↔ step.id ∈ added.map (·.id) :=
      hp.mem_ahead hadded hsource
    rw [leadsFirst_snoc hnone, ahead_append_of_not_mem hm, List.mem_append, hback, ← hold,
      ahead_eq_of_not_mem hm]
    constructor
    · refine Or.imp_right fun hnew => ?_
      obtain ⟨next, hn, hid⟩ := List.mem_map.mp hnew
      exact hid ▸ (FlowGraph.mem_next.mp (mem_endsLast.mp (hadded.subset hn))).1
    · rintro (hwaits | hlead)
      · exact Or.inl hwaits
      · have hhas : graph.Has step.id := FlowGraph.target?_isSome.mp (by simp [hp.target_step])
        obtain ⟨next, hnext, hid⟩ := FlowGraph.exists_mem_next hlead hhas
        obtain ⟨waiting, hw, hwid⟩ := id_mem_enqueue he next (mem_endsLast.mpr hnext)
        have hm : step.id ∈ (queue ++ added).map (·.id) :=
          List.mem_map.mpr ⟨waiting, hw, hwid.trans hid⟩
        rwa [List.map_append, List.mem_append] at hm

theorem Lined.ended (hl : Lined graph step.id stop.id ⟨node :: queue, visits, failed, none⟩)
    (failed' : Bool) (ending : Ending) :
    Lined graph step.id stop.id ⟨queue, visits ++ [⟨node, outcome⟩], failed', some ending⟩ :=
  ⟨by simp, hl.visited_snoc hp⟩

theorem Reachable.lined (hr : Reachable graph walk) : Lined graph step.id stop.id walk := by
  induction hr with
  | refl => constructor <;> simp [starting]
  | tail hr hs ih =>
    cases hs with
    | overflow node queue visits failed => exact ⟨by simp, ih.visited⟩
    | terminal node outcome queue visits failed ht => exact ih.ended hp _ _
    | halt node outcome queue visits failed ht hh => exact ih.ended hp _ _
    | cycle node outcome queue visits failed hs entered he => exact ih.ended hp _ _
    | goOn node outcome queue visits failed hs queue' he => exact ih.wentOn hp hr hs he _

end Lined

theorem mem_take_executed {id : String} {n : Nat} :
    id ∈ walk.executed.take n ↔
      ∃ k < n, ∃ u, walk.visits[k]? = some u ∧ u.node.id = id := by
  rw [List.mem_iff_getElem?]
  simp only [executed, List.getElem?_take, List.getElem?_map]
  constructor
  · rintro ⟨k, hk⟩
    split at hk
    · rename_i hlt
      obtain ⟨u, hu, hid⟩ := Option.map_eq_some_iff.mp hk
      exact ⟨k, hlt, u, hu, hid⟩
    · cases hk
  · rintro ⟨k, hlt, u, hu, rfl⟩
    exact ⟨k, by simp [hlt, hu]⟩

theorem leadsFirst_take {id other : String} {i k : Nat} {v : Visit} (hik : i < k)
    (hv : walk.visits[i]? = some v) (hl : graph.Leads v.node.id v.outcome.status other) :
    LeadsFirst graph (walk.visits.take k) id other ↔
      LeadsFirst graph (walk.visits.take (i + 1)) id other := by
  have hmem : v ∈ walk.visits.take (i + 1) :=
    List.mem_of_getElem? (i := i) (by simpa [List.getElem?_take] using hv)
  have hsplit := List.take_append_drop (i + 1) (walk.visits.take k)
  rw [List.take_take, Nat.min_eq_left hik] at hsplit
  rw [← hsplit, leadsFirst_append hmem hl]

/-- Where a visit leads to an end and to a step that was not visited, and the end is visited, the
step was visited before exactly if a visit led to it before any led to the end. -/
theorem Lined.iff {id other : String} (hl : Lined graph id other walk) {i j : Nat} {v e : Visit}
    (hij : i < j) (hv : walk.visits[i]? = some v) (he : walk.visits[j]? = some e)
    (hid : e.node.id = other) (hlead : graph.Leads v.node.id v.outcome.status other)
    (hx : id ∉ walk.executed.take (i + 1)) :
    id ∈ walk.executed.take j ↔ LeadsFirst graph (walk.visits.take (i + 1)) id other := by
  constructor
  · rw [mem_take_executed]
    rintro ⟨k, -, u, hu, hk⟩
    -- The first visit of the step is the one that tells.
    induction k using Nat.strongRecOn generalizing u with
    | ind k ih =>
      by_cases hearlier : id ∈ walk.executed.take k
      · obtain ⟨k', hlt, u', hu', hk'⟩ := mem_take_executed.mp hearlier
        exact ih k' hlt u' hu' hk'
      · have hik : i < k := by
          by_contra hle
          exact hx (mem_take_executed.mpr ⟨k, by omega, u, hu, hk⟩)
        rw [executed, ← List.map_take] at hearlier
        exact (leadsFirst_take hik hv hlead).mp
          ((hl.visited k u (Nat.zero_lt_of_lt hik) hu hearlier).2 hk)
  · intro hfirst
    by_contra hn
    rw [executed, ← List.map_take] at hn
    exact (hl.visited j e (Nat.zero_lt_of_lt hij) he hn).1 hid
      ((leadsFirst_take hij hv hlead).mpr hfirst)

end Walk

namespace Engine

/-- Where a visit leads to an end and to a step that was not visited, and the end is visited, the step
was visited before exactly if a visit led to it before any led to the end. This is so where no earlier
visit led to the end. The order in the context is that of the visits where executors leave it
alone. -/
theorem follow_precedence (engine : Engine) (graph : FlowGraph) (executionId : String)
    (payload : Entries Value) (place : Place) :
    (engine.follow graph executionId payload).Yields place fun passage _ =>
      (∀ (i j : Nat) (v e : Visit) (step stop : Node), i < j →
        passage.walk.visits[i]? = some v → passage.walk.visits[j]? = some e →
        step ∈ graph.next v.node.id v.outcome.status →
        stop ∈ graph.next v.node.id v.outcome.status →
        step.type.isTerminal = false → stop.type.isTerminal = true → e.node.id = stop.id →
        step.id ∉ passage.walk.executed.take (i + 1) →
        (step.id ∈ passage.walk.executed.take j ↔
          Walk.LeadsFirst graph (passage.walk.visits.take (i + 1)) step.id stop.id) ∧
        ((∀ w ∈ passage.walk.visits.take i, ¬ graph.Leads w.node.id w.outcome.status stop.id) →
          step.id ∈ passage.walk.executed.take j)) ∧
      (engine.Keeps Context.order → passage.context.order = passage.walk.executed) := by
  refine Doing.Yields.mono ?_ (follow_reachable.and follow_order)
  rintro passage _ ⟨⟨hr, -⟩, ho⟩
  refine ⟨fun i j v e step stop hij hv he hstep hstop hgoes hends hid hx => ?_, ho⟩
  obtain ⟨hleadStep, htargetStep⟩ := FlowGraph.mem_next.mp hstep
  obtain ⟨hleadStop, htargetStop⟩ := FlowGraph.mem_next.mp hstop
  have hiff := (hr.lined ⟨htargetStep, htargetStop, hgoes, hends⟩).iff hij hv he hid hleadStop hx
  refine ⟨hiff, fun hnone => hiff.mpr ⟨i, v, ?_, hleadStep, fun k w hk hw => ?_⟩⟩
  · simpa [List.getElem?_take] using hv
  · refine hnone w (List.mem_of_getElem? (i := k) ?_)
    simpa [List.getElem?_take, hk, Nat.lt_succ_of_lt hk] using hw

end Engine

namespace Shared

def a : Node := .plainMapper "a" "1"

def b : Node := .plainMapper "b" "2"

def u : Node := .plainMapper "u" "3"

/-- A start node, three steps and an end, with an edge for each pair of ids. -/
def flow (pairs : List (String × String)) : FlowGraph :=
  .plain [.plainStart, a, b, u, .plainEnd] (pairs.map fun (source, target) =>
    (source, target, .always))

def direct : FlowGraph := flow [("start", "done"), ("start", "u")]

/-- Two branches that share an end, the second one with a step beside it. -/
def shared : FlowGraph :=
  flow [("start", "a"), ("start", "b"), ("a", "done"), ("b", "u"), ("b", "done")]

theorem serves_step {id value : String} (h : '\x7b' ∉ value.toList) :
    Engine.plain.Serves (.plainMapper id value) := Engine.plain_serves_mapper h

theorem gives_direct :
    (Engine.plain.follow direct "run" []).Gives .outside fun passage _ =>
      ∃ first second third : Outcome, first.status = .success ∧
        passage.walk.visits = [⟨.plainStart, first⟩, ⟨u, second⟩, ⟨.plainEnd, third⟩] := by
  have hstart : Walk.enqueue ["start"] .success [] (endsLast (direct.next "start" .success)) =
      .ok [u, .plainEnd] := by decide
  have hu : Walk.enqueue ["start", "u"] .success [.plainEnd]
      (endsLast (direct.next "u" .success)) = .ok [.plainEnd] := by decide
  refine Engine.gives_follow rfl rfl fun now trace => ?_
  refine Engine.plain_serves_start.gives_queued rfl hstart fun first scene hfirst => ?_
  refine (serves_step (by decide)).gives_queued rfl hu fun second scene _ => ?_
  exact Engine.plain_serves_end.gives_end rfl fun third scene _ now =>
    ⟨first, second, third, hfirst, rfl⟩

theorem gives_shared :
    (Engine.plain.follow shared "run" []).Gives .outside fun passage _ =>
      ∃ first second third fourth : Outcome, third.status = .success ∧
        passage.walk.visits =
          [⟨.plainStart, first⟩, ⟨a, second⟩, ⟨b, third⟩, ⟨.plainEnd, fourth⟩] := by
  have hstart : Walk.enqueue ["start"] .success [] (endsLast (shared.next "start" .success)) =
      .ok [a, b] := by decide
  have ha : Walk.enqueue ["start", "a"] .success [b] (endsLast (shared.next "a" .success)) =
      .ok [b, .plainEnd] := by decide
  have hb : Walk.enqueue ["start", "a", "b"] .success [.plainEnd]
      (endsLast (shared.next "b" .success)) = .ok [.plainEnd, u] := by decide
  refine Engine.gives_follow rfl rfl fun now trace => ?_
  refine Engine.plain_serves_start.gives_queued rfl hstart fun first scene _ => ?_
  refine (serves_step (by decide)).gives_queued rfl ha fun second scene _ => ?_
  refine (serves_step (by decide)).gives_queued rfl hb fun third scene hthird => ?_
  exact Engine.plain_serves_end.gives_end rfl fun fourth scene _ now =>
    ⟨first, second, third, fourth, hthird, rfl⟩

/-- The end is visited, and the step before it. -/
theorem direct_in_order :
    (Engine.plain.follow direct "run" []).Gives .outside fun passage _ =>
      "u" ∈ passage.walk.executed.take 2 := by
  have hp := Engine.follow_precedence Engine.plain direct "run" [] .outside
  refine Doing.Gives.mono ?_ (gives_direct.and_yields hp)
  rintro passage _ ⟨⟨first, second, third, hfirst, hv⟩, hprecedes, -⟩
  have hnext : direct.next "start" first.status = [.plainEnd, u] := by
    rw [hfirst]
    decide
  refine (hprecedes 0 2 ⟨.plainStart, first⟩ ⟨.plainEnd, third⟩ u .plainEnd (by decide) ?_ ?_ ?_ ?_
    rfl rfl rfl ?_).2 ?_
  all_goals simp [hv, Walk.executed, Node.plainStart, hnext, u, Node.plainMapper]

/-- An end that two branches share is visited while a step beside it waits. -/
theorem end_before_step :
    ¬ ∀ (engine : Engine) (graph : FlowGraph) (executionId : String) (payload : Entries Value)
      (place : Place), (graph.nodes.map (·.id)).Nodup →
      (engine.follow graph executionId payload).Yields place fun passage _ =>
        ∀ (i j : Nat) (v e : Visit) (step stop : Node), i < j →
          passage.walk.visits[i]? = some v → passage.walk.visits[j]? = some e →
          step ∈ graph.next v.node.id v.outcome.status →
          stop ∈ graph.next v.node.id v.outcome.status →
          step.type.isTerminal = false → stop.type.isTerminal = true → e.node.id = stop.id →
          step.id ∉ passage.walk.executed.take (i + 1) →
          step.id ∈ passage.walk.executed.take j := by
  intro hall
  have hp := hall Engine.plain shared "run" [] .outside (by decide)
  obtain ⟨passage, _, ⟨first, second, third, fourth, hthird, hv⟩, hprecedes⟩ :=
    (gives_shared.and_yields hp).exists
  have hnext : shared.next "b" third.status = [u, .plainEnd] := by
    rw [hthird]
    decide
  have hu : u.id ∈ passage.walk.executed.take 3 := by
    refine hprecedes 2 3 ⟨b, third⟩ ⟨.plainEnd, fourth⟩ u .plainEnd (by decide) ?_ ?_ ?_ ?_ rfl rfl
      rfl ?_
    all_goals simp [hv, Walk.executed, Node.plainStart, hnext, a, b, u, Node.plainMapper]
  simp [hv, Walk.executed, Node.plainStart, a, b, u, Node.plainMapper] at hu

end Shared

end FlowEngine
