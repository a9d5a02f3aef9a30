import Mathlib.Logic.Relation
import FlowEngine.Proofs.Flow.Edges
import FlowEngine.Run.Engine

/-!
# Walks as a transition system

A walk goes on by steps: the first node of the queue has its turn, with any outcome whatever, or the
walk is too long. What a step can do is said once, by its constructors. Every run is a walk that is
reached by steps from the start node, so what each step keeps holds of every run.
-/

namespace FlowEngine

theorem List.getElem?_snoc {α : Type} {l : List α} {a b : α} {i : Nat} :
    (l ++ [a])[i]? = some b ↔ l[i]? = some b ∨ i = l.length ∧ a = b := by
  rcases Nat.lt_trichotomy i l.length with h | h | h
  · rw [List.getElem?_append_left h]
    simp [Nat.ne_of_lt h]
  · simp [h]
  · have hlong : (l ++ [a])[i]? = none := by
      rw [List.getElem?_eq_none_iff, List.length_append]
      exact h
    have hnone : l[i]? = none := List.getElem?_eq_none (Nat.le_of_lt h)
    rw [hlong, hnone]
    simp [Nat.ne_of_gt h]

/-- An end node and an outcome that halts the run are the last things of a walk. -/
def Visit.Stops (visit : Visit) : Prop :=
  visit.node.type.isTerminal = true ∨ visit.outcome.halts = true

namespace Walk

section Enqueue

variable {executed : List String} {status : Status} {queue queue' nodes : List Node} {node : Node}

theorem mayEnter_of_enqueue (h : enqueue executed status queue nodes = .ok queue') :
    ∀ node ∈ nodes, mayEnter executed status node = true := by
  fun_induction enqueue executed status queue nodes with
  | case1 => simp
  | case2 queue node rest hm ih => simpa [hm] using ih h
  | case3 => cases h

theorem refused_of_enqueue (h : enqueue executed status queue nodes = .error node) :
    node ∈ nodes ∧ mayEnter executed status node = false := by
  fun_induction enqueue executed status queue nodes with
  | case1 => cases h
  | case2 queue head rest hm ih => exact ⟨List.mem_cons_of_mem _ (ih h).1, (ih h).2⟩
  | case3 queue head rest hm =>
    cases h
    exact ⟨List.mem_cons_self, by simpa using hm⟩

theorem sublist_of_enqueue (h : enqueue executed status queue nodes = .ok queue') :
    ∃ added, queue' = queue ++ added ∧ added.Sublist nodes := by
  fun_induction enqueue executed status queue nodes with
  | case1 =>
    cases h
    exact ⟨[], by simp⟩
  | case2 queue head rest hm ih =>
    obtain ⟨added, rfl, ha⟩ := ih h
    split
    · exact ⟨added, rfl, ha.cons head⟩
    · exact ⟨head :: added, by simp, ha.cons_cons head⟩
  | case3 => cases h

theorem append_of_enqueue (h : enqueue executed status queue nodes = .ok queue') :
    ∃ added, queue' = queue ++ added ∧ ∀ node ∈ added, node ∈ nodes := by
  obtain ⟨added, rfl, ha⟩ := sublist_of_enqueue h
  exact ⟨added, rfl, fun _ hn => ha.subset hn⟩

theorem isPrefix_enqueue (h : enqueue executed status queue nodes = .ok queue') :
    queue <+: queue' := by
  obtain ⟨added, rfl, -⟩ := append_of_enqueue h
  exact List.prefix_append _ _

theorem mem_of_mem_enqueue (h : enqueue executed status queue nodes = .ok queue') :
    ∀ node ∈ queue', node ∈ queue ∨ node ∈ nodes := by
  obtain ⟨added, rfl, ha⟩ := append_of_enqueue h
  exact fun node hn => (List.mem_append.mp hn).imp_right (ha node)

theorem id_mem_enqueue (h : enqueue executed status queue nodes = .ok queue') :
    ∀ node ∈ nodes, ∃ waiting ∈ queue', waiting.id = node.id := by
  fun_induction enqueue executed status queue nodes with
  | case1 => simp
  | case2 queue head rest hm ih =>
    intro node hn
    rcases List.mem_cons.mp hn with rfl | hn
    · have hp := (isPrefix_enqueue h).subset
      split at hp
      · rename_i hq
        obtain ⟨waiting, hw, hid⟩ := List.any_eq_true.mp hq
        exact ⟨waiting, hp hw, by simpa using hid⟩
      · exact ⟨node, hp (by simp), rfl⟩
    · exact ih h node hn
  | case3 => cases h

theorem enqueue_nodup (h : enqueue executed status queue nodes = .ok queue')
    (hq : (queue.map (·.id)).Nodup) : (queue'.map (·.id)).Nodup := by
  fun_induction enqueue executed status queue nodes with
  | case1 => cases h; exact hq
  | case2 queue head rest hm ih =>
    apply ih h
    split
    · exact hq
    · rename_i hn
      rw [List.map_append, List.nodup_append]
      refine ⟨hq, by simp, ?_⟩
      intro a ha b hb hab
      obtain ⟨waiting, hw, rfl⟩ := List.mem_map.mp ha
      refine hn (List.any_eq_true.mpr ⟨waiting, hw, ?_⟩)
      simpa [hab] using hb
  | case3 => cases h

theorem mayEnter_iff :
    mayEnter executed status node = true ↔
      node.id ∉ executed ∨ status = .continuing ∨ node.type = .loop := by
  simp [mayEnter, or_assoc]

end Enqueue

/-- What a walk can do. Nothing is asked of outcomes; an ended walk does nothing. -/
inductive Step (graph : FlowGraph) : Walk → Walk → Prop where
  | overflow (node queue visits failed) :
      Step graph ⟨node :: queue, visits, failed, none⟩ ⟨queue, visits, true, some .overflow⟩
  | terminal (node outcome queue visits failed) (ht : node.type.isTerminal = true) :
      Step graph ⟨node :: queue, visits, failed, none⟩
        ⟨queue, visits ++ [⟨node, outcome⟩], outcome.status == .failure || failed, some .terminal⟩
  | halt (node outcome queue visits failed) (ht : node.type.isTerminal = false)
      (hh : outcome.halts = true) :
      Step graph ⟨node :: queue, visits, failed, none⟩
        ⟨queue, visits ++ [⟨node, outcome⟩], true, some .halted⟩
  | cycle (node outcome queue visits failed) (hs : ¬ Visit.Stops ⟨node, outcome⟩) (entered)
      (he : enqueue ((visits ++ [⟨node, outcome⟩]).map (·.node.id)) outcome.status queue
        (endsLast (graph.next node.id outcome.status)) = .error entered) :
      Step graph ⟨node :: queue, visits, failed, none⟩
        ⟨queue, visits ++ [⟨node, outcome⟩], true, some .cycle⟩
  | goOn (node outcome queue visits failed) (hs : ¬ Visit.Stops ⟨node, outcome⟩) (queue')
      (he : enqueue ((visits ++ [⟨node, outcome⟩]).map (·.node.id)) outcome.status queue
        (endsLast (graph.next node.id outcome.status)) = .ok queue') :
      Step graph ⟨node :: queue, visits, failed, none⟩
        ⟨queue', visits ++ [⟨node, outcome⟩],
          outcome.status == .failure && (graph.next node.id outcome.status).isEmpty || failed, none⟩

def Steps (graph : FlowGraph) : Walk → Walk → Prop := Relation.ReflTransGen (Step graph)

/-- A walk that some run can have gone. -/
def Reachable (graph : FlowGraph) (walk : Walk) : Prop :=
  Steps graph (starting (Engine.startOf graph)) walk

end Walk

namespace Turn

variable {graph : FlowGraph} {node : Node} {outcome : Outcome}

theorem queueNext_walk (next : List Node) (turn : Turn) :
    (queueNext node outcome next turn).walk =
      match Walk.enqueue turn.walk.executed outcome.status turn.walk.queue (endsLast next) with
      | .ok queue => { turn.walk with queue }
      | .error _ => { turn.walk with failed := true, ending := some .cycle } := by
  unfold queueNext
  cases Walk.enqueue turn.walk.executed outcome.status turn.walk.queue (endsLast next) <;> rfl

/-- Going on queues the nodes that come next, and a failure without any fails the walk. -/
theorem goOn_walk (walk : Walk) (context : Context) :
    (goOn graph node outcome walk context).walk =
      match Walk.enqueue walk.executed outcome.status walk.queue
        (endsLast (graph.next node.id outcome.status)) with
      | .ok queue =>
        { walk with
          queue
          failed := outcome.status == .failure && (graph.next node.id outcome.status).isEmpty ||
            walk.failed }
      | .error _ => { walk with failed := true, ending := some .cycle } := by
  unfold goOn
  simp only [queueNext_walk]
  cases hc : outcome.status == .failure && (graph.next node.id outcome.status).isEmpty with
  | false => rfl
  | true => rfl

theorem after_visits (graph : FlowGraph) (node : Node) (outcome : Outcome) (walk : Walk)
    (context : Context) :
    (after graph node outcome walk context).walk.visits = walk.visits ++ [⟨node, outcome⟩] := by
  unfold after
  split
  · unfold atEnd
    split <;> rfl
  · split
    · rfl
    · rw [goOn_walk]
      split <;> rfl

theorem failUnlessFailed_eq (context : Context) (outcome : Outcome) (text : String) :
    ∃ message, context.failUnlessFailed outcome text =
      { context with errorMessage := message } := by
  unfold Context.failUnlessFailed
  split
  · exact ⟨context.errorMessage, rfl⟩
  · exact ⟨_, rfl⟩

theorem queueNext_context (next : List Node) (turn : Turn) :
    ∃ message, (queueNext node outcome next turn).context =
      { turn.context with errorMessage := message } := by
  unfold queueNext
  cases Walk.enqueue turn.walk.executed outcome.status turn.walk.queue (endsLast next) with
  | ok queue => exact ⟨turn.context.errorMessage, rfl⟩
  | error entered => exact ⟨_, rfl⟩

theorem goOn_context (walk : Walk) (context : Context) :
    ∃ message, (goOn graph node outcome walk context).context =
      { context with errorMessage := message } := by
  have hg : (goOn graph node outcome walk context).context =
      (queueNext node outcome (graph.next node.id outcome.status)
        (if outcome.status == .failure && (graph.next node.id outcome.status).isEmpty then
          unrouted node outcome walk context else ⟨walk, context, []⟩)).context := rfl
  rw [hg]
  split
  · obtain ⟨_, hf⟩ :=
      failUnlessFailed_eq context outcome ("Node '" ++ node.displayName ++ "' failed")
    refine (queueNext_context _ _).imp fun message hq => hq.trans ?_
    simp only [unrouted, hf]
  · exact queueNext_context _ _

/-- Of the context a turn changes the order, and the message if the run fails. -/
theorem after_context (graph : FlowGraph) (node : Node) (outcome : Outcome) (walk : Walk)
    (context : Context) :
    ∃ message, (after graph node outcome walk context).context =
      { context with order := context.order ++ [node.id], errorMessage := message } := by
  unfold after
  split
  · unfold atEnd
    split
    · exact failUnlessFailed_eq _ _ _
    · exact ⟨context.errorMessage, rfl⟩
  · split
    · exact failUnlessFailed_eq _ _ _
    · exact goOn_context _ _

theorem after_step (graph : FlowGraph) (node : Node) (outcome : Outcome) (queue : List Node)
    (visits : List Visit) (failed : Bool) (context : Context) :
    Walk.Step graph ⟨node :: queue, visits, failed, none⟩
      (after graph node outcome ⟨queue, visits, failed, none⟩ context).walk := by
  unfold after
  split
  · rename_i ht
    have hs : Walk.Step graph _ _ := .terminal node outcome queue visits failed ht
    cases hf : outcome.status == .failure <;> simpa [atEnd, hf] using hs
  · rename_i ht
    split
    · rename_i hh
      exact .halt node outcome queue visits failed (by simpa using ht) hh
    · rename_i hh
      have hs : ¬ Visit.Stops ⟨node, outcome⟩ := fun hs => hs.elim ht hh
      rw [goOn_walk]
      split
      · rename_i queue' he
        exact .goOn node outcome queue visits failed hs queue' he
      · rename_i entered he
        exact .cycle node outcome queue visits failed hs entered he

end Turn

end FlowEngine
