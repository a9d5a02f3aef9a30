import Mathlib.Data.List.Nodup
import Mathlib.Logic.Relation
import FlowEngine.Flow.Check
import FlowEngine.Run.Route

/-!
# Where edges lead

An edge condition admits some statuses. The nodes that come next after an outcome are those to which
an edge leads whose condition admits the status of the outcome, and ends are put behind the others.

The check of a flow looks at ids, start nodes, edges and nodes one after the other. What it asks for
all together is that every id means one node, that every edge joins two nodes and can be taken, and
that every node can be run.
-/

namespace FlowEngine

/-- The statuses for which an edge with a condition may be taken. -/
def EdgeCondition.Admits : EdgeCondition → Status → Prop
  | .always, _ => True
  | .success, status => status = .success
  | .failure, status => status = .failure
  | .continuing, status => status = .continuing
  | .custom, _ => False

theorem Edge.fires_iff {edge : Edge} {status : Status} :
    edge.fires (EdgeCondition.requiredFor status) = true ↔ edge.condition.Admits status := by
  cases hc : edge.condition <;> cases status <;>
    simp [Edge.fires, EdgeCondition.requiredFor, EdgeCondition.Admits, hc]

namespace FlowGraph

variable {graph : FlowGraph} {id source target : String} {status : Status} {node : Node}

def Has (graph : FlowGraph) (id : String) : Prop := ∃ node ∈ graph.nodes, node.id = id

/-- Some edge leads from one id to another when its source ends with a status. -/
def Leads (graph : FlowGraph) (source : String) (status : Status) (target : String) : Prop :=
  ∃ edge ∈ graph.edges, edge.source = source ∧ edge.target = target ∧ edge.condition.Admits status

theorem target?_eq_some (h : graph.target? id = some node) : node ∈ graph.nodes ∧ node.id = id := by
  rw [target?, nodeMap, Entries.ofPairs, Entries.get?_putAll] at h
  simp only [Entries.get?_nil, Option.or_none, Option.map_eq_some_iff] at h
  obtain ⟨⟨key, found⟩, hf, rfl⟩ := h
  have hm := List.mem_of_find?_eq_some hf
  have hk := List.find?_some hf
  simp only [List.mem_reverse, List.mem_map, Prod.mk.injEq] at hm
  obtain ⟨node, hn, rfl, rfl⟩ := hm
  exact ⟨hn, by simpa using hk⟩

theorem target?_isSome : (graph.target? id).isSome = true ↔ graph.Has id := by
  rw [target?, nodeMap, Entries.ofPairs, Entries.get?_putAll]
  simp [Has]

theorem target?_of_mem (hd : (graph.nodes.map (·.id)).Nodup) (hn : node ∈ graph.nodes) :
    graph.target? node.id = some node := by
  obtain ⟨found, hf⟩ := Option.isSome_iff_exists.mp (target?_isSome.mpr ⟨node, hn, rfl⟩)
  obtain ⟨hm, hid⟩ := target?_eq_some hf
  rw [hf, List.inj_on_of_nodup_map hd hm hn hid]

theorem mem_next {next : Node} :
    next ∈ graph.next id status ↔
      graph.Leads id status next.id ∧ graph.target? next.id = some next := by
  simp only [FlowGraph.next, activated, outgoing, List.mem_filterMap, List.mem_filter,
    beq_iff_eq, Edge.fires_iff, Leads]
  constructor
  · rintro ⟨edge, ⟨⟨he, hs⟩, ha⟩, ht⟩
    have hid := (target?_eq_some ht).2
    exact ⟨⟨edge, he, hs, hid.symm, ha⟩, hid ▸ ht⟩
  · rintro ⟨⟨edge, he, hs, ht, ha⟩, hn⟩
    exact ⟨edge, ⟨⟨he, hs⟩, ha⟩, ht ▸ hn⟩

theorem exists_mem_next (hl : graph.Leads id status target) (ht : graph.Has target) :
    ∃ next ∈ graph.next id status, next.id = target := by
  obtain ⟨next, hn⟩ := Option.isSome_iff_exists.mp (target?_isSome.mpr ht)
  have hid := (target?_eq_some hn).2
  exact ⟨next, mem_next.mpr ⟨hid ▸ hl, hid ▸ hn⟩, hid⟩

/-- The node that edges to an id lead to is a loop. -/
def IsLoop (graph : FlowGraph) (id : String) : Prop :=
  ∃ node, graph.target? id = some node ∧ node.type = .loop

def Arc (graph : FlowGraph) (source target : String) : Prop :=
  ∃ edge ∈ graph.edges,
    edge.source = source ∧ edge.target = target ∧ graph.Has source ∧ graph.Has target

/-- No path along the edges between existing nodes comes back to where it began. -/
def Acyclic (graph : FlowGraph) : Prop := ∀ id, ¬ Relation.TransGen graph.Arc id id

/-- A rank that grows along each edge excludes cycles. -/
theorem acyclic_of_rank (rank : String → Nat)
    (h : ∀ edge ∈ graph.edges, rank edge.source < rank edge.target) : graph.Acyclic := by
  have grows : ∀ {a b}, Relation.TransGen graph.Arc a b → rank a < rank b := by
    intro a b hab
    induction hab with
    | single ha =>
      obtain ⟨edge, he, rfl, rfl, -⟩ := ha
      exact h edge he
    | tail _ ha ih =>
      obtain ⟨edge, he, rfl, rfl, -⟩ := ha
      exact Nat.lt_trans ih (h edge he)
  exact fun id hc => Nat.lt_irrefl _ (grows hc)

/-- All paths from one node to another are equally long: each edge leads one level further. -/
def Levelled (graph : FlowGraph) (level : String → Nat) : Prop :=
  ∀ edge ∈ graph.edges, graph.Has edge.target → level edge.target = level edge.source + 1

theorem Leads.level {level : String → Nat} (hv : graph.Levelled level)
    (hl : graph.Leads source status target) (ht : graph.Has target) :
    level target = level source + 1 := by
  obtain ⟨edge, he, rfl, rfl, -⟩ := hl
  exact hv edge he ht

end FlowGraph

@[simp] theorem mem_endsLast {node : Node} {nodes : List Node} :
    node ∈ endsLast nodes ↔ node ∈ nodes := by
  cases h : node.type.isTerminal <;> simp [endsLast, h]

theorem endsLast_pairwise (nodes : List Node) :
    (endsLast nodes).Pairwise fun a b => a.type.isTerminal = true → b.type.isTerminal = true := by
  rw [endsLast, List.pairwise_append]
  refine ⟨?_, ?_, fun a ha b hb _ => (List.mem_filter.mp hb).2⟩
  · refine List.pairwise_of_forall_mem_list fun a ha b hb h => ?_
    simp [h] at ha
  · exact List.pairwise_of_forall_mem_list fun a ha b hb _ => (List.mem_filter.mp hb).2

end FlowEngine

namespace FlowEngine.FlowGraph

/-- What a flow is like in which the check finds nothing. -/
structure Valid (graph : FlowGraph) (types : List NodeType) : Prop where
  ids : (graph.nodes.map (·.id)).Nodup
  starts : (graph.nodes.filter (·.type == .start)).length ≤ 1
  source : ∀ edge ∈ graph.edges, graph.Has edge.source
  target : ∀ edge ∈ graph.edges, graph.Has edge.target
  taken : ∀ edge ∈ graph.edges, edge.condition ≠ .custom
  wayBack : ∀ node ∈ graph.nodes, node.type = .loop → graph.hasContinueEdge node.id = true
  supported : ∀ node ∈ graph.nodes, node.type ∈ types

variable {graph : FlowGraph} {types : List NodeType} {id : String} {node : Node} {edge : Edge}

/-- No id is repeated in a row exactly when the row has no duplicates and none of what was seen
before it. -/
theorem repeated_eq_nil_iff (seen ids : List String) :
    repeated seen ids = [] ↔ ids.Nodup ∧ ∀ id ∈ ids, id ∉ seen := by
  induction ids generalizing seen with
  | nil => simp [repeated]
  | cons id rest ih =>
    unfold repeated
    by_cases hs : id ∈ seen
    · simp [hs]
    · rw [if_neg (by simpa using hs), ih, List.nodup_cons]
      constructor
      · rintro ⟨hd, hr⟩
        refine ⟨⟨fun hm => hr id hm List.mem_cons_self, hd⟩, ?_⟩
        intro other ho
        rcases List.mem_cons.mp ho with rfl | ho
        · exact hs
        · exact fun hm => hr other ho (List.mem_cons_of_mem _ hm)
      · rintro ⟨⟨hn, hd⟩, hr⟩
        refine ⟨hd, ?_⟩
        intro other ho hm
        rcases List.mem_cons.mp hm with rfl | hm
        · exact hn ho
        · exact hr other (List.mem_cons_of_mem _ ho) hm

theorem mem_nodeIds : id ∈ graph.nodeIds ↔ graph.Has id := by
  simp [nodeIds, Has]

theorem edgeProblems_eq_nil_iff :
    edgeProblems graph.nodeIds edge = [] ↔
      graph.Has edge.source ∧ graph.Has edge.target ∧ edge.condition ≠ .custom := by
  simp [edgeProblems, mem_nodeIds]

theorem nodeProblems_eq_nil_iff :
    nodeProblems graph (some types) node = [] ↔
      (node.type = .loop → graph.hasContinueEdge node.id = true) ∧ node.type ∈ types := by
  simp [nodeProblems]

/-- The check finds nothing exactly in the flows that are as it asks. -/
theorem problems_eq_nil_iff : graph.problems (some types) = [] ↔ graph.Valid types := by
  have hids : (repeated [] graph.nodeIds).map FlowProblem.duplicateId = [] ↔
      (graph.nodes.map (·.id)).Nodup := by
    rw [List.map_eq_nil_iff, repeated_eq_nil_iff]
    simp [nodeIds]
  simp only [problems, List.append_eq_nil_iff, List.flatMap_eq_nil_iff, hids, edgeProblems_eq_nil_iff,
    nodeProblems_eq_nil_iff, ite_eq_right_iff, reduceCtorEq, imp_false, Nat.not_lt, gt_iff_lt]
  constructor
  · rintro ⟨⟨⟨hd, hstarts⟩, hedges⟩, hnodes⟩
    constructor
    · exact hd
    · exact hstarts
    · exact fun edge he => (hedges edge he).1
    · exact fun edge he => (hedges edge he).2.1
    · exact fun edge he => (hedges edge he).2.2
    · exact fun node hn => (hnodes node hn).1
    · exact fun node hn => (hnodes node hn).2
  · intro h
    exact ⟨⟨⟨h.ids, h.starts⟩, fun edge he => ⟨h.source edge he, h.target edge he, h.taken edge he⟩⟩,
      fun node hn => ⟨h.wayBack node hn, h.supported node hn⟩⟩

theorem node?_of_mem (hd : (graph.nodes.map (·.id)).Nodup) (hn : node ∈ graph.nodes) :
    graph.node? node.id = some node := by
  have hsome : (graph.node? node.id).isSome = true :=
    List.find?_isSome.mpr ⟨node, hn, by simp⟩
  obtain ⟨found, hf⟩ := Option.isSome_iff_exists.mp hsome
  have hm := List.mem_of_find?_eq_some hf
  have hid : found.id = node.id := by simpa using List.find?_some hf
  rw [hf, List.inj_on_of_nodup_map hd hm hn hid]

/-- Each edge that an outcome activates brings a node next: none is dropped. -/
theorem Valid.ids_next (h : graph.Valid types) (id : String) (status : Status) :
    (graph.next id status).map (·.id) = (graph.activated id status).map (·.target) := by
  have hall : ∀ edge ∈ graph.activated id status, graph.Has edge.target := by
    intro edge he
    exact h.target edge (List.mem_filter.mp (List.mem_filter.mp he).1).1
  unfold next
  generalize graph.activated id status = edges at hall ⊢
  induction edges with
  | nil => rfl
  | cons edge rest ih =>
    obtain ⟨hedge, hrest⟩ := List.forall_mem_cons.mp hall
    obtain ⟨node, hn⟩ := Option.isSome_iff_exists.mp (target?_isSome.mpr hedge)
    have hcons : (edge :: rest).filterMap (fun edge => graph.target? edge.target) =
        node :: rest.filterMap fun edge => graph.target? edge.target := by
      simp only [List.filterMap_cons, hn]
    rw [hcons, List.map_cons, List.map_cons, ih hrest, (target?_eq_some hn).2]

theorem Valid.nextWarnings_eq_nil (h : graph.Valid types) (id : String) (status : Status) :
    graph.nextWarnings id status = [] := by
  unfold nextWarnings
  rw [List.map_eq_nil_iff, List.filter_eq_nil_iff]
  intro edge he hnone
  have ht := h.target edge (List.mem_filter.mp (List.mem_filter.mp he).1).1
  obtain ⟨node, hn⟩ := Option.isSome_iff_exists.mp (target?_isSome.mpr ht)
  rw [hn] at hnone
  cases hnone

end FlowEngine.FlowGraph
