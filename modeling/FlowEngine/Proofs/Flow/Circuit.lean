import FlowEngine.Proofs.Flow.Edges
import FlowEngine.Run.Engine

/-!
# A loop with its body

The flow around one loop: it begins at a start node, the loop goes on into a row of nodes that leads
back to it, and ends at an end node. Neither the order in which a document lists nodes and edges nor
anything else about them matters.
-/

namespace FlowEngine

/-- Source, target and condition of an edge. -/
abbrev Way := String × String × EdgeCondition

/-- The nodes of a loop with its body, which is not empty. -/
structure Circuit where
  start : Node
  loop : Node
  first : Node
  rest : List Node
  done : Node

namespace Circuit

variable (circuit : Circuit)

def body : List Node := circuit.first :: circuit.rest

def last : Node := circuit.rest.getLastD circuit.first

def nodes : List Node := circuit.start :: circuit.loop :: circuit.done :: circuit.body

/-- Each node leads to the next one, and the last one back. -/
def chain (back : Node) : List Node → List Way
  | [] => []
  | node :: rest => (node.id, (rest.headD back).id, .always) :: chain back rest

def ways : List Way :=
  (circuit.start.id, circuit.loop.id, .always) ::
    (circuit.loop.id, circuit.first.id, .continuing) ::
    (circuit.loop.id, circuit.done.id, .success) :: chain circuit.loop circuit.body

theorem last_mem : circuit.last ∈ circuit.body := by
  rw [last, List.getLastD_eq_getLast?, body]
  cases h : circuit.rest.getLast? with
  | none => exact List.mem_cons_self
  | some node => exact List.mem_cons_of_mem _ (List.mem_of_getLast? h)

theorem body_getLast? : circuit.body.getLast? = some circuit.last := by
  rw [body, last, List.getLast?_cons, List.getLastD_eq_getLast?]

end Circuit

namespace FlowGraph

def ways (graph : FlowGraph) : List Way :=
  graph.edges.map fun edge => (edge.source, edge.target, edge.condition)

/-- A graph consists of a loop with its body. -/
structure IsCircuit (graph : FlowGraph) (circuit : Circuit) : Prop where
  nodes : graph.nodes.Perm circuit.nodes
  ways : graph.ways.Perm circuit.ways
  distinct : (circuit.nodes.map (·.id)).Nodup
  start : circuit.start.type = .start
  loop : circuit.loop.type = .loop
  done : circuit.done.type = .success
  body : ∀ node ∈ circuit.body,
    node.type ≠ .start ∧ node.type ≠ .loop ∧ node.type.isTerminal = false

variable {graph : FlowGraph} {circuit : Circuit} {id : String} {status : Status} {node : Node}

/-- Whether a way leads away from a node for outcomes of a status. -/
def taken (id : String) (status : Status) (way : Way) : Bool :=
  way.1 == id && (way.2.2 == EdgeCondition.requiredFor status || way.2.2 == .always)

@[simp] theorem taken_mk (source target : String) (condition : EdgeCondition) :
    taken id status (source, target, condition) =
      (source == id &&
        (condition == EdgeCondition.requiredFor status || condition == .always)) := rfl

theorem next_eq (graph : FlowGraph) (id : String) (status : Status) :
    graph.next id status =
      (graph.ways.filter (taken id status)).filterMap fun way => graph.target? way.2.1 := by
  rw [FlowGraph.next, activated, outgoing, ways, List.filter_map, List.filterMap_map,
    List.filter_filter]
  congr 1
  apply List.filter_congr
  intro edge _
  simp [taken, Edge.fires, Bool.and_comm]

theorem next_eq_singleton {ways : List Way} {condition : EdgeCondition}
    (hp : graph.ways.Perm ways) (hf : ways.filter (taken id status) = [(id, node.id, condition)])
    (ht : graph.target? node.id = some node) : graph.next id status = [node] := by
  have hg : graph.ways.filter (taken id status) = [(id, node.id, condition)] :=
    List.perm_singleton.mp (hf ▸ hp.filter _)
  rw [next_eq, hg]
  simp [ht]

theorem searchBody_forall {p : String → Prop} (he : ∀ edge ∈ graph.edges, p edge.target)
    {avoid : String} {steps : Nat} {pending body : List String} (hp : ∀ id ∈ pending, p id)
    (hb : ∀ id ∈ body, p id) : ∀ id ∈ graph.searchBody avoid steps pending body, p id := by
  fun_induction searchBody graph avoid steps pending body with
  | case1 => exact hb
  | case2 steps id pending body hs ih =>
    exact ih (fun id hi => hp id (List.mem_cons_of_mem _ hi)) hb
  | case3 => exact hb
  | case4 id pending body hs steps ih =>
    apply ih
    · intro next hn
      rcases List.mem_append.mp hn with hn | hn
      · exact hp next (List.mem_cons_of_mem _ hn)
      · obtain ⟨edge, hm, rfl⟩ := List.mem_map.mp hn
        exact he edge (List.mem_of_mem_filter hm)
    · intro next hn
      rcases List.mem_append.mp hn with hn | hn
      · exact hb next hn
      · exact List.mem_singleton.mp hn ▸ hp id List.mem_cons_self

theorem chain_filter_eq_nil {back : Node} {nodes : List Node} (h : id ∉ nodes.map (·.id)) :
    (Circuit.chain back nodes).filter (taken id status) = [] := by
  induction nodes with
  | nil => rfl
  | cons head rest ih =>
    rw [List.map_cons, List.mem_cons, not_or] at h
    have hskip : ¬ taken id status (head.id, (rest.headD back).id, .always) = true := by
      simp [Ne.symm h.1]
    rw [Circuit.chain, List.filter_cons_of_neg hskip, ih h.2]

theorem chain_filter {back : Node} {pre post : List Node}
    (h : ((pre ++ node :: post).map (·.id)).Nodup) :
    (Circuit.chain back (pre ++ node :: post)).filter (taken node.id status) =
      [(node.id, (post.headD back).id, .always)] := by
  induction pre with
  | nil =>
    have hpost := (List.nodup_cons.mp h).1
    rw [List.nil_append, Circuit.chain, List.filter_cons_of_pos (by simp),
      chain_filter_eq_nil hpost]
  | cons head pre ih =>
    rw [List.cons_append, List.map_cons, List.nodup_cons] at h
    have hne : head.id ≠ node.id := fun e => h.1 (by simp [e])
    have hskip : ¬ taken node.id status
        (head.id, ((pre ++ node :: post).headD back).id, .always) = true := by
      simp [hne]
    rw [List.cons_append, Circuit.chain, List.filter_cons_of_neg hskip, ih h.2]

theorem target_mem_chain {back : Node} {nodes : List Node} {way : Way}
    (h : way ∈ Circuit.chain back nodes) : way.2.1 = back.id ∨ way.2.1 ∈ nodes.map (·.id) := by
  induction nodes with
  | nil => cases h
  | cons head rest ih =>
    rcases List.mem_cons.mp h with rfl | h
    · cases rest with
      | nil => exact Or.inl rfl
      | cons next rest => exact Or.inr (by simp)
    · exact (ih h).imp_right (List.mem_cons_of_mem _)

namespace IsCircuit

variable (h : graph.IsCircuit circuit)

include h

theorem target (hn : node ∈ circuit.nodes) : graph.target? node.id = some node :=
  target?_of_mem ((h.nodes.map _).nodup_iff.mpr h.distinct) (h.nodes.mem_iff.mpr hn)

theorem ids : circuit.start.id ≠ circuit.loop.id ∧ circuit.start.id ≠ circuit.done.id ∧
    circuit.loop.id ≠ circuit.done.id ∧ circuit.start.id ∉ circuit.body.map (·.id) ∧
    circuit.loop.id ∉ circuit.body.map (·.id) ∧ circuit.done.id ∉ circuit.body.map (·.id) ∧
    (circuit.body.map (·.id)).Nodup := by
  have hd := h.distinct
  simp only [Circuit.nodes, List.map_cons, List.nodup_cons, List.mem_cons, not_or] at hd
  obtain ⟨⟨hsl, hsd, hsb⟩, ⟨hld, hlb⟩, hdb, hb⟩ := hd
  exact ⟨hsl, hsd, hld, hsb, hlb, hdb, hb⟩

theorem start_ne (hn : node ∈ circuit.body) : circuit.start.id ≠ node.id := by
  obtain ⟨-, -, -, hsb, -⟩ := h.ids
  exact fun e => hsb (e ▸ List.mem_map_of_mem hn)

theorem loop_ne (hn : node ∈ circuit.body) : circuit.loop.id ≠ node.id := by
  obtain ⟨-, -, -, -, hlb, -⟩ := h.ids
  exact fun e => hlb (e ▸ List.mem_map_of_mem hn)

theorem done_ne (hn : node ∈ circuit.body) : circuit.done.id ≠ node.id := by
  obtain ⟨-, -, -, -, -, hdb, -⟩ := h.ids
  exact fun e => hdb (e ▸ List.mem_map_of_mem hn)

theorem start? : graph.start? = some circuit.start := by
  have hsome : (graph.nodes.find? (·.type == .start)).isSome = true := by
    rw [List.find?_isSome]
    exact ⟨circuit.start, h.nodes.mem_iff.mpr (by simp [Circuit.nodes]), by simp [h.start]⟩
  obtain ⟨found, hf⟩ := Option.isSome_iff_exists.mp hsome
  have htype : found.type = .start := by simpa using List.find?_some hf
  have hm := h.nodes.mem_iff.mp (List.mem_of_find?_eq_some hf)
  rw [FlowGraph.start?, hf]
  simp only [Circuit.nodes, List.mem_cons] at hm
  rcases hm with rfl | rfl | rfl | hm
  · rfl
  · rw [h.loop] at htype
    cases htype
  · rw [h.done] at htype
    cases htype
  · exact absurd htype (h.body found (by simpa [Circuit.body] using hm)).1

theorem next_start : graph.next circuit.start.id status = [circuit.loop] := by
  obtain ⟨hsl, -, -, hsb, -⟩ := h.ids
  have hf : circuit.ways.filter (taken circuit.start.id status) =
      [(circuit.start.id, circuit.loop.id, .always)] := by
    simp [Circuit.ways, Ne.symm hsl, chain_filter_eq_nil hsb]
  exact next_eq_singleton h.ways hf (h.target (by simp [Circuit.nodes]))

theorem next_continuing : graph.next circuit.loop.id .continuing = [circuit.first] := by
  obtain ⟨hsl, -, -, -, hlb, -⟩ := h.ids
  have hf : circuit.ways.filter (taken circuit.loop.id .continuing) =
      [(circuit.loop.id, circuit.first.id, .continuing)] := by
    simp [Circuit.ways, hsl, chain_filter_eq_nil hlb, EdgeCondition.requiredFor]
  exact next_eq_singleton h.ways hf (h.target (by simp [Circuit.nodes, Circuit.body]))

theorem next_success : graph.next circuit.loop.id .success = [circuit.done] := by
  obtain ⟨hsl, -, -, -, hlb, -⟩ := h.ids
  have hf : circuit.ways.filter (taken circuit.loop.id .success) =
      [(circuit.loop.id, circuit.done.id, .success)] := by
    simp [Circuit.ways, hsl, chain_filter_eq_nil hlb, EdgeCondition.requiredFor]
  exact next_eq_singleton h.ways hf (h.target (by simp [Circuit.nodes]))

theorem next_body {pre post : List Node} (hb : circuit.body = pre ++ node :: post) :
    graph.next node.id status = [post.headD circuit.loop] := by
  obtain ⟨-, -, -, -, -, -, hnd⟩ := h.ids
  have hm : node ∈ circuit.body := by simp [hb]
  have hs : circuit.start.id ≠ node.id := h.start_ne hm
  have hl : circuit.loop.id ≠ node.id := h.loop_ne hm
  have ht : post.headD circuit.loop ∈ circuit.nodes := by
    cases post with
    | nil => simp [Circuit.nodes]
    | cons next post => simp [Circuit.nodes, hb]
  have hf : circuit.ways.filter (taken node.id status) =
      [(node.id, (post.headD circuit.loop).id, .always)] := by
    rw [hb] at hnd
    simp [Circuit.ways, hs, hl, hb, chain_filter hnd]
  exact next_eq_singleton h.ways hf (h.target ht)

theorem hasContinueEdge : graph.hasContinueEdge circuit.loop.id = true := by
  have hm : (circuit.loop.id, circuit.first.id, EdgeCondition.continuing) ∈ graph.ways :=
    h.ways.mem_iff.mpr (by simp [Circuit.ways])
  obtain ⟨edge, he, hedge⟩ := List.mem_map.mp hm
  simp only [Prod.mk.injEq] at hedge
  have ht : edge.target ∈ graph.continueTargets circuit.loop.id := by
    refine List.mem_map.mpr ⟨edge, List.mem_filter.mpr ⟨?_, by simp [hedge]⟩, rfl⟩
    exact List.mem_filter.mpr ⟨he, by simp [hedge]⟩
  rw [FlowGraph.hasContinueEdge, Bool.not_eq_true', List.isEmpty_eq_false_iff]
  exact List.ne_nil_of_mem ht

theorem start_not_mem_loopBody : circuit.start.id ∉ graph.loopBody circuit.loop.id := by
  obtain ⟨hsl, hsd, -, hsb, -⟩ := h.ids
  have hfirst : circuit.start.id ≠ circuit.first.id := h.start_ne List.mem_cons_self
  have he : ∀ edge ∈ graph.edges, edge.target ≠ circuit.start.id := by
    intro edge hm
    have hw := h.ways.mem_iff.mp (List.mem_map_of_mem hm)
    simp only [Circuit.ways, List.mem_cons, Prod.mk.injEq] at hw
    rcases hw with ⟨-, ht, -⟩ | ⟨-, ht, -⟩ | ⟨-, ht, -⟩ | hw
    · exact ht ▸ Ne.symm hsl
    · exact ht ▸ Ne.symm hfirst
    · exact ht ▸ Ne.symm hsd
    · rcases target_mem_chain hw with (ht : edge.target = circuit.loop.id) | ht
      · exact ht ▸ Ne.symm hsl
      · exact fun e => hsb (e ▸ ht)
  have hp : ∀ id ∈ graph.continueTargets circuit.loop.id, id ≠ circuit.start.id := by
    intro id hi
    obtain ⟨edge, hedge, rfl⟩ := List.mem_map.mp hi
    exact he edge (List.mem_of_mem_filter (List.mem_of_mem_filter hedge))
  have hall : ∀ id ∈ graph.loopBody circuit.loop.id, id ≠ circuit.start.id :=
    searchBody_forall he hp (fun _ hn => absurd hn List.not_mem_nil)
  exact fun hm => hall _ hm rfl

end IsCircuit

end FlowGraph

end FlowEngine
