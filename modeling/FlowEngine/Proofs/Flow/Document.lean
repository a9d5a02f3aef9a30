import FlowEngine.Flow.Document
import FlowEngine.Proofs.Document.Reading

/-!
# Documents of flow graphs read again

A written document has each field under its first name and the keys that are no field after them. Such
a document is read as the record it was written from, whatever names and spellings that one was read
under.
-/

namespace FlowEngine

open Document

theorem NodeType.ofName?_name (t : NodeType) : NodeType.ofName? t.name = some t := by
  cases t <;> decide

theorem EdgeCondition.ofName?_name (c : EdgeCondition) : EdgeCondition.ofName? c.name = some c := by
  cases c <;> decide

namespace Document

variable {fields : List (List String)} {doc base : Entries Value}

theorem isPlain_of_find? {names : List String} {name : String} {v : Value}
    (hplain : (Value.object doc).isPlain = true) (h : find? names doc = some (name, v)) :
    v.isPlain = true :=
  Value.isPlain_of_get? (Value.isPlain_object.mp hplain).2 (find?_mem h).2

theorem extras_isPlain (hplain : (Value.object doc).isPlain = true) :
    ∀ pair ∈ extras fields doc, pair.2.isPlain = true := fun pair hp =>
  (Value.isPlain_object.mp hplain).2 pair (extras_sublist.subset hp)

theorem Heads.form_putAll (h : Heads fields base) (hplain : (Value.object doc).isPlain = true)
    (hbase : ∀ pair ∈ base, pair.2.isPlain = true) :
    form (.object (base.putAll (extras fields doc))) = .object (base ++ extras fields doc) := by
  rw [h.putAll_extras (Value.isPlain_object.mp hplain).1]
  refine form_object ?_
  intro pair hp
  rcases List.mem_append.mp hp with hp | hp
  · exact hbase pair hp
  · exact extras_isPlain hplain pair hp

end Document

namespace Node

variable {node : Node} {doc : Entries Value}

theorem ofDocument_eq_fits :
    ofDocument doc = .fits node ↔
      required ["id"] text doc = .fits node.id ∧
      required ["node_type", "nodeType", "type"] (member NodeType.ofValue?) doc = .fits node.type ∧
      optional ["label"] "" text doc = .fits node.label ∧
      optional ["config"] [] object doc = .fits node.config ∧
      Document.extras fieldNames doc = node.extras := by
  simp only [ofDocument, Checked.seq_eq_fits, Checked.map_eq_fits, Checked.fits.injEq]
  constructor
  · intro h
    obtain ⟨g, ⟨g, ⟨g, ⟨g, ⟨id, hid, rfl⟩, type, htype, rfl⟩, label, hlabel, rfl⟩, config, hconfig, rfl⟩,
      extras, hextras, rfl⟩ := h
    exact ⟨hid, htype, hlabel, hconfig, hextras⟩
  · intro h
    obtain ⟨hid, htype, hlabel, hconfig, hextras⟩ := h
    exact ⟨_, ⟨_, ⟨_, ⟨_, ⟨_, hid, rfl⟩, _, htype, rfl⟩, _, hlabel, rfl⟩, _, hconfig, rfl⟩, _, hextras, rfl⟩

def namedFields (node : Node) : Entries Value :=
  [("id", .text node.id), ("node_type", .text node.type.name), ("label", .text node.label),
    ("config", .object node.config)]

theorem heads (node : Node) : Heads fieldNames node.namedFields := by
  constructor <;> simp [fieldNames, namedFields, Entries.keys]

theorem namedFields_isPlain (hplain : (Value.object doc).isPlain = true)
    (h : ofDocument doc = .fits node) : ∀ pair ∈ node.namedFields, pair.2.isPlain = true := by
  have hconfig : (Value.object node.config).isPlain = true := by
    rcases optional_fits_cases (ofDocument_eq_fits.mp h).2.2.2.1 with hnone | ⟨name, v, hv, hread⟩
    · rw [hnone]
      decide
    · rw [← object_fits_cases hread]
      exact isPlain_of_find? hplain hv
  intro pair hp
  simp only [namedFields, List.mem_cons, List.not_mem_nil, or_false] at hp
  rcases hp with rfl | rfl | rfl | rfl
  · rfl
  · rfl
  · rfl
  · exact hconfig

theorem toDocument_eq (hplain : (Value.object doc).isPlain = true) (h : ofDocument doc = .fits node) :
    node.toDocument = .object (node.namedFields ++ node.extras) := by
  have hform := node.heads.form_putAll hplain (namedFields_isPlain hplain h)
  rwa [(ofDocument_eq_fits.mp h).2.2.2.2] at hform

theorem ofDocument_toDocument (hplain : (Value.object doc).isPlain = true)
    (h : ofDocument doc = .fits node) : record ofDocument node.toDocument = .fits node := by
  have hextras : Document.extras fieldNames (node.namedFields ++ node.extras) = node.extras := by
    rw [← (ofDocument_eq_fits.mp h).2.2.2.2]
    exact node.heads.extras_again
  rw [toDocument_eq hplain h]
  show ofDocument (node.namedFields ++ node.extras) = .fits node
  refine ofDocument_eq_fits.mpr ⟨?_, ?_, ?_, ?_, hextras⟩
  · exact (required_of_get? rfl).mpr rfl
  · exact (required_of_get? rfl).mpr (by simp [member, NodeType.ofValue?, NodeType.ofName?_name])
  · exact (optional_of_get? rfl).mpr rfl
  · exact (optional_of_get? rfl).mpr rfl

end Node

namespace Edge

variable {edge : Edge} {doc : Entries Value}

theorem ofDocument_eq_fits :
    ofDocument doc = .fits edge ↔
      optional ["id"] none (nullable text) doc = .fits edge.id ∧
      required ["source", "sourceNodeId", "source_node_id"] text doc = .fits edge.source ∧
      required ["target", "targetNodeId", "target_node_id"] text doc = .fits edge.target ∧
      optional ["condition", "conditionType", "condition_type"] .always
        (member EdgeCondition.ofValue?) doc = .fits edge.condition ∧
      optional ["condition_expr", "conditionExpr"] none (nullable text) doc = .fits edge.expression ∧
      Document.extras fieldNames doc = edge.extras := by
  simp only [ofDocument, Checked.seq_eq_fits, Checked.map_eq_fits, Checked.fits.injEq]
  constructor
  · intro h
    obtain ⟨g, ⟨g, ⟨g, ⟨g, ⟨g, ⟨id, hid, rfl⟩, source, hsource, rfl⟩, target, htarget, rfl⟩, condition,
      hcondition, rfl⟩, expression, hexpression, rfl⟩, extras, hextras, rfl⟩ := h
    exact ⟨hid, hsource, htarget, hcondition, hexpression, hextras⟩
  · intro h
    obtain ⟨hid, hsource, htarget, hcondition, hexpression, hextras⟩ := h
    exact ⟨_, ⟨_, ⟨_, ⟨_, ⟨_, ⟨_, hid, rfl⟩, _, hsource, rfl⟩, _, htarget, rfl⟩, _, hcondition, rfl⟩, _,
      hexpression, rfl⟩, _, hextras, rfl⟩

def namedFields (edge : Edge) : Entries Value :=
  [("id", Value.ofText? edge.id), ("source", .text edge.source), ("target", .text edge.target),
    ("condition", .text edge.condition.name), ("condition_expr", Value.ofText? edge.expression)]

theorem heads (edge : Edge) : Heads fieldNames edge.namedFields := by
  constructor <;> simp [fieldNames, namedFields, Entries.keys]

theorem toDocument_eq (hplain : (Value.object doc).isPlain = true) (h : ofDocument doc = .fits edge) :
    edge.toDocument = .object (edge.namedFields ++ edge.extras) := by
  have hnamed : ∀ pair ∈ edge.namedFields, pair.2.isPlain = true := by
    simp [namedFields, Value.ofText?_isPlain, Value.isPlain]
  have hform := edge.heads.form_putAll hplain hnamed
  rwa [(ofDocument_eq_fits.mp h).2.2.2.2.2] at hform

theorem ofDocument_toDocument (hplain : (Value.object doc).isPlain = true)
    (h : ofDocument doc = .fits edge) : record ofDocument edge.toDocument = .fits edge := by
  have hextras : Document.extras fieldNames (edge.namedFields ++ edge.extras) = edge.extras := by
    rw [← (ofDocument_eq_fits.mp h).2.2.2.2.2]
    exact edge.heads.extras_again
  rw [toDocument_eq hplain h]
  show ofDocument (edge.namedFields ++ edge.extras) = .fits edge
  refine ofDocument_eq_fits.mpr ⟨?_, ?_, ?_, ?_, ?_, hextras⟩
  · exact (optional_of_get? rfl).mpr (nullable_ofText? _)
  · exact (required_of_get? rfl).mpr rfl
  · exact (required_of_get? rfl).mpr rfl
  · exact (optional_of_get? rfl).mpr (by simp [member, EdgeCondition.ofValue?, EdgeCondition.ofName?_name])
  · exact (optional_of_get? rfl).mpr (nullable_ofText? _)

end Edge

namespace FlowGraph

variable {graph : FlowGraph} {doc : Entries Value}

theorem ofFields_eq_fits :
    ofFields doc = .fits graph ↔
      required ["id"] text doc = .fits graph.id ∧
      optional ["name"] "" text doc = .fits graph.name ∧
      optional ["description"] "" text doc = .fits graph.description ∧
      optional ["nodes"] [] (listOf (record Node.ofDocument)) doc = .fits graph.nodes ∧
      optional ["edges"] [] (listOf (record Edge.ofDocument)) doc = .fits graph.edges ∧
      optional ["max_steps", "maxSteps"] none (nullable integer) doc = .fits graph.maxSteps ∧
      Document.extras fieldNames doc = graph.extras := by
  simp only [ofFields, Checked.seq_eq_fits, Checked.map_eq_fits, Checked.fits.injEq]
  constructor
  · intro h
    obtain ⟨g, ⟨g, ⟨g, ⟨g, ⟨g, ⟨g, ⟨id, hid, rfl⟩, name, hname, rfl⟩, description, hdescription, rfl⟩,
      nodes, hnodes, rfl⟩, edges, hedges, rfl⟩, maxSteps, hmaxSteps, rfl⟩, extras, hextras, rfl⟩ := h
    exact ⟨hid, hname, hdescription, hnodes, hedges, hmaxSteps, hextras⟩
  · intro h
    obtain ⟨hid, hname, hdescription, hnodes, hedges, hmaxSteps, hextras⟩ := h
    exact ⟨_, ⟨_, ⟨_, ⟨_, ⟨_, ⟨_, ⟨_, hid, rfl⟩, _, hname, rfl⟩, _, hdescription, rfl⟩, _, hnodes, rfl⟩, _,
      hedges, rfl⟩, _, hmaxSteps, rfl⟩, _, hextras, rfl⟩

def namedFields (graph : FlowGraph) : Entries Value :=
  [("id", .text graph.id), ("name", .text graph.name), ("description", .text graph.description),
    ("nodes", .list (graph.nodes.map Node.toDocument)),
    ("edges", .list (graph.edges.map Edge.toDocument)),
    ("max_steps", match graph.maxSteps with | some n => .int n | none => .null)]

theorem heads (graph : FlowGraph) : Heads fieldNames graph.namedFields := by
  constructor <;> simp [fieldNames, namedFields, Entries.keys]

theorem toDocument_eq (hplain : (Value.object doc).isPlain = true) (h : ofFields doc = .fits graph) :
    graph.toDocument = .object (graph.namedFields ++ graph.extras) := by
  have hextras := (ofFields_eq_fits.mp h).2.2.2.2.2.2
  have hform : formFields graph.extras = graph.extras := by
    rw [← hextras]
    exact formFields_of_fieldsPlain (Value.fieldsPlain_iff.mpr (extras_isPlain hplain))
  have hputAll := graph.heads.putAll_extras (Value.isPlain_object.mp hplain).1
  show Value.object (graph.namedFields.putAll (formFields graph.extras)) = _
  rw [hform, ← hextras, hputAll]

theorem optional_records {α : Type} {names : List String} {read : Entries Value → Checked α}
    {write : α → Value} {as : List α} (hplain : (Value.object doc).isPlain = true)
    (hwrite : ∀ doc a, (Value.object doc).isPlain = true → read doc = .fits a →
      record read (write a) = .fits a)
    (h : optional names [] (listOf (record read)) doc = .fits as) :
    listOf (record read) (.list (as.map write)) = .fits as := by
  have hall : ∀ a ∈ as, record read (write a) = .fits a := by
    rcases optional_fits_cases h with hnone | ⟨name, v, hv, hread⟩
    · simp [hnone]
    · obtain ⟨items, rfl, hitems⟩ := listOf_fits_cases hread
      have hitem := Value.arePlain_iff.mp (isPlain_of_find? hplain hv)
      intro a ha
      obtain ⟨v, hm, hva⟩ := hitems a ha
      obtain ⟨fields, rfl, hfields⟩ := record_fits_cases hva
      exact hwrite fields a (hitem _ hm) hfields
  rw [listOf_eq_fits, List.forall₂_map_left_iff, List.forall₂_same]
  exact hall

theorem ofDocument_toDocument (hplain : (Value.object doc).isPlain = true)
    (h : ofFields doc = .fits graph) : ofDocument graph.toDocument = .fits graph := by
  obtain ⟨hid, hname, hdescription, hnodes, hedges, hmaxSteps, hextras⟩ := ofFields_eq_fits.mp h
  have hagain : Document.extras fieldNames (graph.namedFields ++ graph.extras) = graph.extras := by
    rw [← hextras]
    exact graph.heads.extras_again
  rw [toDocument_eq hplain h]
  show ofFields (graph.namedFields ++ graph.extras) = .fits graph
  refine ofFields_eq_fits.mpr ⟨?_, ?_, ?_, ?_, ?_, ?_, hagain⟩
  · exact (required_of_get? rfl).mpr rfl
  · exact (optional_of_get? rfl).mpr rfl
  · exact (optional_of_get? rfl).mpr rfl
  · refine (optional_of_get? rfl).mpr (optional_records hplain ?_ hnodes)
    intro doc node
    exact Node.ofDocument_toDocument
  · refine (optional_of_get? rfl).mpr (optional_records hplain ?_ hedges)
    intro doc edge
    exact Edge.ofDocument_toDocument
  · refine (optional_of_get? rfl).mpr ?_
    cases graph.maxSteps <;> rfl

theorem fitBelow_zero_iff {fields : Entries Value} :
    fitBelow 0 fields = true ↔ fieldLevels fields ≤ levelLimit := by
  simp [fitBelow]

theorem written_isOk_iff :
    (∃ out, graph.written = .ok out) ↔
      (∀ node ∈ graph.nodes,
        fieldLevels node.config ≤ levelLimit ∧ fieldLevels node.extras ≤ levelLimit) ∧
      (∀ edge ∈ graph.edges, fieldLevels edge.extras ≤ levelLimit) ∧
      fieldLevels graph.extras ≤ levelLimit := by
  have hok : (∃ out, graph.written = .ok out) ↔
      (graph.nodes.all Node.isWritable && graph.edges.all (fitBelow 0 ·.extras) &&
        fitBelow 0 graph.extras) = true := by
    rw [written, Document.written]
    split
    · simp_all
    · simp_all
  rw [hok]
  simp only [Bool.and_eq_true, List.all_eq_true, Node.isWritable, fitBelow_zero_iff, and_assoc]

theorem toDocument_of_written {out : Value} (h : graph.written = .ok out) : graph.toDocument = out := by
  rw [written, Document.written] at h
  split at h
  · exact Except.ok.inj h
  · cases h

/-- What is written of a graph from a plain document is read as the same graph, and written again as
the same document. A graph can be written exactly if no part of it that is free in form is too deep. -/
theorem written_again {doc : Value} (hplain : doc.isPlain = true)
    (h : FlowGraph.ofDocument doc = .fits graph) :
    ((∃ out, graph.written = .ok out) ↔
      (∀ node ∈ graph.nodes,
        fieldLevels node.config ≤ levelLimit ∧ fieldLevels node.extras ≤ levelLimit) ∧
      (∀ edge ∈ graph.edges, fieldLevels edge.extras ≤ levelLimit) ∧
      fieldLevels graph.extras ≤ levelLimit) ∧
    ∀ out, graph.written = .ok out →
      ∃ again, FlowGraph.ofDocument out = .fits again ∧ again = graph ∧ again.written = .ok out := by
  refine ⟨written_isOk_iff, ?_⟩
  intro out hout
  obtain ⟨fields, rfl, hfields⟩ := record_fits_cases h
  have hread := ofDocument_toDocument hplain hfields
  rw [toDocument_of_written hout] at hread
  exact ⟨graph, hread, rfl, hout⟩

end FlowGraph

namespace Reread

/-- A flow under names and spellings of all kinds, with names that stay unused and keys of its own. -/
def document : Value := .object
  [("id", .text "g"), ("maxSteps", .text " 7 "), ("owner", .object [("team", .null)]),
    ("nodes", .list [
      .object [("type", .text " start "), ("nodeType", .text "Mapper"), ("id", .text "a"),
        ("config", .object [("output", .object [("v", .text "1")])])],
      .object [("node_type", .text "success"), ("id", .text "b"), ("label", .text "End")]]),
    ("edges", .list [
      .object [("sourceNodeId", .text "a"), ("target", .text "b"), ("targetNodeId", .text "c"),
        ("conditionType", .text "success "), ("weight", .double (.ofNat 2))]])]

def graph : FlowGraph :=
  ⟨"g", "", "",
    [⟨"a", .mapper, "", [("output", .object [("v", .text "1")])], [("type", .text " start ")]⟩,
      ⟨"b", .success, "End", [], []⟩],
    [⟨none, "a", "b", .success, none, [("targetNodeId", .text "c"), ("weight", .double (.ofNat 2))]⟩],
    some 7, [("owner", .object [("team", .null)])]⟩

theorem document_fits : FlowGraph.ofDocument document = .fits graph := rfl

/-- It is written under one name each, and read again as the same flow. -/
theorem graph_again :
    document.isPlain = true ∧ FlowGraph.ofDocument document = .fits graph ∧
    (∃ out, graph.written = .ok out) ∧
    ∀ out, graph.written = .ok out →
      ∃ again, FlowGraph.ofDocument out = .fits again ∧ again = graph ∧ again.written = .ok out := by
  have hplain : document.isPlain = true := by decide
  have h := FlowGraph.written_again hplain document_fits
  exact ⟨hplain, document_fits, h.1.mpr (by decide), h.2⟩

def enclosed : Nat → Value
  | 0 => .null
  | depth + 1 => .list [enclosed depth]

/-- A flow with a key of its own that holds 300 lists inside each other. -/
def deepDocument : Value := .object [("id", .text "g"), ("note", enclosed 300)]

/-- It is a plain document and a flow, but cannot be written. -/
theorem deep_not_written :
    deepDocument.isPlain = true ∧
    ∃ graph, FlowGraph.ofDocument deepDocument = .fits graph ∧ graph.written = .error .tooDeep :=
  ⟨by decide +kernel, ⟨"g", "", "", [], [], none, [("note", enclosed 300)]⟩, rfl, by decide +kernel⟩

end Reread

end FlowEngine
