import FlowEngine.Document.Written
import FlowEngine.Flow.Graph

/-!
# Documents of flow graphs

Reading a graph from a document and writing it again. A field may go by several names; the document
written has one name for each. Keys that are no field are kept and written after the fields.
-/

namespace FlowEngine

open Document

namespace Node

def fieldNames : List (List String) :=
  [["id"], ["node_type", "nodeType", "type"], ["label"], ["config"]]

def ofDocument (doc : Entries Value) : Checked Node :=
  Node.mk <$> required ["id"] text doc
    <*> required ["node_type", "nodeType", "type"] (member NodeType.ofValue?) doc
    <*> optional ["label"] "" text doc
    <*> optional ["config"] [] object doc
    <*> .fits (Document.extras fieldNames doc)

def toDocument (node : Node) : Value :=
  form (.object (Entries.putAll
    [("id", .text node.id), ("node_type", .text node.type.name), ("label", .text node.label),
      ("config", .object node.config)]
    node.extras))

def isWritable (node : Node) : Bool := fitBelow 0 node.config && fitBelow 0 node.extras

def written (node : Node) : Except Fault Value := Document.written node.isWritable node.toDocument

end Node

namespace Edge

def fieldNames : List (List String) :=
  [["id"], ["source", "sourceNodeId", "source_node_id"],
    ["target", "targetNodeId", "target_node_id"],
    ["condition", "conditionType", "condition_type"], ["condition_expr", "conditionExpr"]]

def ofDocument (doc : Entries Value) : Checked Edge :=
  Edge.mk <$> optional ["id"] none (nullable text) doc
    <*> required ["source", "sourceNodeId", "source_node_id"] text doc
    <*> required ["target", "targetNodeId", "target_node_id"] text doc
    <*> optional ["condition", "conditionType", "condition_type"] .always
      (member EdgeCondition.ofValue?) doc
    <*> optional ["condition_expr", "conditionExpr"] none (nullable text) doc
    <*> .fits (Document.extras fieldNames doc)

def toDocument (edge : Edge) : Value :=
  form (.object (Entries.putAll
    [("id", Value.ofText? edge.id), ("source", .text edge.source), ("target", .text edge.target),
      ("condition", .text edge.condition.name),
      ("condition_expr", Value.ofText? edge.expression)]
    edge.extras))

end Edge

namespace FlowGraph

def fieldNames : List (List String) :=
  [["id"], ["name"], ["description"], ["nodes"], ["edges"], ["max_steps", "maxSteps"]]

def ofFields (doc : Entries Value) : Checked FlowGraph :=
  FlowGraph.mk <$> required ["id"] text doc
    <*> optional ["name"] "" text doc
    <*> optional ["description"] "" text doc
    <*> optional ["nodes"] [] (listOf (record Node.ofDocument)) doc
    <*> optional ["edges"] [] (listOf (record Edge.ofDocument)) doc
    <*> optional ["max_steps", "maxSteps"] none (nullable integer) doc
    <*> .fits (Document.extras fieldNames doc)

def ofDocument (doc : Value) : Checked FlowGraph := record ofFields doc

def toDocument (graph : FlowGraph) : Value :=
  .object (Entries.putAll
    [("id", .text graph.id), ("name", .text graph.name),
      ("description", .text graph.description),
      ("nodes", .list (graph.nodes.map Node.toDocument)),
      ("edges", .list (graph.edges.map Edge.toDocument)),
      ("max_steps", match graph.maxSteps with | some n => .int n | none => .null)]
    (formFields graph.extras))

def written (graph : FlowGraph) : Except Fault Value :=
  Document.written
    (graph.nodes.all Node.isWritable && graph.edges.all (fitBelow 0 ·.extras) &&
      fitBelow 0 graph.extras)
    graph.toDocument

end FlowGraph

end FlowEngine
