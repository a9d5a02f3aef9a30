import FlowEngine.Log.Record
import FlowEngine.Run.Context
import FlowEngine.Flow.Graph

/-!
# Recording outcomes

The output of the start node is the payload of the run; it is recorded once, before any node runs.
Every other outcome is recorded under the id of its node and the key of its label, and its output
under the name that the node asks for. Variable nodes and loops see to the last themselves.
-/

namespace FlowEngine

/-- The start node of a flow that has none. -/
def Node.defaultStart : Node := ⟨"start", .start, "Start", [], []⟩

namespace Context

def keep (context : Context) (node : Node) (outcome : Outcome) : Context :=
  { context with
    nodes := context.nodes.put node.id outcome
    aliases :=
      match aliasOfLabel? node.label with
      | some key => context.aliases.put key outcome
      | none => context.aliases }

def startOutcome (node : Node) (payload : Entries Value) : Outcome :=
  { Outcome.ofStatus node .success with
    nodeType := NodeType.start.name
    output := some [("body", .object payload)] }

/-- Records the payload of a run as the output of its start node. -/
def seed (context : Context) (node : Node) (payload : Entries Value) : Context :=
  let kept := context.keep node (startOutcome node payload)
  match node.saveName?.filter isSaveName with
  | some name => kept.save name (.object [("body", .object payload)])
  | none => kept

/-- Notes for each loop of a flow whether it has a way back, and the nodes of its body. -/
def noteLoops (context : Context) (graph : FlowGraph) : Context :=
  let loops := (graph.nodes.filter (·.type == .loop)).map (·.id)
  { context with
    loopEdges := context.loopEdges.putAll (loops.map fun id => (id, graph.hasContinueEdge id))
    loopBodies := context.loopBodies.putAll (loops.map fun id => (id, graph.loopBody id)) }

def savesItself (type : NodeType) : Bool := type == .variable || type == .loop

def nameToSave? (node : Node) : Option String :=
  if savesItself node.type then none else node.saveName?

def record (context : Context) (node : Node) (outcome : Outcome) : Context :=
  let kept := context.keep node outcome
  match (nameToSave? node).filter isSaveName with
  | some name => kept.save name (.object (outcome.primary.getD []))
  | none => kept

def recordWarnings (context : Context) (node : Node) : List Log.Line :=
  match nameToSave? node with
  | none => []
  | some name =>
    if !isSaveName name then
      [Log.line .warning Log.Logger.engine
        ("Ignoring saveOutputAs '" ++ name ++ "' on node '" ++ node.displayName ++
          "': use letters, digits and underscores, not starting with a digit")]
    else if context.nex.has name then
      [Log.line .warning Log.Logger.engine
        ("saveOutputAs '" ++ name ++ "' on node '" ++ node.displayName ++
          "' overwrites an existing nex entry")]
    else []

end Context

end FlowEngine
