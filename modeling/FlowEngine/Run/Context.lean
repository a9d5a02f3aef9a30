import FlowEngine.Flow.Outcome
import FlowEngine.Text.Search

/-!
# The context of a run

What a run remembers: who it is and how it stands, the variables, the outcomes by node id and by the
key derived from a label, the saved outputs and the order in which nodes ran. Its snapshot is what is
kept of a run.
-/

namespace FlowEngine

inductive RunStatus where
  | running
  | success
  | failure
  deriving DecidableEq, Repr, Inhabited

namespace RunStatus

def name : RunStatus → String
  | .running => "RUNNING"
  | .success => "SUCCESS"
  | .failure => "FAILURE"

def ofValue? : Value → Option RunStatus
  | .text s => [running, success, failure].find? (·.name == s)
  | _ => none

end RunStatus

structure LoopState where
  nodeId : String
  index : Int
  accumulated : List Value
  maxIterations : Int
  deriving DecidableEq, Repr

def LoopState.toValue (state : LoopState) : Value :=
  .object [("loopNodeId", .text state.nodeId), ("index", .int state.index),
    ("accumulated", .list state.accumulated), ("maxIterations", .int state.maxIterations)]

def defaultMaxIterations : Int := 100

open Document in
def LoopState.ofDocument (nodeId : String) (doc : Entries Value) : Checked LoopState :=
  LoopState.mk nodeId <$> optional ["index"] 0 integer doc
    <*> optional ["accumulated"] [] (listOf .fits) doc
    <*> optional ["maxIterations", "max_iterations"] defaultMaxIterations integer doc

structure Context where
  flowId : String
  executionId : String
  currentNode : Option String
  startedAt : Instant
  completedAt : Option Instant
  status : RunStatus
  errorMessage : Option String
  loopStates : Entries LoopState
  /-- Which loops have an edge back into their body. -/
  loopEdges : Entries Bool
  loopBodies : Entries (List String)
  vars : Entries Value
  nodes : Entries Outcome
  aliases : Entries Outcome
  /-- The saved outputs. -/
  nex : Entries Value
  order : List String
  deriving DecidableEq, Repr

/-- The words of a label: the runs of ASCII letters and digits. -/
def labelWords (label : List Char) : List (List Char) :=
  let step (c : Char) : List (List Char) → List (List Char)
    | [] => [[c]]
    | word :: words => (c :: word) :: words
  (label.foldr (fun c words => if Text.isAsciiAlnum c then step c words else [] :: words) [[]]).filter
    (!·.isEmpty)

/-- The key that a label gives a node in references: its words, each but the first capitalised. -/
def aliasOfLabel? (label : String) : Option String :=
  match labelWords label.toList with
  | [] => none
  | word :: words =>
    let low : List Char → List Char
      | [] => []
      | c :: rest => c.toLower :: rest
    let high : List Char → List Char
      | [] => []
      | c :: rest => c.toUpper :: rest
    some (String.ofList (low word ++ (words.map high).flatten))

namespace Context

def create (flowId executionId : String) (now : Instant) : Context :=
  ⟨flowId, executionId, none, now, none, .running, none, [], [], [], [], [], [], [], []⟩

open Document in
/-- Reads each value of an object, up to the first that does not fit. -/
def readEach {α : Type} (read : String → Value → Checked α) (doc : Value) :
    Except (List Problem) (Entries α) :=
  doc.fieldsOf.mapM fun (key, v) => (read key v).toExcept.map (key, ·)

open Document in
/-- Reads a context in the middle of a run from a document of its parts. It has these ids where the
document has none, and parts that are missing are empty. -/
def ofDocument (flowId executionId : String) (now : Instant) (doc : Value) :
    Except (List Problem) Context := do
  let part (name : String) : Value := .ofOption (doc.field? name)
  let id (name fallback : String) : String :=
    match part name with
    | .null => fallback
    | v => v.display
  let rows : Value → List Value
    | .list items => items
    | _ => []
  let outcomes ← (rows (part "nodes")).mapM fun v => (record Outcome.ofDocument v).toExcept
  .ok { create (id "flowId" flowId) (id "executionId" executionId) now with
    vars := (part "variables").fieldsOf
    nodes := .ofPairs (outcomes.map fun o => (o.nodeId, o))
    aliases := ← readEach (fun _ => record Outcome.ofDocument) (part "aliases")
    nex := (part "nex").fieldsOf
    loopStates := ← readEach (fun id => record (LoopState.ofDocument id)) (part "loops")
    loopEdges := (part "continueEdges").fieldsOf.mapValues fun v => !v.isVoid
    loopBodies := (part "bodies").fieldsOf.mapValues fun v => (rows v).map Value.display
    order := (rows (part "order")).map Value.display }

/-- The outcome under a key: that of the node with this id, else that of the label. -/
def outcome? (context : Context) (key : String) : Option Outcome :=
  (context.nodes.get? key).or (context.aliases.get? key)

def startId? (context : Context) : Option String :=
  (context.nodes.find? fun (_, outcome) => outcome.nodeType == NodeType.start.name).map (·.1)

def startOutput? (context : Context) : Option (Entries Value) :=
  (context.startId?.bind context.nodes.get?).bind (·.output)

def lastExecuted? (context : Context) : Option String := context.order.getLast?

/-- The outcomes that a script sees, by id and by the key of the label; the label wins. -/
def outcomesForScript (context : Context) : Entries Value :=
  (context.nodes.mapValues Outcome.snapshot).putAll (context.aliases.mapValues Outcome.snapshot)

/-- What a script gets as its input. An outcome too deep to be written leaves it without any. -/
def scriptInput (context : Context) : Except Fault Value :=
  if (context.nodes ++ context.aliases).all fun (_, outcome) => outcome.fitsBelow 0 then
    .ok (.object [("variables", .object context.vars), ("nodes", .object context.outcomesForScript),
      ("trigger", Outcome.optionalObject context.startOutput?), ("nex", .object context.nex)])
  else .error .tooDeep

/-- The state of a loop on a visit: a new one on the first, else the old one with the bound of now. -/
def enterLoop (context : Context) (id : String) (maxIterations : Int) : LoopState :=
  match context.loopStates.get? id with
  | none => ⟨id, 0, [], maxIterations⟩
  | some state => { state with maxIterations }

def setLoop (context : Context) (id : String) (state : LoopState) : Context :=
  { context with loopStates := context.loopStates.put id state }

def setVariable (context : Context) (key : String) (v : Value) : Context :=
  { context with vars := context.vars.put key v }

def save (context : Context) (name : String) (v : Value) : Context :=
  { context with nex := context.nex.put name v }

def fail (context : Context) (message : String) : Context :=
  { context with errorMessage := some message }

def metaValue (context : Context) : Value :=
  .object [("flowId", .text context.flowId), ("executionId", .text context.executionId),
    ("currentNodeId", Value.ofText? context.currentNode),
    ("startedAt", .instant context.startedAt),
    ("completedAt", match context.completedAt with | some t => .instant t | none => .null),
    ("status", .text context.status.name),
    ("errorMessage", Value.ofText? context.errorMessage),
    ("loopStates", .object (context.loopStates.mapValues LoopState.toValue)),
    ("loopNodeHasContinueEdge", .object (context.loopEdges.mapValues Value.bool))]

def snapshot (context : Context) : Value :=
  Document.form (.object [("meta", context.metaValue), ("variables", .object context.vars),
    ("nodes", .object (context.nodes.mapValues fun outcome => .object outcome.fields)),
    ("nex", .object context.nex),
    ("nodeExecutionOrder", .list (context.order.map .text))])

/-- Whether all that a run remembers can be written. An outcome stands inside one value more than
the rest. -/
def isWritable (context : Context) : Bool :=
  Document.fitBelow 0 context.vars && Document.fitBelow 0 context.nex &&
    (context.nodes.all fun (_, outcome) => outcome.fitsBelow 1) &&
    context.loopStates.all fun (_, state) =>
      Document.itemLevels state.accumulated ≤ Document.levelLimit

def written (context : Context) : Except Fault Value :=
  Document.written context.isWritable context.snapshot

end Context

end FlowEngine
