import FlowEngine.CommandLine.Command
import FlowEngine.Dispatch.Schedule
import FlowEngine.Flow.Check
import FlowEngine.Flow.File
import FlowEngine.Json.Parser
import FlowEngine.Log.Setup
import FlowEngine.Script.Runner
import FlowEngine.Settings.Read
import FlowEngine.Step.Standard

/-!
# What commands do

A run reads its files, runs the flow together with all that it starts in the background, and prints
the snapshot. A check prints the problems of a flow. Files that cannot be used end a command with a
complaint.
-/

namespace FlowEngine.CommandLine

/-- The payload from the text of a JSON object. No text, and the empty one, stand for the empty
payload. -/
def parseInput (text : Option String) : Except Fault (Entries Value) :=
  match text.filter (!·.isEmpty) with
  | none => .ok []
  | some text =>
    match Json.read text with
    | .ok (.object fields) => .ok fields
    | .ok _ => .error (.outside "ValueError" "--input must be a JSON object")
    | .error .malformed => .error .notJson
    | .error (.tooManyDigits count) => .error (.tooManyDigits count)

structure Surroundings where
  file? : String → Option String
  configuration : Option String
  environment : String → Option String

inductive Complaint where
  | flow (error : FlowFileError)
  | noConnectors (path : String)
  | connectors (path : String)
  | input (fault : Fault)
  deriving DecidableEq, Repr

def Complaint.text : Complaint → String
  | .flow error => error.text
  | .noConnectors path => "Cannot read connectors '" ++ path ++ "'"
  | .connectors path => "Invalid connectors '" ++ path ++ "'"
  | .input .notJson => "--input is not JSON"
  | .input fault => fault.text

structure Report where
  exit : Nat
  output : String
  complaint : Option Complaint
  setup : Log.Setup
  log : List Log.Entry

def Report.complaining (setup : Log.Setup) (complaint : Complaint) : Report :=
  ⟨1, "", some complaint, setup, []⟩

def Report.errors (report : Report) : String :=
  match report.complaint with
  | some complaint => "Error: " ++ complaint.text ++ "\n"
  | none => report.setup.render report.log

def Surroundings.flow (around : Surroundings) (path : String) : Except Complaint FlowGraph :=
  let path := FilePath.ofText path
  (FlowGraph.ofFile path (around.file? path.text)).mapError .flow

def Surroundings.connectors (around : Surroundings) (path : Option String) :
    Except Complaint (List Connector) :=
  match path.filter (!·.isEmpty) with
  | none => .ok []
  | some path =>
    match (FilePath.ofFileText? path).bind fun path => around.file? path.text with
    | none => .error (.noConnectors path)
    | some content =>
      match Json.readWith .strict content with
      | .error _ => .error (.connectors path)
      | .ok doc =>
        match Document.listOf Connector.ofDocument doc with
        | .fits connectors => .ok connectors
        | .misfits _ => .error (.connectors path)

structure Material where
  graph : FlowGraph
  others : List FlowGraph
  connectors : List Connector
  payload : Entries Value

def Surroundings.material (around : Surroundings) (request : RunRequest) :
    Except Complaint Material := do
  let graph ← around.flow request.graph
  let others ← request.flows.mapM around.flow
  let connectors ← around.connectors request.connectors
  let payload ← (parseInput request.input).mapError .input
  .ok ⟨graph, others, connectors, payload⟩

def Surroundings.settings (around : Surroundings) (maxSteps : Option Int) :
    Except Fault Settings := do
  let settings ← Settings.ofFile around.configuration around.environment
  .ok (match maxSteps with
    | some n => { settings with maxSteps := .int n }
    | none => settings)

def dispatcher (settings : Settings) (material : Material) : Dispatcher where
  flows := FlowStore.ofList (material.graph :: material.others)
  maxSteps := settings.maxSteps
  maxDepth := settings.maxDepth
  registry := Step.standard settings (ConnectorStore.ofList material.connectors)

def openingLines (d : Dispatcher) (material : Material) : List Log.Line :=
  ConnectorStore.listWarnings [] material.connectors ++
    [Step.builtLine (d.registry none)] ++
    FlowStore.listWarnings [] (material.graph :: material.others)

variable {σ : Type}

def perform (o : Outside σ) (d : Dispatcher) (material : Material) (state : σ) :
    Except Fault Execution × Site σ :=
  let act : Act Execution := do
    Act.noteAll (openingLines d material)
    d.run material.graph.id material.payload "CLI"
  let (result, s) := Schedule.perform d o act (.fresh (.fresh state .nobody))
  (result, (s.settle d o).site)

def run (o : Outside σ) (children : Script.Children σ) (around : Surroundings)
    (request : RunRequest) (state : σ) : Except Fault Report × σ :=
  match Log.Setup.choose around.environment request.logLevel request.logStyle with
  | .error fault => (.error fault, state)
  | .ok setup =>
    match around.material request with
    | .error complaint => (.ok (.complaining setup complaint), state)
    | .ok material =>
      match around.settings request.maxSteps with
      | .error fault => (.error fault, state)
      | .ok settings =>
        let runner := Script.Runner.ofTimeout settings.scriptTimeout
        let script (language code : String) (input : Value) (state : σ) : Script.Report × σ :=
          let (report, bench) := runner.run children (some language) code input ⟨state, .empty⟩
          (report, bench.outside)
        let o := { o with script }
        let (result, site) := perform o (dispatcher settings material) material state
        (result.map fun execution =>
            ⟨if execution.status = .success then 0 else 1,
              Json.pretty (.object (execution.snapshot.getD [])) ++ "\n", none, setup,
              site.log.reverse⟩,
          site.outside)

def validate (around : Surroundings) (path : String) : Except Fault Report := do
  let setup : Log.Setup := ⟨.warning, .human⟩
  match around.flow path with
  | .error (.flow (.tooManyDigits count)) => .error (.tooManyDigits count)
  | .error complaint => .ok (.complaining setup complaint)
  | .ok graph =>
    let settings ← around.settings none
    let problems := graph.problems (some (Step.standard settings [] none).types)
    let name := (FilePath.ofText path).name
    if problems.isEmpty then
      .ok ⟨0, name ++ ": OK (" ++ toString graph.nodes.length ++ " nodes, " ++
        toString graph.edges.length ++ " edges)\n", none, setup, []⟩
    else
      .ok ⟨1, String.join (problems.map fun problem => "  - " ++ problem.text ++ "\n") ++ name ++
        ": " ++ toString problems.length ++ " problem(s)\n", none, setup, []⟩

def execute (o : Outside σ) (children : Script.Children σ) (around : Surroundings) :
    Command → σ → Except Fault Report × σ
  | .run request, state => run o children around request state
  | .validate path, state => (validate around path, state)

end FlowEngine.CommandLine
