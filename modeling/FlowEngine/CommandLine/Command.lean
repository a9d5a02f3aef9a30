import FlowEngine.CommandLine.Arguments
import FlowEngine.Flow.FilePath

/-!
# Commands

What the command line can be asked to do: to run a flow and print its snapshot, or to check a flow.
-/

namespace FlowEngine.CommandLine

structure RunRequest where
  graph : String
  input : Option String
  flows : List String
  connectors : Option String
  maxSteps : Option Int
  logLevel : String
  logStyle : String
  deriving DecidableEq, Repr

inductive Command where
  | run (request : RunRequest)
  | validate (graph : String)
  deriving DecidableEq, Repr

namespace Command

def files (command : Command) : List String :=
  let texts := match command with
    | .run request => request.graph :: request.flows ++ request.connectors.toList
    | .validate graph => [graph]
  texts.map fun text => (FilePath.ofText text).text

def usage : String :=
  "usage: nexflow run GRAPH [--input JSON] [--flow FILE]... [--connectors FILE]\n" ++
    "                   [--max-steps N] [--log-level LEVEL] [--log-format auto|human|json]\n" ++
    "       nexflow validate GRAPH\n"

def runFlags : List Flag :=
  helpFlag :: ["--input", "--flow", "--connectors", "--max-steps", "--log-level", "--log-format"].map
    (⟨·, true⟩)

def validateFlags : List Flag := [helpFlag]

def runAccepts (name value : String) : Bool :=
  if name == "--max-steps" then (Numeral.int? value).isSome
  else if name == "--log-format" then ["auto", "human", "json"].contains value
  else true

def nothing : Given := ⟨none, [], false⟩

def onlyWord (given : Given) : Except Refusal String :=
  match given.word, given.surplus with
  | some word, false => .ok word
  | _, _ => .error .usage

def lastValue? (given : Given) (name : String) : Option String :=
  ((given.values.filter (·.1 == name)).getLast?).map (·.2)

def runOf (arguments : List String) : Except Refusal Command := do
  let given ← gather runAccepts (← tokens runFlags arguments) nothing
  let graph ← onlyWord given
  .ok (.run {
    graph
    input := lastValue? given "--input"
    flows := (given.values.filter (·.1 == "--flow")).map (·.2)
    connectors := lastValue? given "--connectors"
    maxSteps := (lastValue? given "--max-steps").bind Numeral.int?
    logLevel := (lastValue? given "--log-level").getD "WARNING"
    logStyle := (lastValue? given "--log-format").getD "auto" })

def validateOf (arguments : List String) : Except Refusal Command := do
  let given ← gather (fun _ _ => true) (← tokens validateFlags arguments) nothing
  .ok (.validate (← onlyWord given))

def ofWord (word : String) (arguments : List String) : Except Refusal Command :=
  if word == "run" then runOf arguments
  else if word == "validate" then validateOf arguments
  else .error .usage

/-- The command of a row of arguments. What stands before the word of the command is only good for
asking for help. -/
def ofArguments : List String → Except Refusal Command
  | [] => .error .usage
  | argument :: rest => do
    if argument == "--" then .error .usage
    else
      match ← token [helpFlag] argument with
      | .word word => ofWord word rest
      | .option _ none => .error .help
      | .option _ (some _) => .error .usage
      | _ =>
        match ofArguments rest with
        | .error .help => .error .help
        | _ => .error .usage

end Command

end FlowEngine.CommandLine
