import FlowEngine.Run.Work

/-!
# Nodes that run a script

A script sees the variables, the outcomes so far, the output of the start node and the saved outputs.
Its output is the result of the node.
-/

namespace FlowEngine.Step

def scriptLanguage (node : Node) : String := node.textSetting "language" Script.defaultLanguage

def scriptCode? (node : Node) : Option String :=
  match node.setting "code" with
  | .text code => if Text.isBlankText code then none else some code
  | _ => none

def runScript (language code : String) : Work Script.Result := do
  let input ← Doing.ofExcept (← Work.context).scriptInput
  let report ← Doing.ask (.script language code input)
  Work.noteAll report.lines
  Doing.ofExcept report.result

def script : Executor := fun node => do
  match scriptCode? node with
  | none =>
    return Outcome.failedWith node
      "SCRIPT node has no code. Open the node and write your script."
  | some code =>
    let language := scriptLanguage node
    match ← runScript language code with
    | .failed error =>
      Work.note (Log.line .info Log.Logger.script
        ("Script in " ++ node.displayName ++ " failed: " ++ error.display))
      match error.orElse (.text "Script failed") with
      | .text message => return Outcome.failedWith node message
      | _ => Doing.fail .unfitResult
    | .finished output =>
      return { Outcome.ofStatus node .success with
        input := some [("language", .text language), ("codeLength", .int code.toList.length)]
        successOutput := some [("result", output), ("language", .text language)] }

end FlowEngine.Step
