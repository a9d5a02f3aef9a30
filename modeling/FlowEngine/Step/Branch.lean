import FlowEngine.Condition.Compare
import FlowEngine.Step.RunScript

/-!
# Branches

A branch compares two operands or asks a script. It succeeds where the condition holds and fails
where it does not, so that the edges of the two statuses are its two ways out.
-/

namespace FlowEngine.Step.Branch

def statusOf (holds : Bool) : Status := if holds then .success else .failure

/-- The text of an operand with its references resolved; nothing when it is missing. -/
def operand (node : Node) (key : String) : Work (Option String) := do
  match node.setting key with
  | .null => return none
  | v => return some (← Work.resolve (← Work.scope) v.inline)

def compare (node : Node) : Work Outcome := do
  let operator := node.setting "operator"
  if operator.isVoid then
    return Outcome.failedWith node ("DECISION node '" ++ node.displayName ++ "' has no operator")
  let left ← operand node "left"
  let right ← operand node "right"
  let holds := Condition.branchHolds left (some operator.display) right
  Work.note (Log.line .debug Log.Logger.decision
    ("Decision " ++ (Value.ofText? left).nested ++ " " ++ operator.display ++ " " ++
      (Value.ofText? right).nested ++ " -> " ++ (Value.bool holds).nested))
  return Outcome.plain node (statusOf holds)
    [("result", .bool holds), ("left", Value.ofText? left), ("operator", operator),
      ("right", Value.ofText? right)]

def askScript (node : Node) : Work Outcome := do
  match scriptCode? node with
  | none =>
    return Outcome.failedWith node ("DECISION node '" ++ node.displayName ++ "' has no code")
  | some code =>
    let language := scriptLanguage node
    match ← runScript language code with
    | .failed error =>
      return Outcome.failedWith node ("Decision script failed: " ++ error.display)
    | .finished output =>
      let holds := Condition.isTrue output
      return Outcome.plain node (statusOf holds)
        [("result", .bool holds), ("raw", output), ("language", .text language)]

/-- A branch asks a script in the mode for code and compares in any other. -/
def execute : Executor := fun node =>
  if Text.lower (Text.trim (node.textSetting "mode" "simple")) == "code" then askScript node
  else compare node

end FlowEngine.Step.Branch
