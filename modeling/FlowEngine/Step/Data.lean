import FlowEngine.Number.Numeral
import FlowEngine.Run.Work

/-!
# Nodes that write and reshape data

A variable node writes the values of a map into the run one after the other, text that is a number
becoming one. A mapper resolves a map and leaves the run as it is.
-/

namespace FlowEngine.Step

/-- The digits of a whole number written with an optional minus sign. -/
def wholeDigits? (s : List Char) : Option (Bool × List Nat) :=
  match s with
  | '-' :: rest => if rest.isEmpty then none else (Text.digits? rest).map fun ds => (true, ds)
  | rest => if rest.isEmpty then none else (Text.digits? rest).map fun ds => (false, ds)

/-- Whether a text is digits around one point, with an optional minus sign and a digit on one side
at least. -/
def isDecimal (s : List Char) : Bool :=
  let body := match s with | '-' :: rest => rest | rest => rest
  match Text.splitAt '.' body with
  | [whole, part] =>
    whole.all Text.isDigit && part.all Text.isDigit && !(whole.isEmpty && part.isEmpty)
  | _ => false

/-- A value as it is written to a variable: text that is a number becomes that number. -/
def normalized (v : Value) : Except Fault Value :=
  match v with
  | .text s =>
    let chars := Text.trimChars s.toList
    match wholeDigits? chars with
    | some (negative, digits) =>
      if digits.length > digitLimit then .error (.tooManyDigits digits.length)
      else
        let n : Int := Text.digitsValue digits
        .ok (.int (if negative then -n else n))
    | none =>
      if isDecimal chars then .ok (.double ((Numeral.ofText? s).getD .nan)) else .ok v
  | v => .ok v

/-- Writes variables one after the other; what was written before a fault stays. -/
def assign : Entries Value → Work (Entries Value)
  | [] => pure []
  | (key, v) :: rest => do
    let v ← Doing.ofExcept (normalized v)
    Work.change fun context => context.setVariable key v
    return (key, v) :: (← assign rest)

def setVariables : Executor := fun node => do
  let resolved ← Work.resolveAll (← Work.scope) (node.mapSetting "variables")
  let output ← assign resolved
  let names := (output.keys.mergeSort fun a b => !(b < a)).map Value.text
  Work.note (Log.line .debug Log.Logger.data ("Set variables " ++ (Value.list names).nested))
  return Outcome.plain node .success output

def reshape : Executor := fun node => do
  let output ← Work.resolveAll (← Work.scope) (node.mapSetting "output")
  return Outcome.plain node .success output

end FlowEngine.Step
