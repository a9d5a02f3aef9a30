import FlowEngine.Data.Inline
import FlowEngine.Fault
import FlowEngine.Number.Numeral

/-!
# Arithmetic on values

Operands become doubles before anything is computed, and a whole result becomes an integer again.
A sum of anything but two numbers is the joined text of both.
-/

namespace FlowEngine

inductive Operator where
  | plus
  | minus
  | times
  | over
  deriving DecidableEq, Repr

namespace Operator

/-- The sign of an operator with the spaces it needs around it. -/
def spelled : Operator → List Char
  | .plus => " + ".toList
  | .minus => " - ".toList
  | .times => " * ".toList
  | .over => " / ".toList

/-- The order in which operators are looked for. -/
def all : List Operator := [.plus, .minus, .times, .over]

end Operator

namespace Value

/-- The double of a number, a fault when an integer is too large for one. -/
def Numeric.toDouble : Numeric → Except Fault Double
  | .double d => .ok d
  | .int n =>
    match Double.ofInt? n with
    | some d => .ok d
    | none => .error .integerTooLarge

/-- The double that a value stands for as an operand; NaN when it stands for none. -/
def asDouble : Value → Except Fault Double
  | .null => .ok .nan
  | .bool _ => .ok .nan
  | .int n => Numeric.toDouble (.int n)
  | .double d => .ok d
  | v => .ok ((Numeral.ofText? v.display).getD .nan)

/-- A whole finite double becomes an integer. -/
def ofDouble (d : Double) : Value := if d.isWhole then .int d.truncate else .double d

/-- The difference, product or quotient of two doubles; the empty text when there is none. -/
def combine (op : Operator) (a b : Double) : Value :=
  let result :=
    match op with
    | .plus => Double.add a b
    | .minus => Double.sub a b
    | .times => Double.mul a b
    | .over => if b.isZero then .nan else Double.div a b
  if result.isNan then .text "" else ofDouble result

def evaluate (op : Operator) (left right : Value) : Except Fault Value :=
  match op, left.numeric?, right.numeric? with
  | .plus, some a, some b => do .ok (ofDouble (Double.add (← a.toDouble) (← b.toDouble)))
  | .plus, _, _ => .ok (.text (left.inline ++ right.inline))
  | op, _, _ => do
    let a ← left.asDouble
    let b ← right.asDouble
    if a.isNan || b.isNan then .ok (.text "") else .ok (combine op a b)

end Value

end FlowEngine
