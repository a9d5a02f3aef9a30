import FlowEngine.Data.Value
import FlowEngine.Expression.Arithmetic

/-!
# Configured limits

A limit is a setting, so it may be a value of any kind. A count is compared with a number or a truth
value; with anything else it has no order.

Who waits may do so for as long as it takes or for a time. The time is a setting too.
-/

namespace FlowEngine.Limit

/-- The least count that comes up to a double; nothing when no count does. -/
def ceiling? : Double → Option Int
  | d =>
    if d.isFinite then
      let whole := d.truncate
      some (if Double.less ((Double.ofInt? whole).getD .nan) d then whole + 1 else whole)
    else if Double.less d (.ofNat 0) then some 0
    else none

/-- Room for as many steps as any run can make where no count comes up to the limit. -/
def unbounded : Nat := Nat.pow 2 64

/-- The least count that comes up to a limit. A limit without an order to counts is a fault of the
comparison by which it was asked for. -/
def least (comparison : String) : Value → Except Fault Nat
  | .int n => .ok n.toNat
  | .bool b => .ok (if b then 1 else 0)
  | .double d => .ok ((ceiling? d).map Int.toNat |>.getD unbounded)
  | v => .error (.notOrdered comparison "int" v.kindName)

def reached (limit : Value) (count : Nat) : Except Fault Bool :=
  (least ">=" limit).map fun least => decide (least ≤ count)

def exceeded (limit : Value) (count : Nat) : Except Fault Bool :=
  match limit with
  | .int n => .ok (decide (n < count))
  | .bool b => .ok (decide ((if b then 1 else 0) < count))
  | .double d => .ok (Double.less d (.ofNat count))
  | v => .error (.notOrdered ">" "int" v.kindName)

end FlowEngine.Limit

namespace FlowEngine

inductive Patience where
  | unlimited
  /-- For a time, which is over when nothing else is left to happen. -/
  | limited
  | spent
  deriving DecidableEq, Repr

/-- The patience of someone who waits for so many seconds. Null sets no limit. A time must have an
order to counts, and a double near enough to stand for it. -/
def Patience.ofSeconds : Value → Except Fault Patience
  | .null => .ok .unlimited
  | v =>
    match Limit.least "<=" v with
    | .error _ => .error (.notOrdered "<=" v.kindName "int")
    | .ok 0 => .ok .spent
    | .ok _ => do
      let _ ← v.asDouble
      .ok .limited

end FlowEngine
