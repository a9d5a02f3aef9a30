import FlowEngine.Condition.Compare
import FlowEngine.Data.Display
import FlowEngine.Fault

/-!
# Operands of any kind

Operands that are not text are compared as numbers where their texts are numerals, and as what they
are otherwise. Then some comparisons are faults. Of texts, the comparison of a branch is the one that
branches make.
-/

namespace FlowEngine.Condition

/-- Whether two operands are the same: numbers and truth values by what they count, instants by their
moment, and all else as data. -/
def sameOperand : Value → Value → Bool
  | .instant a, .instant b => a.sameMoment b
  | .double a, .double b => Double.sameValue a b
  | .bool a, .int n => n == a.toInt
  | .int n, .bool a => n == a.toInt
  | .bool a, .double d => Double.sameValue d (.ofNat a.toNat)
  | .double d, .bool a => Double.sameValue d (.ofNat a.toNat)
  | a, b => decide (a = b)

def containsOperand : Value → Value → Except Fault Bool
  | .text whole, .text part => .ok (Text.containsText whole part)
  | .text _, part => .error (.notIterable part.kindName)
  | .list items, part => .ok (items.any (sameOperand part))
  | .object fields, .text key => .ok (Entries.has fields key)
  | .object _, .list _ => .error (.notAKey "list")
  | .object _, .object _ => .error (.notAKey "dict")
  | .object _, _ => .ok false
  | whole, _ => .error (.notIterable whole.kindName)

def Relation.holdsFor (r : Relation) (a b : Value) : Except Fault Bool :=
  match r with
  | .equal => .ok (sameOperand a b)
  | .different => .ok (!sameOperand a b)
  | .contains => containsOperand a b
  | _ => .ok false

def operandText? : Value → Option String
  | .null => none
  | v => some v.display

def wordOf : Value → Except Fault String
  | .text word => .ok word
  | v => if v.isVoid then .ok "" else .error (.noOperation v.kindName "strip")

/-- Whether the comparison of a branch holds of operands of any kind. Absent operands count as the
empty text where they are not compared as numbers. -/
def operandsHold (left word right : Value) : Except Fault Bool := do
  match relation? (← wordOf word) with
  | none => .ok false
  | some r =>
    match number? (operandText? left), number? (operandText? right) with
    | some a, some b => .ok (r.holdsForNumbers a b)
    | _, _ => r.holdsFor (left.orElse (.text "")) (right.orElse (.text ""))

/-- Of texts the comparison is never a fault. -/
theorem operandsHold_ofText? (left word right : Option String) :
    operandsHold (.ofText? left) (.ofText? word) (.ofText? right) =
      .ok (branchHolds left word right) := by
  have hw : wordOf (.ofText? word) = .ok (word.getD "") := by cases word <;> rfl
  have ht (s : Option String) : operandText? (.ofText? s) = s := by cases s <;> rfl
  have ho (s : Option String) : (Value.ofText? s).orElse (.text "") = .text (s.getD "") := by
    cases s with
    | none => rfl
    | some s =>
      by_cases h : s = ""
      · simp [Value.ofText?, Value.orElse, h]
      · simp [Value.ofText?, Value.orElse, Value.isVoid, h]
  have hr (r : Relation) (a b : String) :
      r.holdsFor (.text a) (.text b) = .ok (r.holdsForTexts a b) := by
    cases r <;> simp [Relation.holdsFor, Relation.holdsForTexts, sameOperand, containsOperand, bne,
      BEq.beq]
  simp only [operandsHold, hw, branchHolds, ht, ho, bind, Except.bind]
  cases relation? (word.getD "") with
  | none => rfl
  | some r => cases number? left <;> cases number? right <;> simp [hr]

def lowered : Value → Except Fault String
  | .text s => .ok (Text.lower s)
  | v => .error (.noOperation v.kindName "lower")

def loopOperandsHold (left sign right : Value) : Except Fault Bool :=
  let sign? := match sign with
    | .text s => Sign.ofText? s
    | _ => none
  match number? (operandText? left), number? (operandText? right) with
  | some a, some b => .ok (sign?.any fun sign =>
      sign.holds (Double.sameValue a b) (Double.less a b) (Double.less b a))
  | _, _ => do
    let word ← lowered left
    if word == "true" || word == "false" then
      let _ ← lowered right
    match left, sign?, right with
    | .text left, some sign, .text right => .ok (loopHolds left sign right)
    | _, some .equal, _ => .ok false
    | _, some .different, _ => .ok true
    | _, some sign, right => .error (.notOrdered (String.ofList sign.spelled) "str" right.kindName)
    | _, none, _ => .ok false

end FlowEngine.Condition
