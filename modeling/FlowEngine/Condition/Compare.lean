import FlowEngine.Data.Display
import FlowEngine.Number.Numeral
import FlowEngine.Text.Case
import FlowEngine.Text.Search

/-!
# Comparing operands

Operands arrive as text. They are compared as numbers when both are numerals, and as text otherwise.
A branch names its comparison by a word, a loop by a sign.
-/

namespace FlowEngine.Condition

/-- The number a text denotes; a blank text and not-a-number denote none. -/
def number? (text : Option String) : Option Double :=
  match text with
  | none => none
  | some s =>
    match Numeral.ofText? s with
    | some d => if d.isNan then none else some d
    | none => none

inductive Relation where
  | greater
  | less
  | atLeast
  | atMost
  | equal
  | different
  | contains
  deriving DecidableEq, Repr

def relation? (word : String) : Option Relation :=
  match Text.upper (Text.trim word) with
  | "GT" => some .greater
  | "LT" => some .less
  | "GTE" => some .atLeast
  | "LTE" => some .atMost
  | "EQ" => some .equal
  | "NEQ" => some .different
  | "CONTAINS" => some .contains
  | _ => none

def Relation.holdsForNumbers (r : Relation) (a b : Double) : Bool :=
  match r with
  | .greater => Double.less b a
  | .less => Double.less a b
  | .atLeast => Double.lessOrSame b a
  | .atMost => Double.lessOrSame a b
  | .equal => Double.sameValue a b
  | .different => !Double.sameValue a b
  | .contains => false

def Relation.holdsForTexts (r : Relation) (a b : String) : Bool :=
  match r with
  | .equal => a == b
  | .different => a != b
  | .contains => Text.containsText a b
  | _ => false

/-- Whether the comparison of a branch holds. A missing operand counts as the empty text where texts
are compared; an unknown word never holds. -/
def branchHolds (left : Option String) (word : Option String) (right : Option String) : Bool :=
  match relation? (word.getD "") with
  | none => false
  | some r =>
    match number? left, number? right with
    | some a, some b => r.holdsForNumbers a b
    | _, _ => r.holdsForTexts (left.getD "") (right.getD "")

inductive Sign where
  | equal
  | different
  | atMost
  | atLeast
  | less
  | greater
  deriving DecidableEq, Repr

namespace Sign

def spelled : Sign → List Char
  | .equal => ['=', '=']
  | .different => ['!', '=']
  | .atMost => ['<', '=']
  | .atLeast => ['>', '=']
  | .less => ['<']
  | .greater => ['>']

/-- The order in which signs are looked for: those of two characters first. -/
def all : List Sign := [.equal, .different, .atMost, .atLeast, .less, .greater]

def ofText? (s : String) : Option Sign := all.find? fun sign => sign.spelled = s.toList

/-- The sign between two things of which it is known whether they are equal and whether the first
comes before the second or after it. -/
def holds (sign : Sign) (same before after : Bool) : Bool :=
  match sign with
  | .equal => same
  | .different => !same
  | .atMost => before || same
  | .atLeast => after || same
  | .less => before
  | .greater => after

end Sign

def cutAtSign (s : List Char) : List Sign → Option (String × Sign × String)
  | [] => none
  | sign :: rest =>
    match Text.splitFirst? sign.spelled s with
    | some (left, right) =>
      some (String.ofList (Text.trimChars left), sign, String.ofList (Text.trimChars right))
    | none => cutAtSign s rest

def splitCondition (condition : String) : Option (String × Sign × String) :=
  cutAtSign condition.toList Sign.all

def isTruthWord (s : String) : Bool := Text.lower s == "true" || Text.lower s == "false"

/-- Whether the comparison of a loop holds: of numbers, of truth values when the left side is one,
for which there is no order, and of texts. -/
def loopHolds (left : String) (sign : Sign) (right : String) : Bool :=
  match number? (some left), number? (some right) with
  | some a, some b => sign.holds (Double.sameValue a b) (Double.less a b) (Double.less b a)
  | _, _ =>
    if isTruthWord left then
      let same := (Text.lower left == "true") == (Text.lower right == "true")
      match sign with
      | .equal => same
      | .different => !same
      | _ => false
    else sign.holds (left == right) (left < right) (right < left)

/-- Whether the result of a script counts as true: null, zero, blank text and the word `false` do
not. -/
def isTrue : Value → Bool
  | .null => false
  | .bool b => b
  | .int n => n != 0
  | .double d => !d.isZero
  | .text s =>
    let trimmed := Text.trim s
    !trimmed.isEmpty && Text.lower trimmed != "false"
  | _ => true

end FlowEngine.Condition
