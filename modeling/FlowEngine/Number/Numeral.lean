import FlowEngine.Number.Double
import FlowEngine.Text.Blank
import FlowEngine.Text.Digit

/-!
# Reading numerals

A numeral for a double is an optional sign and either digits with an optional point and exponent, or
one of the words for infinity and not-a-number in any case. Digits may be of any script, and single
underscores may stand between digits.
-/

def FlowEngine.digitLimit : Nat := 4300

namespace FlowEngine.Numeral

open FlowEngine.Text

/-- Digits of any script become ASCII digits and white space becomes a space. -/
def plainChar (c : Char) : Char :=
  match digitValue? c with
  | some d => Char.ofNat (48 + d)
  | none => if isBlank c then ' ' else c

/-- Removes underscores, each of which has to stand between two digits. -/
def dropUnderscores : Option Char → List Char → Option (List Char)
  | _, [] => some []
  | before, '_' :: rest =>
    let digitAt (c : Option Char) : Bool := c.any Char.isDigit
    if digitAt before && digitAt rest.head? then dropUnderscores (some '_') rest else none
  | _, c :: rest => (dropUnderscores (some c) rest).map (c :: ·)

def spanDigits (s : List Char) : List Char × List Char :=
  (s.takeWhile Char.isDigit, s.dropWhile Char.isDigit)

def natOfDigits (s : List Char) : Nat := s.foldl (fun total c => 10 * total + (c.toNat - 48)) 0

/-- The number written by ASCII digits, put together from those of the two halves: a long row of digits
costs far less this way. The halves are halved again as often as `depth` says. -/
def natByHalves : Nat → List Char → Nat
  | 0, s => natOfDigits s
  | depth + 1, s =>
    let half := s.length / 2
    natByHalves depth (s.take half) * Nat.pow 10 (s.length - half) + natByHalves depth (s.drop half)

def natOfRow (s : List Char) : Nat := natByHalves (s.length / 256).log2 s

theorem foldl_digits (s : List Char) (n : Nat) :
    s.foldl (fun total c => 10 * total + (c.toNat - 48)) n =
      n * Nat.pow 10 s.length + natOfDigits s := by
  induction s generalizing n with
  | nil => simp [natOfDigits]
  | cons c s ih =>
    have hpow : Nat.pow 10 (s.length + 1) = Nat.pow 10 s.length * 10 := rfl
    rw [natOfDigits, List.foldl_cons, List.foldl_cons, ih, ih, List.length_cons, hpow,
      Nat.add_mul, Nat.add_mul]
    rw [Nat.mul_comm 10 n, Nat.mul_assoc, Nat.mul_comm 10 (Nat.pow 10 s.length), Nat.mul_zero,
      Nat.zero_mul, Nat.zero_add, Nat.add_assoc]

theorem natOfDigits_append (s t : List Char) :
    natOfDigits (s ++ t) = natOfDigits s * Nat.pow 10 t.length + natOfDigits t := by
  rw [natOfDigits, List.foldl_append, foldl_digits, ← natOfDigits]

theorem natByHalves_eq (depth : Nat) (s : List Char) : natByHalves depth s = natOfDigits s := by
  induction depth generalizing s with
  | zero => rfl
  | succ depth ih =>
    rw [natByHalves, ih, ih, ← List.length_drop, ← natOfDigits_append, List.take_append_drop]

theorem natOfRow_eq (s : List Char) : natOfRow s = natOfDigits s := natByHalves_eq _ s

def spanSign : List Char → Bool × List Char
  | '-' :: rest => (true, rest)
  | '+' :: rest => (false, rest)
  | s => (false, s)

/-- The exponent part, which has to end the text. An exponent of more than nine digits is as good as
ten to the ninth. -/
def exponent? : List Char → Option Int
  | [] => some 0
  | c :: rest =>
    if c == 'e' || c == 'E' then
      let (negative, rest) := spanSign rest
      let (digits, rest) := spanDigits rest
      if digits.isEmpty || !rest.isEmpty then none
      else
        let digits := digits.dropWhile (· == '0')
        let size := if digits.length > 9 then 1000000000 else natOfDigits digits
        some (if negative then -(size : Int) else size)
    else none

def magnitude? (negative : Bool) (s : List Char) : Option Double :=
  let (whole, rest) := spanDigits s
  let (part, rest) :=
    match rest with
    | '.' :: rest => spanDigits rest
    | _ => ([], rest)
  if whole.isEmpty && part.isEmpty then none
  else
    (exponent? rest).map fun e =>
      let digits := (whole ++ part).dropWhile (· == '0')
      Double.ofDecimal negative (natOfRow digits) digits.length (e - part.length)

def double? (s : List Char) : Option Double :=
  match (if s.contains '_' then dropUnderscores none (s.map plainChar)
         else some (s.map plainChar)) with
  | none => none
  | some plain =>
    let (negative, body) := spanSign plain
    let word := String.ofList (body.map Char.toLower)
    if word == "inf" || word == "infinity" then some (.infinite negative)
    else if word == "nan" then some .nan
    else magnitude? negative body

def ofText? (s : String) : Option Double := double? (trimChars s.toList)

def int? (s : String) : Option Int := do
  let plain ← dropUnderscores none ((trimChars s.toList).map plainChar)
  let (negative, digits) := spanSign plain
  if digits.isEmpty || !digits.all Char.isDigit || digits.length > digitLimit then none
  else
    let n := natOfDigits digits
    some (if negative then -(n : Int) else n)

end FlowEngine.Numeral
