import FlowEngine.Number.Double

/-!
# Decimal texts of doubles

The default text of a double has the fewest decimal digits that read back as the same double and,
of those, the nearest. `fewestDigits` finds them on the exact value; the functions after it fix the
notation.
-/

namespace FlowEngine.Double

def decimalChars (n : Nat) : List Char := Nat.toDigits 10 n

def powerAtMost (k : Int) (num den : Nat) : Bool :=
  if k < 0 then den ≤ num * Nat.pow 10 k.natAbs else den * Nat.pow 10 k.natAbs ≤ num

/-- Raises `k` while the next power of ten still fits, at most `steps` times. -/
def raiseOrder (num den : Nat) : Nat → Int → Int
  | 0, k => k
  | steps + 1, k => if powerAtMost (k + 1) num den then raiseOrder num den steps (k + 1) else k

/-- The largest `k` with `10 ^ k ≤ num / den`, for positive `num` and `den`. -/
def decimalOrder (num den : Nat) : Int :=
  raiseOrder num den 4 (Int.fdiv (binaryOrder num den * 30103) 100000 - 2)

/-- The double `m · 2 ^ e` and the ends of the interval of reals that round to it, in quarters of
the mantissa's unit: below a power of two the gap is half as wide. -/
def roundingInterval (m : Nat) (e : Int) : Nat × Nat × Nat :=
  (if m = Nat.pow 2 52 ∧ e > -1074 then 4 * m - 1 else 4 * m - 2, 4 * m, 4 * m + 2)

/-- The nearest grid point `c · 10 ^ k` of those that read back as `m · 2 ^ e`, if one does. -/
def onGrid? (m : Nat) (e : Int) (k : Int) : Option Nat :=
  let (low, mid, high) := roundingInterval m e
  let e := e - 2
  let unit := (if e < 0 then 1 else Nat.pow 2 e.natAbs) * (if k < 0 then Nat.pow 10 k.natAbs else 1)
  let step := (if k < 0 then 1 else Nat.pow 10 k.natAbs) * (if e < 0 then Nat.pow 2 e.natAbs else 1)
  let inside (c : Nat) : Bool :=
    if m % 2 = 0 then low * unit ≤ c * step && c * step ≤ high * unit
    else low * unit < c * step && c * step < high * unit
  let below := mid * unit / step
  match inside below, inside (below + 1) with
  | true, true =>
    let down := mid * unit - below * step
    let up := (below + 1) * step - mid * unit
    some (if down < up || (down == up && below % 2 == 0) then below else below + 1)
  | true, false => some below
  | false, true => some (below + 1)
  | false, false => none

def searchGrid (m : Nat) (e : Int) : Nat → Int → Nat × Int
  | 0, k => ((onGrid? m e k).getD 0, k)
  | steps + 1, k =>
    match onGrid? m e k with
    | some c => (c, k)
    | none => searchGrid m e steps (k - 1)

/-- The fewest digits that read back as the positive double `m · 2 ^ e`, as a whole number and a
power of ten. -/
def fewestDigits (m : Nat) (e : Int) : Nat × Int :=
  let order :=
    if e < 0 then decimalOrder m (Nat.pow 2 e.natAbs) else decimalOrder (m * Nat.pow 2 e.natAbs) 1
  searchGrid m e 17 order

/-- Drops zeros at the end of a row of digits, but not the first digit. -/
def dropFinalZeros (digits : List Char) : List Char :=
  match (digits.reverse.dropWhile (· == '0')).reverse with
  | [] => ['0']
  | kept => kept

/-- Digits with the point after the first `point` of them, zeros filled in on either side. -/
def positional (digits : List Char) (point : Int) : List Char × List Char :=
  if point ≤ 0 then (['0'], List.replicate point.natAbs '0' ++ digits)
  else
    let whole := point.natAbs
    if digits.length ≤ whole then (digits ++ List.replicate (whole - digits.length) '0', [])
    else (digits.take whole, digits.drop whole)

def exponentChars (e : Int) : List Char :=
  let digits := decimalChars e.natAbs
  (if e < 0 then '-' else '+') :: (if digits.length < 2 then '0' :: digits else digits)

def scientific (digits : List Char) (e : Int) : List Char :=
  match digits with
  | [] => []
  | [d] => d :: 'e' :: exponentChars e
  | d :: rest => d :: '.' :: rest ++ 'e' :: exponentChars e

def signChars (negative : Bool) : List Char := if negative then ['-'] else []

/-- The default text: positional from `1e-4` up to, but not including, `1e16`, with `.0` after a
whole number, and exponent notation outside that range. -/
def text : Double → String
  | .nan => "nan"
  | .infinite s => if s then "-inf" else "inf"
  | .finite s m e =>
    if m = 0 then (if s then "-0.0" else "0.0")
    else
      let (c, k) := fewestDigits m e
      let all := decimalChars c
      let digits := dropFinalZeros all
      let point := k + all.length
      if -4 < point && point ≤ 16 then
        let (whole, part) := positional digits point
        String.ofList (signChars s ++ whole ++ '.' :: (if part.isEmpty then ['0'] else part))
      else String.ofList (signChars s ++ scientific digits (point - 1))

/-- The value of `m · 2 ^ e` divided by `10 ^ k`, rounded to a whole number, a tie to even. -/
def roundToGrid (m : Nat) (e k : Int) : Nat :=
  let num := m * (if e < 0 then 1 else Nat.pow 2 e.natAbs) *
    (if k < 0 then Nat.pow 10 k.natAbs else 1)
  let den := (if e < 0 then Nat.pow 2 e.natAbs else 1) *
    (if k < 0 then 1 else Nat.pow 10 k.natAbs)
  divideHalfEven num den

def fixed (places : Nat) : Double → String
  | .nan => "nan"
  | .infinite s => if s then "-inf" else "inf"
  | .finite s m e =>
    let digits := decimalChars (roundToGrid m e (-(places : Int)))
    let padded := List.replicate (places + 1 - digits.length) '0' ++ digits
    let whole := padded.length - places
    String.ofList (signChars s ++ padded.take whole ++ '.' :: padded.drop whole)

/-- Six significant digits without zeros at the end, positional while the exponent is between
`-4` and `5`. -/
def brief : Double → String
  | .nan => "nan"
  | .infinite s => if s then "-inf" else "inf"
  | .finite s m e =>
    if m = 0 then (if s then "-0" else "0")
    else
      let order :=
        if e < 0 then decimalOrder m (Nat.pow 2 e.natAbs)
        else decimalOrder (m * Nat.pow 2 e.natAbs) 1
      let c := roundToGrid m e (order - 5)
      let (c, order) := if c = Nat.pow 10 6 then (Nat.pow 10 5, order + 1) else (c, order)
      let digits := dropFinalZeros (decimalChars c)
      if -4 ≤ order && order < 6 then
        let (whole, part) := positional digits (order + 1)
        String.ofList (signChars s ++ whole ++ (if part.isEmpty then [] else '.' :: part))
      else String.ofList (signChars s ++ scientific digits order)

end FlowEngine.Double
