/-!
# Binary64 numbers

A double is held as sign, mantissa and binary exponent, and every operation computes the exact
rational result and rounds it once, to the nearest double and on a tie to the even mantissa. Nothing
here depends on machine arithmetic, so equalities of closed terms can be decided.
-/

namespace FlowEngine

/-- A binary64 number. `finite negative m e` stands for `m · 2 ^ e` with its sign; the functions of
this module only build canonical ones, with `m < 2 ^ 53`, `-1074 ≤ e ≤ 971` and, unless
`e = -1074`, `2 ^ 52 ≤ m`. -/
inductive Double where
  | nan
  | infinite (negative : Bool)
  | finite (negative : Bool) (mantissa : Nat) (exponent : Int)
  deriving DecidableEq, Repr, Inhabited

namespace Double

def zeroOf (negative : Bool) : Double := .finite negative 0 (-1074)

def divideHalfEven (num den : Nat) : Nat :=
  let quotient := num / den
  let remainder := num % den
  if 2 * remainder < den then quotient
  else if den < 2 * remainder then quotient + 1
  else quotient + quotient % 2

/-- The fraction `num / den` divided by `2 ^ e`. -/
def scaleDown (num den : Nat) (e : Int) : Nat × Nat :=
  if e < 0 then (num * Nat.pow 2 e.natAbs, den) else (num, den * Nat.pow 2 e.natAbs)

/-- The largest `b` with `2 ^ b ≤ num / den`, for positive `num` and `den`. -/
def binaryOrder (num den : Nat) : Int :=
  let guess : Int := num.log2 - den.log2
  let (n, d) := scaleDown num den guess
  if d ≤ n then guess else guess - 1

/-- The double nearest to a fraction with positive denominator; beyond the largest finite double the
result is infinite. -/
def ofRatio (negative : Bool) (num den : Nat) : Double :=
  if num = 0 then zeroOf negative
  else
    let e := max (binaryOrder num den - 52) (-1074)
    let (n, d) := scaleDown num den e
    let m := divideHalfEven n d
    let (m, e) := if m = Nat.pow 2 53 then (Nat.pow 2 52, e + 1) else (m, e)
    if e > 971 then .infinite negative else .finite negative m e

def ofBinary (negative : Bool) (m : Nat) (e : Int) : Double :=
  if e < 0 then ofRatio negative m (Nat.pow 2 e.natAbs)
  else ofRatio negative (m * Nat.pow 2 e.natAbs) 1

/-- The double nearest to `digits · 10 ^ e`. Far outside the range of doubles the power is not
computed: `places` is the number of decimal digits of `digits`. -/
def ofDecimal (negative : Bool) (digits : Nat) (places : Nat) (e : Int) : Double :=
  if digits = 0 then zeroOf negative
  else if places + e > 400 then .infinite negative
  else if places + e < -400 then zeroOf negative
  else if e < 0 then ofRatio negative digits (Nat.pow 10 e.natAbs)
  else ofRatio negative (digits * Nat.pow 10 e.natAbs) 1

def ofInteger (n : Int) : Double := ofRatio (n < 0) n.natAbs 1

def ofInt? (n : Int) : Option Double :=
  match ofInteger n with
  | .infinite _ => none
  | d => some d

def ofNat (n : Nat) : Double := ofRatio false n 1

def isNan : Double → Bool
  | .nan => true
  | _ => false

def isFinite : Double → Bool
  | .finite .. => true
  | _ => false

def isZero : Double → Bool
  | .finite _ m _ => m == 0
  | _ => false

def signed (negative : Bool) (m : Nat) : Int := if negative then -(m : Int) else m

/-- Mantissas of two finite doubles over their smaller exponent. -/
def align (m₁ : Int) (e₁ : Int) (m₂ : Int) (e₂ : Int) : Int × Int × Int :=
  let e := min e₁ e₂
  (m₁ * Nat.pow 2 (e₁ - e).natAbs, m₂ * Nat.pow 2 (e₂ - e).natAbs, e)

def compare? : Double → Double → Option Ordering
  | .nan, _ | _, .nan => none
  | .infinite s, .infinite t => some (if s = t then .eq else if s then .lt else .gt)
  | .infinite s, .finite .. => some (if s then .lt else .gt)
  | .finite .., .infinite t => some (if t then .gt else .lt)
  | .finite s m₁ e₁, .finite t m₂ e₂ =>
    let (a, b, _) := align (signed s m₁) e₁ (signed t m₂) e₂
    some (compare a b)

/-- Equality of values: the two zeros are equal and a NaN equals nothing. -/
def sameValue (a b : Double) : Bool := compare? a b == some .eq

def less (a b : Double) : Bool := compare? a b == some .lt

def lessOrSame (a b : Double) : Bool := less a b || sameValue a b

def negate : Double → Double
  | .nan => .nan
  | .infinite s => .infinite !s
  | .finite s m e => .finite (!s) m e

def add : Double → Double → Double
  | .nan, _ | _, .nan => .nan
  | .infinite s, .infinite t => if s = t then .infinite s else .nan
  | .infinite s, .finite .. | .finite .., .infinite s => .infinite s
  | .finite s m₁ e₁, .finite t m₂ e₂ =>
    let (a, b, e) := align (signed s m₁) e₁ (signed t m₂) e₂
    let total := a + b
    if total = 0 then zeroOf (s && t) else ofBinary (total < 0) total.natAbs e

def sub (a b : Double) : Double := add a (negate b)

def mul : Double → Double → Double
  | .nan, _ | _, .nan => .nan
  | .infinite s, .infinite t => .infinite (s != t)
  | .infinite s, .finite t m _ | .finite t m _, .infinite s =>
    if m = 0 then .nan else .infinite (s != t)
  | .finite s m₁ e₁, .finite t m₂ e₂ => ofBinary (s != t) (m₁ * m₂) (e₁ + e₂)

/-- Division. A caller has to exclude a zero divisor: the quotient by zero is a NaN here. -/
def div : Double → Double → Double
  | .nan, _ | _, .nan => .nan
  | .infinite _, .infinite _ => .nan
  | .infinite s, .finite t m _ => if m = 0 then .nan else .infinite (s != t)
  | .finite s _ _, .infinite t => zeroOf (s != t)
  | .finite s m₁ e₁, .finite t m₂ e₂ =>
    if m₂ = 0 then .nan
    else
      let e := e₁ - e₂
      if e < 0 then ofRatio (s != t) m₁ (m₂ * Nat.pow 2 e.natAbs)
      else ofRatio (s != t) (m₁ * Nat.pow 2 e.natAbs) m₂

def isWhole : Double → Bool
  | .finite _ m e => e ≥ 0 || m % Nat.pow 2 e.natAbs == 0
  | _ => false

def truncate : Double → Int
  | .finite s m e => signed s (if e < 0 then m / Nat.pow 2 e.natAbs else m * Nat.pow 2 e.natAbs)
  | _ => 0

def floor (d : Double) : Int :=
  if d.isWhole || !less d (zeroOf false) then d.truncate else d.truncate - 1

def magnitude : Double → Double
  | .nan => .nan
  | .infinite _ => .infinite false
  | .finite _ m e => .finite false m e

/-- The natural number nearest to the magnitude of a finite double; a half goes up. -/
def nearestNat : Double → Nat
  | .finite _ m e =>
    if e < 0 then (2 * m + Nat.pow 2 e.natAbs) / (2 * Nat.pow 2 e.natAbs)
    else m * Nat.pow 2 e.natAbs
  | _ => 0

end Double

end FlowEngine
