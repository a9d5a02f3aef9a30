import Mathlib.Data.Int.Log
import Mathlib.Tactic.Linarith
import Mathlib.Tactic.NormNum
import FlowEngine.Proofs.Number.Whole

/-!
# Fractions taken to doubles

A rational number is taken to a double by keeping its first 53 binary digits, fewer near zero. What
stands behind the last digit is rounded to the nearer side, and a half to the even one. Beyond
`2 ^ 1024` the result is an infinity. A number that is a double already stays as it is.

A sum, difference, product or quotient of two finite doubles is the exact result taken to a double.
So what an operation gives depends on nothing but the numbers at which its operands stand.
-/

namespace FlowEngine.Double

/-- The whole number nearest to a rational one; of two that are as near, the even one. -/
def halfEven (x : ℚ) : ℤ :=
  if 2 * Int.fract x < 1 then ⌊x⌋ else if 1 < 2 * Int.fract x then ⌊x⌋ + 1 else ⌊x⌋ + ⌊x⌋ % 2

theorem halfEven_intCast (k : ℤ) : halfEven k = k := by
  simp [halfEven]

theorem floor_le_halfEven (x : ℚ) : ⌊x⌋ ≤ halfEven x := by
  unfold halfEven
  split
  · omega
  · split <;> omega

theorem halfEven_le (x : ℚ) : halfEven x ≤ ⌊x⌋ + 1 := by
  unfold halfEven
  split
  · omega
  · split <;> omega

theorem halfEven_neg (x : ℚ) : halfEven (-x) = -halfEven x := by
  by_cases h : Int.fract x = 0
  · -- A whole number stays.
    have hx : x = (⌊x⌋ : ℚ) := by
      have hsum := Int.floor_add_fract x
      rw [h, add_zero] at hsum
      exact hsum.symm
    rw [hx, ← Int.cast_neg, halfEven_intCast, halfEven_intCast]
  · have hfract : Int.fract (-x) = 1 - Int.fract x := Int.fract_neg h
    have hfloor : ⌊-x⌋ = -⌊x⌋ - 1 := by
      have hx := Int.floor_add_fract x
      have hneg := Int.floor_add_fract (-x)
      rw [hfract] at hneg
      have hcast : ((⌊-x⌋ : ℤ) : ℚ) = ((-⌊x⌋ - 1 : ℤ) : ℚ) := by
        push_cast
        linarith
      exact_mod_cast hcast
    unfold halfEven
    rw [hfract, hfloor]
    by_cases hlow : 2 * Int.fract x < 1
    · rw [if_pos hlow, if_neg (by linarith), if_pos (by linarith)]
      omega
    · by_cases hhigh : 1 < 2 * Int.fract x
      · rw [if_neg hlow, if_pos hhigh, if_pos (by linarith)]
        omega
      · rw [if_neg hlow, if_neg hhigh, if_neg (by linarith), if_neg (by linarith)]
        omega

theorem divideHalfEven_eq {n d : ℕ} (hd : 0 < d) :
    (divideHalfEven n d : ℤ) = halfEven ((n : ℚ) / d) := by
  have hpos : (0 : ℚ) < d := Nat.cast_pos.mpr hd
  have hfloor : ⌊(n : ℚ) / d⌋ = ((n / d : ℕ) : ℤ) := by
    rw [Rat.floor_natCast_div_natCast]
    exact Int.natCast_div n d
  have hlow : 2 * (((n % d : ℕ) : ℚ) / d) < 1 ↔ 2 * (n % d) < d := by
    rw [← mul_div_assoc, div_lt_one hpos]
    exact_mod_cast Iff.rfl
  have hhigh : 1 < 2 * (((n % d : ℕ) : ℚ) / d) ↔ d < 2 * (n % d) := by
    rw [← mul_div_assoc, one_lt_div hpos]
    exact_mod_cast Iff.rfl
  unfold halfEven divideHalfEven
  dsimp only
  rw [Int.fract_div_natCast_eq_div_natCast_mod, hfloor]
  simp only [hlow, hhigh]
  split
  · rfl
  · split
    · push_cast; rfl
    · push_cast; rfl

/-- The exponent of the last binary digit that a double near to a number keeps. -/
def lastDigit (x : ℚ) : ℤ := max (Int.log 2 |x| - 52) (-1074)

/-- A number with what stands behind its first 53 binary digits rounded away. -/
def rounding (x : ℚ) : ℚ := halfEven (x / 2 ^ lastDigit x) * 2 ^ lastDigit x

theorem rounding_neg (x : ℚ) : rounding (-x) = -rounding x := by
  rw [rounding, rounding, lastDigit, abs_neg, ← lastDigit, neg_div, halfEven_neg, Int.cast_neg,
    neg_mul]

theorem zpow_two_pos (e : ℤ) : (0 : ℚ) < 2 ^ e := zpow_pos two_pos e

theorem scaleDown_value (num : ℕ) {den : ℕ} (hd : 0 < den) (e : ℤ) :
    0 < (scaleDown num den e).2 ∧
      ((scaleDown num den e).1 : ℚ) / (scaleDown num den e).2 = (num : ℚ) / den / 2 ^ e := by
  by_cases he : e < 0
  · rw [scaleDown, if_pos he, natPow_eq, zpow_of_neg he]
    refine ⟨hd, ?_⟩
    push_cast
    rw [div_inv_eq_mul, div_mul_eq_mul_div]
  · rw [scaleDown, if_neg he, natPow_eq, zpow_of_not_neg he]
    refine ⟨Nat.mul_pos hd (Nat.two_pow_pos _), ?_⟩
    push_cast
    rw [div_div]

theorem zpow_log2_le {n : ℕ} (hn : n ≠ 0) : (2 : ℚ) ^ (n.log2 : ℤ) ≤ n := by
  rw [zpow_natCast]
  exact_mod_cast Nat.log2_self_le hn

theorem lt_zpow_log2_succ (n : ℕ) : (n : ℚ) < 2 ^ ((n.log2 : ℤ) + 1) := by
  exact_mod_cast (Nat.lt_log2_self : n < 2 ^ (n.log2 + 1))

/-- The order of a fraction is the difference of the orders of its two parts, or one less. -/
theorem log_div_bounds {num den : ℕ} (hn : num ≠ 0) (hd : den ≠ 0) :
    (num.log2 : ℤ) - den.log2 - 1 ≤ Int.log 2 ((num : ℚ) / den) ∧
      Int.log 2 ((num : ℚ) / den) ≤ num.log2 - den.log2 := by
  have hdpos : (0 : ℚ) < den := Nat.cast_pos.mpr (Nat.pos_of_ne_zero hd)
  have hr : (0 : ℚ) < num / den := div_pos (Nat.cast_pos.mpr (Nat.pos_of_ne_zero hn)) hdpos
  constructor
  · rw [← Int.zpow_le_iff_le_log one_lt_two hr, Nat.cast_ofNat, le_div_iff₀ hdpos]
    calc
      (2 : ℚ) ^ ((num.log2 : ℤ) - den.log2 - 1) * den
          ≤ 2 ^ ((num.log2 : ℤ) - den.log2 - 1) * 2 ^ ((den.log2 : ℤ) + 1) :=
        mul_le_mul_of_nonneg_left (lt_zpow_log2_succ den).le (zpow_two_pos _).le
      _ = 2 ^ (num.log2 : ℤ) := by
        rw [← zpow_add₀ two_ne_zero]
        congr 1
        omega
      _ ≤ num := zpow_log2_le hn
  · rw [← Int.lt_add_one_iff, ← Int.lt_zpow_iff_log_lt one_lt_two hr, Nat.cast_ofNat,
      div_lt_iff₀ hdpos]
    calc
      (num : ℚ) < 2 ^ ((num.log2 : ℤ) + 1) := lt_zpow_log2_succ num
      _ = 2 ^ ((num.log2 : ℤ) - den.log2 + 1) * 2 ^ (den.log2 : ℤ) := by
        rw [← zpow_add₀ two_ne_zero]
        congr 1
        omega
      _ ≤ 2 ^ ((num.log2 : ℤ) - den.log2 + 1) * den :=
        mul_le_mul_of_nonneg_left (zpow_log2_le hd) (zpow_two_pos _).le

theorem binaryOrder_eq {num den : ℕ} (hn : num ≠ 0) (hd : den ≠ 0) :
    binaryOrder num den = Int.log 2 ((num : ℚ) / den) := by
  have hr : (0 : ℚ) < num / den :=
    div_pos (Nat.cast_pos.mpr (Nat.pos_of_ne_zero hn)) (Nat.cast_pos.mpr (Nat.pos_of_ne_zero hd))
  obtain ⟨hlow, hhigh⟩ := log_div_bounds hn hd
  -- Which of the two it is, is seen from the fraction over the greater power.
  obtain ⟨hpos, hvalue⟩ := scaleDown_value num (Nat.pos_of_ne_zero hd) ((num.log2 : ℤ) - den.log2)
  have hcompare : (scaleDown num den ((num.log2 : ℤ) - den.log2)).2 ≤
      (scaleDown num den ((num.log2 : ℤ) - den.log2)).1 ↔
        (num.log2 : ℤ) - den.log2 ≤ Int.log 2 ((num : ℚ) / den) := by
    rw [← Int.zpow_le_iff_le_log one_lt_two hr, Nat.cast_ofNat, ← one_le_div (zpow_two_pos _),
      ← hvalue, one_le_div (Nat.cast_pos.mpr hpos), Nat.cast_le]
  simp only [binaryOrder, hcompare]
  split <;> omega

section Fractions

variable {num den : ℕ} (hn : num ≠ 0) (hd : den ≠ 0)

include hn hd

theorem lastDigit_eq :
    max (binaryOrder num den - 52) (-1074) = lastDigit ((num : ℚ) / den) := by
  rw [binaryOrder_eq hn hd, lastDigit, abs_of_nonneg (by positivity)]

/-- A fraction has at most 53 binary digits in front of the last one that is kept, and exactly so many
unless that is the last one that a double can have. -/
theorem scaled_bounds :
    (num : ℚ) / den / 2 ^ lastDigit ((num : ℚ) / den) < 2 ^ 53 ∧
      (-1074 < lastDigit ((num : ℚ) / den) →
        2 ^ 52 ≤ (num : ℚ) / den / 2 ^ lastDigit ((num : ℚ) / den)) := by
  have hr : (0 : ℚ) < num / den :=
    div_pos (Nat.cast_pos.mpr (Nat.pos_of_ne_zero hn)) (Nat.cast_pos.mpr (Nat.pos_of_ne_zero hd))
  have hlast : lastDigit ((num : ℚ) / den) = max (Int.log 2 ((num : ℚ) / den) - 52) (-1074) := by
    rw [lastDigit, abs_of_pos hr]
  constructor
  · rw [div_lt_iff₀ (zpow_two_pos _), ← zpow_natCast, ← zpow_add₀ two_ne_zero]
    exact (Int.lt_zpow_iff_log_lt one_lt_two hr).mpr (by push_cast; omega)
  · intro hnormal
    rw [le_div_iff₀ (zpow_two_pos _), ← zpow_natCast, ← zpow_add₀ two_ne_zero]
    exact (Int.zpow_le_iff_le_log one_lt_two hr).mpr (by push_cast; omega)

/-- The double near to a fraction has the rounded value, unless that is beyond all doubles. -/
theorem ofRatio_eq (negative : Bool) :
    ∃ (m : ℕ) (e : ℤ), ofRatio negative num den =
        (if e > 971 then .infinite negative else .finite negative m e) ∧
      (m : ℚ) * 2 ^ e = rounding ((num : ℚ) / den) ∧ m < 2 ^ 53 ∧ (971 < e → 2 ^ 52 ≤ m) := by
  obtain ⟨hsmall, hlarge⟩ := scaled_bounds hn hd
  obtain ⟨q, hq⟩ : ∃ q, divideHalfEven (scaleDown num den (lastDigit ((num : ℚ) / den))).1
      (scaleDown num den (lastDigit ((num : ℚ) / den))).2 = q := ⟨_, rfl⟩
  obtain ⟨hpos, hvalue⟩ :=
    scaleDown_value num (Nat.pos_of_ne_zero hd) (lastDigit ((num : ℚ) / den))
  have hhalf : (q : ℤ) = halfEven ((num : ℚ) / den / 2 ^ lastDigit ((num : ℚ) / den)) := by
    rw [← hq, divideHalfEven_eq hpos, hvalue]
  have hround : (q : ℚ) * 2 ^ lastDigit ((num : ℚ) / den) = rounding ((num : ℚ) / den) := by
    rw [rounding, ← hhalf, Int.cast_natCast]
  have hle : q ≤ 2 ^ 53 := by
    have hfloor : ⌊(num : ℚ) / den / 2 ^ lastDigit ((num : ℚ) / den)⌋ < 2 ^ 53 :=
      Int.floor_lt.mpr (by exact_mod_cast hsmall)
    have hup := halfEven_le ((num : ℚ) / den / 2 ^ lastDigit ((num : ℚ) / den))
    omega
  have hge : -1074 < lastDigit ((num : ℚ) / den) → 2 ^ 52 ≤ q := by
    intro hnormal
    have hfloor : 2 ^ 52 ≤ ⌊(num : ℚ) / den / 2 ^ lastDigit ((num : ℚ) / den)⌋ :=
      Int.le_floor.mpr (by exact_mod_cast hlarge hnormal)
    have hlow := floor_le_halfEven ((num : ℚ) / den / 2 ^ lastDigit ((num : ℚ) / den))
    omega
  simp only [ofRatio, if_neg hn, lastDigit_eq hn hd, hq, natPow_eq]
  by_cases hcarry : q = 2 ^ 53
  · refine ⟨2 ^ 52, lastDigit ((num : ℚ) / den) + 1, by rw [if_pos hcarry], ?_, by decide,
      fun _ => le_rfl⟩
    rw [← hround, hcarry, zpow_add₀ two_ne_zero, zpow_one]
    push_cast
    ring
  · exact ⟨q, lastDigit ((num : ℚ) / den), by rw [if_neg hcarry], hround, by omega,
      fun he => hge (by omega)⟩

end Fractions

/-- Where a rational number is taken: to the rounded one, and to an infinity where that is beyond all
doubles. -/
def placeOf (x : ℚ) : Place :=
  if 2 ^ 1024 ≤ |rounding x| then (if x < 0 then ⊥ else ⊤) else ((rounding x : ℚ) : WithTop ℚ)

theorem placeOf_zero : placeOf 0 = ((0 : ℚ) : WithTop ℚ) := by
  have hzero : rounding 0 = 0 := by simp [rounding, halfEven]
  rw [placeOf, hzero, if_neg (by norm_num)]

/-- Of the values that `ofRatio_eq` names those are beyond all doubles whose last digit is. -/
theorem two_zpow_le_mul_iff {m : ℕ} {e : ℤ} (hm : m < 2 ^ 53) (hlarge : 971 < e → 2 ^ 52 ≤ m) :
    (2 : ℚ) ^ 1024 ≤ m * 2 ^ e ↔ 971 < e := by
  constructor
  · contrapose!
    intro he
    calc
      (m : ℚ) * 2 ^ e ≤ m * 2 ^ (971 : ℤ) :=
        mul_le_mul_of_nonneg_left (zpow_le_zpow_right₀ one_le_two he) (Nat.cast_nonneg m)
      _ < 2 ^ 53 * 2 ^ (971 : ℤ) :=
        mul_lt_mul_of_pos_right (by exact_mod_cast hm) (zpow_two_pos _)
      _ = 2 ^ 1024 := by
        rw [← zpow_natCast, ← zpow_natCast, ← zpow_add₀ two_ne_zero]
        rfl
  · intro he
    calc
      (2 : ℚ) ^ 1024 = 2 ^ 52 * (2 : ℚ) ^ (972 : ℤ) := by
        rw [← zpow_natCast, ← zpow_natCast, ← zpow_add₀ two_ne_zero]
        rfl
      _ ≤ (m : ℚ) * 2 ^ e := by
        refine mul_le_mul ?_ (zpow_le_zpow_right₀ one_le_two (by omega)) (zpow_two_pos _).le
          (Nat.cast_nonneg m)
        exact_mod_cast hlarge he

theorem place?_fraction (negative : Bool) (num : ℕ) {den : ℕ} (hd : den ≠ 0) :
    (ofRatio negative num den).place? =
      some (placeOf (((signed negative num : ℤ) : ℚ) / den)) := by
  by_cases hn : num = 0
  · subst hn
    rw [signed_cast, Nat.cast_zero, neg_zero, ite_self, zero_div, placeOf_zero]
    cases negative <;> simp [ofRatio, zeroOf, place?, signed]
  obtain ⟨m, e, heq, hvalue, hm, hlarge⟩ := ofRatio_eq hn hd negative
  have hr : (0 : ℚ) < num / den :=
    div_pos (Nat.cast_pos.mpr (Nat.pos_of_ne_zero hn)) (Nat.cast_pos.mpr (Nat.pos_of_ne_zero hd))
  have hsign : rounding (((signed negative num : ℤ) : ℚ) / den) =
      if negative then -(m * 2 ^ e : ℚ) else m * 2 ^ e := by
    rw [signed_cast, hvalue]
    cases negative with
    | false => rfl
    | true => simp only [if_true, neg_div, rounding_neg]
  have habs : |rounding (((signed negative num : ℤ) : ℚ) / den)| = m * 2 ^ e := by
    rw [hsign]
    cases negative <;> simp [abs_mul, abs_of_pos (zpow_two_pos e)]
  have hnegative : ((signed negative num : ℤ) : ℚ) / den < 0 ↔ negative = true := by
    rw [signed_cast]
    cases negative with
    | false => simpa using hr.le
    | true => simpa [neg_div] using hr
  have hbeyond := two_zpow_le_mul_iff hm hlarge
  rw [heq, placeOf, habs]
  by_cases he : e > 971
  · rw [if_pos he, if_pos (hbeyond.mpr he), place?]
    simp only [hnegative]
  · rw [if_neg he, if_neg (mt hbeyond.mp he), place?, hsign, signed_cast]
    cases negative <;> simp

/-- The rational numbers that a finite double stands at. -/
structure IsDouble (x : ℚ) : Prop where
  digits : ∃ k e : ℤ, -1074 ≤ e ∧ k.natAbs < 2 ^ 53 ∧ x = k * 2 ^ e
  small : |x| < 2 ^ 1024

theorem placeOf_eq_coe_iff {x y : ℚ} :
    placeOf x = ((y : WithTop ℚ) : Place) ↔ |rounding x| < 2 ^ 1024 ∧ rounding x = y := by
  unfold placeOf
  by_cases h : 2 ^ 1024 ≤ |rounding x|
  · rw [if_pos h]
    refine iff_of_false ?_ fun hxy => absurd h (not_le.mpr hxy.1)
    split
    · rintro ⟨⟩
    · rintro ⟨⟩
  · rw [if_neg h, WithBot.coe_inj, WithTop.coe_inj]
    exact ⟨fun heq => ⟨not_le.mp h, heq⟩, fun heq => heq.2⟩

theorem placeOf_intCast (a : ℤ) : placeOf a = nearest a := by
  have hone : ((signed (a < 0) a.natAbs : ℤ) : ℚ) / ((1 : ℕ) : ℚ) = a := by
    rw [← eq_signed, Nat.cast_one, div_one]
  have hplace := place?_fraction (a < 0) a.natAbs one_ne_zero
  rw [hone] at hplace
  exact Option.some.inj (hplace.symm.trans (place?_ofInteger a))

section Near

variable {a : ℤ} (h : a.natAbs < bound)

include h

theorem rounding_intCast :
    |rounding a| < 2 ^ 1024 ∧ rounding a = (signed (a < 0) (rounded a.natAbs) : ℤ) := by
  apply placeOf_eq_coe_iff.mp
  rw [placeOf_intCast, nearest, roundedPlace, if_neg (Nat.not_le.mpr h)]

theorem place?_ofInteger_of_lt :
    (ofInteger a).place? = some (((rounding a : ℚ) : WithTop ℚ) : Place) := by
  rw [place?_ofInteger, ← placeOf_intCast, placeOf_eq_coe_iff.mpr ⟨(rounding_intCast h).1, rfl⟩]

theorem rounding_intCast_ne_zero (ha : a ≠ 0) : rounding a ≠ 0 := by
  have hpos : 0 < rounded a.natAbs :=
    Nat.lt_of_lt_of_le (Nat.two_pow_pos _) (two_pow_le_rounded (Int.natAbs_ne_zero.mpr ha))
  rw [(rounding_intCast h).2, Int.cast_ne_zero]
  unfold signed
  split <;> omega

theorem toDouble_int : Value.Numeric.toDouble (.int a) = .ok (ofInteger a) := by
  rw [Value.Numeric.toDouble, ofInt?]
  have hplace := place?_ofInteger_of_lt h
  cases hd : ofInteger a with
  | nan => rfl
  | infinite negative =>
    rw [hd] at hplace
    cases negative <;> cases hplace
  | finite negative m e => rfl

end Near

namespace IsDouble

variable {x : ℚ}

theorem rounding_eq (h : IsDouble x) : rounding x = x := by
  obtain ⟨k, e, he, hk, rfl⟩ := h.digits
  by_cases hk0 : k = 0
  · subst hk0
    simp [rounding, halfEven]
  have hpos : (0 : ℚ) < |(k : ℚ) * 2 ^ e| :=
    abs_pos.mpr (mul_ne_zero (Int.cast_ne_zero.mpr hk0) (zpow_two_pos e).ne')
  have hlt : |(k : ℚ) * 2 ^ e| < (2 : ℕ) ^ (53 + e) := by
    rw [abs_mul, abs_of_pos (zpow_two_pos e), Nat.cast_ofNat, zpow_add₀ two_ne_zero]
    refine mul_lt_mul_of_pos_right ?_ (zpow_two_pos e)
    have hcast : |(k : ℚ)| = (k.natAbs : ℚ) := by
      rw [← Int.cast_abs, Int.abs_eq_natAbs, Int.cast_natCast]
    rw [hcast]
    exact_mod_cast hk
  have hlog := (Int.lt_zpow_iff_log_lt one_lt_two hpos).mp hlt
  -- The last digit that is kept stands behind all that there are.
  have hlast : lastDigit ((k : ℚ) * 2 ^ e) ≤ e := by
    unfold lastDigit
    omega
  obtain ⟨shift, hshift⟩ := Int.le.dest hlast
  have hwhole : (k : ℚ) * 2 ^ e / 2 ^ lastDigit ((k : ℚ) * 2 ^ e) = ((k * 2 ^ shift : ℤ) : ℚ) := by
    push_cast
    rw [mul_div_assoc, ← zpow_sub₀ two_ne_zero, ← zpow_natCast]
    congr 2
    omega
  rw [rounding, hwhole, halfEven_intCast, ← hwhole, div_mul_cancel₀ _ (zpow_two_pos _).ne']

theorem of_digits {k : ℤ} {e : ℕ} (hk : k.natAbs < 2 ^ 53) (he : e ≤ 971) :
    IsDouble ((k * 2 ^ e : ℤ) : ℚ) := by
  constructor
  · exact ⟨k, e, by omega, hk, by push_cast; rw [zpow_natCast]⟩
  · have hcast : |(k : ℚ)| = (k.natAbs : ℚ) := by
      rw [← Int.cast_abs, Int.abs_eq_natAbs, Int.cast_natCast]
    calc
      |((k * 2 ^ e : ℤ) : ℚ)| = k.natAbs * 2 ^ e := by
        rw [Int.cast_mul, abs_mul, hcast, Int.cast_pow, Int.cast_ofNat, abs_of_pos (by positivity)]
      _ < 2 ^ 53 * 2 ^ e := mul_lt_mul_of_pos_right (by exact_mod_cast hk) (by positivity)
      _ = 2 ^ (53 + e) := (pow_add ..).symm
      _ ≤ 2 ^ 1024 := pow_le_pow_right₀ one_le_two (by omega)

theorem of_natAbs_le {n : ℤ} (h : n.natAbs ≤ 2 ^ 53) : IsDouble n := by
  by_cases hlt : n.natAbs < 2 ^ 53
  · simpa using of_digits (e := 0) hlt (by decide)
  · have heven : n / 2 * 2 ^ 1 = n := by omega
    exact heven ▸ of_digits (e := 1) (by omega) (by decide)

end IsDouble

section Operation

variable {a b d : Double} {x y : ℚ}

theorem place?_ofBinary (negative : Bool) (m : ℕ) (e : ℤ) :
    (ofBinary negative m e).place? =
      some (placeOf (((signed negative m : ℤ) : ℚ) * 2 ^ e)) := by
  by_cases he : e < 0
  · rw [ofBinary, if_pos he, natPow_eq, place?_fraction negative m (Nat.two_pow_pos _).ne',
      zpow_of_neg he, div_eq_mul_inv]
  · rw [ofBinary, if_neg he, natPow_eq, place?_fraction negative _ one_ne_zero, zpow_of_not_neg he,
      Nat.cast_one, div_one, signed_cast, signed_cast, Nat.cast_mul]
    cases negative <;> simp

theorem signed_mul (s t : Bool) (m k : ℕ) :
    signed (s != t) (m * k) = signed s m * signed t k := by
  cases s <;> cases t <;> simp [signed]

theorem place?_negate (h : d.place? = some ((x : WithTop ℚ) : Place)) :
    (negate d).place? = some (((-x : ℚ) : WithTop ℚ) : Place) := by
  obtain ⟨negative, m, e, rfl, rfl⟩ := exists_finite_of_place? h
  rw [negate, place?, signed_cast, signed_cast]
  cases negative <;> simp

/-- Two doubles are added over the smaller exponent, where the sum is exact. -/
theorem exists_total (s t : Bool) (m₁ m₂ : ℕ) (e₁ e₂ : ℤ) :
    ∃ total : ℤ, add (.finite s m₁ e₁) (.finite t m₂ e₂) =
        (if total = 0 then zeroOf (s && t)
          else ofBinary (total < 0) total.natAbs (min e₁ e₂)) ∧
      (total : ℚ) * 2 ^ min e₁ e₂ =
        ((signed s m₁ : ℤ) : ℚ) * 2 ^ e₁ + ((signed t m₂ : ℤ) : ℚ) * 2 ^ e₂ := by
  refine ⟨signed s m₁ * (Nat.pow 2 (e₁ - min e₁ e₂).natAbs : ℕ) +
    signed t m₂ * (Nat.pow 2 (e₂ - min e₁ e₂).natAbs : ℕ), rfl, ?_⟩
  rw [Int.cast_add, add_mul, aligned_value _ (min_le_left e₁ e₂),
    aligned_value _ (min_le_right e₁ e₂)]

section Operations

variable (ha : a.place? = some ((x : WithTop ℚ) : Place))
  (hb : b.place? = some ((y : WithTop ℚ) : Place))

include ha hb

theorem place?_add : (add a b).place? = some (placeOf (x + y)) := by
  obtain ⟨s, m₁, e₁, rfl, rfl⟩ := exists_finite_of_place? ha
  obtain ⟨t, m₂, e₂, rfl, rfl⟩ := exists_finite_of_place? hb
  obtain ⟨total, hadd, hsum⟩ := exists_total s t m₁ m₂ e₁ e₂
  rw [hadd, ← hsum]
  by_cases hzero : total = 0
  · subst hzero
    rw [if_pos rfl, Int.cast_zero, zero_mul, placeOf_zero]
    cases s && t <;> simp [zeroOf, place?, signed]
  · rw [if_neg hzero, place?_ofBinary, ← eq_signed]

theorem place?_sub : (sub a b).place? = some (placeOf (x - y)) := by
  rw [sub, sub_eq_add_neg x]
  exact place?_add ha (place?_negate hb)

theorem place?_mul : (mul a b).place? = some (placeOf (x * y)) := by
  obtain ⟨s, m₁, e₁, rfl, rfl⟩ := exists_finite_of_place? ha
  obtain ⟨t, m₂, e₂, rfl, rfl⟩ := exists_finite_of_place? hb
  rw [mul, place?_ofBinary, signed_mul, zpow_add₀ two_ne_zero, Int.cast_mul, mul_mul_mul_comm]

theorem place?_div (hy : y ≠ 0) : (div a b).place? = some (placeOf (x / y)) := by
  obtain ⟨s, m₁, e₁, rfl, rfl⟩ := exists_finite_of_place? ha
  obtain ⟨t, m₂, e₂, rfl, rfl⟩ := exists_finite_of_place? hb
  have hm : m₂ ≠ 0 := by
    rintro rfl
    exact hy (by rw [signed_cast, Nat.cast_zero, neg_zero, ite_self, zero_mul])
  have hquotient : ((signed (s != t) m₁ : ℤ) : ℚ) / m₂ * 2 ^ (e₁ - e₂) =
      ((signed s m₁ : ℤ) : ℚ) * 2 ^ e₁ / (((signed t m₂ : ℤ) : ℚ) * 2 ^ e₂) := by
    rw [zpow_sub₀ two_ne_zero, div_mul_div_comm]
    simp only [signed_cast]
    cases s <;> cases t <;> simp [div_neg, neg_div]
  rw [div, if_neg hm, ← hquotient]
  by_cases he : e₁ - e₂ < 0
  · have hd : m₂ * Nat.pow 2 (e₁ - e₂).natAbs ≠ 0 := Nat.mul_ne_zero hm (Nat.two_pow_pos _).ne'
    rw [if_pos he, place?_fraction _ _ hd, natPow_eq, zpow_of_neg he, Nat.cast_mul, ← div_eq_mul_inv,
      div_div]
  · rw [if_neg he, place?_fraction _ _ hm, natPow_eq, zpow_of_not_neg he, signed_cast, signed_cast,
      Nat.cast_mul]
    cases s != t <;> simp [div_mul_eq_mul_div]

end Operations

end Operation

end FlowEngine.Double
