import Mathlib.Algebra.Order.Field.Power
import Mathlib.Algebra.Order.Ring.Rat
import Mathlib.Data.Option.NAry
import Mathlib.Order.WithBot
import Mathlib.Tactic.Ring
import FlowEngine.Proofs.Number.Range

/-!
# Rounding keeps the order

A double stands at a rational number or at one of the two infinities, and doubles compare as their
places do. So all doubles but NaN are in one linear order, in which the two zeros share a place.

An integer is taken to a double by keeping its first 53 binary digits. Rounding never puts two integers
into the opposite order, and it leaves those of at most 53 digits as they are; but it may take different
integers to the same double.
-/

namespace FlowEngine.Double

/-- The rational numbers between the two infinities. -/
abbrev Place := WithBot (WithTop ℚ)

/-- Where a double stands; a NaN stands nowhere. -/
def place? : Double → Option Place
  | .nan => none
  | .infinite negative => some (if negative then ⊥ else ⊤)
  | .finite negative m e => some (((signed negative m : ℚ) * 2 ^ e : ℚ) : WithTop ℚ)

variable {a b : Double} {p q : Place}

theorem place?_eq_none_iff {d : Double} : d.place? = none ↔ d.isNan = true := by
  cases d <;> simp [place?, isNan]

theorem aligned_value (k : Int) {e least : Int} (h : least ≤ e) :
    ((k * (Nat.pow 2 (e - least).natAbs : Nat) : Int) : ℚ) * 2 ^ least = k * 2 ^ e := by
  have hsum : (e - least).natAbs + least = e := by omega
  rw [natPow_eq, Int.cast_mul, mul_assoc]
  push_cast
  rw [← zpow_natCast, ← zpow_add₀ two_ne_zero, hsum]

theorem compare?_eq (a b : Double) : compare? a b = Option.map₂ compare a.place? b.place? := by
  match a, b with
  | .nan, b => cases b <;> rfl
  | .infinite _, .nan | .finite .., .nan => rfl
  | .infinite s, .infinite t => cases s <;> cases t <;> rfl
  | .infinite s, .finite .. => cases s <;> rfl
  | .finite .., .infinite t => cases t <;> rfl
  | .finite s m₁ e₁, .finite t m₂ e₂ =>
    -- Over the smaller exponent the mantissas compare as the numbers, since its power is positive.
    have hscale : StrictMono fun k : Int =>
        ((((k : ℚ) * 2 ^ min e₁ e₂ : ℚ) : WithTop ℚ) : Place) := by
      intro k l hkl
      rw [WithBot.coe_lt_coe, WithTop.coe_lt_coe]
      exact mul_lt_mul_of_pos_right (Int.cast_lt.mpr hkl) (zpow_pos two_pos _)
    have hc := hscale.cmp_map_eq (signed s m₁ * (Nat.pow 2 (e₁ - min e₁ e₂).natAbs : Nat))
      (signed t m₂ * (Nat.pow 2 (e₂ - min e₁ e₂).natAbs : Nat))
    rw [cmp_eq_compare, cmp_eq_compare, aligned_value _ (min_le_left e₁ e₂),
      aligned_value _ (min_le_right e₁ e₂)] at hc
    simp only [compare?, align, place?, Option.map₂_some_some, hc]

section Places

variable (hp : a.place? = some p) (hq : b.place? = some q)

include hp hq

theorem sameValue_eq : sameValue a b = decide (p = q) := by
  rw [sameValue, compare?_eq, hp, hq, Bool.eq_iff_iff, Option.map₂_some_some, beq_iff_eq,
    Option.some.injEq, compare_eq_iff_eq, decide_eq_true_iff]

theorem less_eq : less a b = decide (p < q) := by
  rw [less, compare?_eq, hp, hq, Bool.eq_iff_iff, Option.map₂_some_some, beq_iff_eq,
    Option.some.injEq, compare_lt_iff_lt, decide_eq_true_iff]

theorem lessOrSame_eq : lessOrSame a b = decide (p ≤ q) := by
  rw [lessOrSame, less_eq hp hq, sameValue_eq hp hq, Bool.eq_iff_iff, Bool.or_eq_true,
    decide_eq_true_iff, decide_eq_true_iff, decide_eq_true_iff, le_iff_lt_or_eq]

end Places

/-- A natural number with what stands behind its first 53 binary digits rounded away. -/
def rounded (m : Nat) : Nat := divideHalfEven m (2 ^ (m.log2 - 52)) * 2 ^ (m.log2 - 52)

theorem divideHalfEven_le (n d : Nat) : divideHalfEven n d ≤ n / d + 1 := by
  unfold divideHalfEven
  dsimp only
  split
  · omega
  · split <;> omega

theorem le_divideHalfEven (n d : Nat) : n / d ≤ divideHalfEven n d := by
  unfold divideHalfEven
  dsimp only
  split
  · omega
  · split <;> omega

theorem divideHalfEven_mono {n k : Nat} (d : Nat) (h : n ≤ k) :
    divideHalfEven n d ≤ divideHalfEven k d := by
  rcases Nat.lt_or_eq_of_le (Nat.div_le_div_right h : n / d ≤ k / d) with hlt | heq
  · exact (divideHalfEven_le n d).trans ((Nat.succ_le_of_lt hlt).trans (le_divideHalfEven k d))
  · -- With the same quotient the remainders are in order.
    have hn := Nat.div_add_mod n d
    have hk := Nat.div_add_mod k d
    unfold divideHalfEven
    dsimp only
    rw [heq] at hn ⊢
    split
    · split
      · exact le_rfl
      · split <;> omega
    · split <;> split <;> (try split) <;> omega

theorem divideHalfEven_mul (k : Nat) {d : Nat} (hd : 0 < d) : divideHalfEven (k * d) d = k := by
  simp only [divideHalfEven, Nat.mul_div_cancel k hd, Nat.mul_mod_left, Nat.mul_zero, if_pos hd]

theorem rounded_of_lt {m : Nat} (h : m < 2 ^ 53) : rounded m = m := by
  have hlog : m.log2 - 52 = 0 := by
    by_cases h0 : m = 0
    · rw [h0]
      rfl
    · have := (Nat.log2_lt h0).mpr h
      omega
  rw [rounded, hlog, Nat.pow_zero, divideHalfEven_one, Nat.mul_one]

theorem rounded_le {m k : Nat} (h : m ≤ k * 2 ^ (m.log2 - 52)) :
    rounded m ≤ k * 2 ^ (m.log2 - 52) := by
  refine Nat.mul_le_mul_right _ ?_
  calc
    divideHalfEven m (2 ^ (m.log2 - 52))
        ≤ divideHalfEven (k * 2 ^ (m.log2 - 52)) (2 ^ (m.log2 - 52)) := divideHalfEven_mono _ h
    _ = k := divideHalfEven_mul k (Nat.two_pow_pos _)

theorem le_rounded {m k : Nat} (h : k * 2 ^ (m.log2 - 52) ≤ m) :
    k * 2 ^ (m.log2 - 52) ≤ rounded m := by
  refine Nat.mul_le_mul_right _ ?_
  calc
    k = divideHalfEven (k * 2 ^ (m.log2 - 52)) (2 ^ (m.log2 - 52)) :=
      (divideHalfEven_mul k (Nat.two_pow_pos _)).symm
    _ ≤ divideHalfEven m (2 ^ (m.log2 - 52)) := divideHalfEven_mono _ h

theorem two_pow_le_rounded {m : Nat} (h : m ≠ 0) : 2 ^ m.log2 ≤ rounded m := by
  have hpow : 2 ^ (m.log2 - (m.log2 - 52)) * 2 ^ (m.log2 - 52) = 2 ^ m.log2 := by
    rw [← Nat.pow_add]
    congr 1
    omega
  exact hpow ▸ le_rounded (hpow ▸ Nat.log2_self_le h)

theorem rounded_le_two_pow (m : Nat) : rounded m ≤ 2 ^ (m.log2 + 1) := by
  have hpow : 2 ^ (m.log2 + 1 - (m.log2 - 52)) * 2 ^ (m.log2 - 52) = 2 ^ (m.log2 + 1) := by
    rw [← Nat.pow_add]
    congr 1
    omega
  exact hpow ▸ rounded_le (hpow ▸ Nat.lt_log2_self.le)

theorem rounded_mono : Monotone rounded := by
  intro m k h
  by_cases h0 : m = 0
  · rw [h0, rounded_of_lt (by decide)]
    exact Nat.zero_le _
  have hk : k ≠ 0 := by omega
  have hlog : m.log2 ≤ k.log2 := (Nat.le_log2 hk).mpr ((Nat.log2_self_le h0).trans h)
  rcases Nat.lt_or_eq_of_le hlog with hlt | heq
  · calc
      rounded m ≤ 2 ^ (m.log2 + 1) := rounded_le_two_pow m
      _ ≤ 2 ^ k.log2 := two_pow_le hlt
      _ ≤ rounded k := two_pow_le_rounded hk
  · rw [rounded, rounded, heq]
    exact Nat.mul_le_mul_right _ (divideHalfEven_mono _ h)

/-- The double of a positive integer, if it is one, has the value of the rounded integer. -/
theorem ofRatio_one {m : Nat} (hm : m ≠ 0) (negative : Bool) :
    ∃ (k : Nat) (e : Int), ofRatio negative m 1 =
        (if e > 971 then .infinite negative else .finite negative k e) ∧
      (k : ℚ) * 2 ^ e = rounded m := by
  have he : max (binaryOrder m 1 - 52) (-1074) = (m.log2 : Int) - 52 := by
    rw [binaryOrder_one hm]
    omega
  obtain ⟨q, hq⟩ : ∃ q, divideHalfEven (scaleDown m 1 ((m.log2 : Int) - 52)).1
      (scaleDown m 1 ((m.log2 : Int) - 52)).2 = q := ⟨_, rfl⟩
  have hvalue : (q : ℚ) * 2 ^ ((m.log2 : Int) - 52) = rounded m := by
    rcases Nat.lt_or_ge m.log2 52 with hlog | hlog
    · -- A short number is widened to 53 digits, which is exact.
      have hneg : (m.log2 : Int) - 52 < 0 := by omega
      have habs : (((m.log2 : Int) - 52).natAbs : Int) + ((m.log2 : Int) - 52) = 0 := by omega
      have hlt : m < 2 ^ 53 := Nat.lt_log2_self.trans_le (two_pow_le (by omega))
      rw [← hq, scaleDown, if_pos hneg, divideHalfEven_one, rounded_of_lt hlt, natPow_eq]
      push_cast
      rw [mul_assoc, ← zpow_natCast, ← zpow_add₀ two_ne_zero, habs, zpow_zero, mul_one]
    · have hnat : (m.log2 : Int) - 52 = ((m.log2 - 52 : Nat) : Int) := by omega
      rw [← hq, hnat, scaleDown, if_neg (by omega), Int.natAbs_natCast, natPow_eq, Nat.one_mul,
        zpow_natCast, rounded]
      push_cast
      rfl
  simp only [ofRatio, if_neg hm, he, hq, natPow_eq]
  by_cases hcarry : q = 2 ^ 53
  · refine ⟨2 ^ 52, (m.log2 : Int) - 52 + 1, by rw [if_pos hcarry], ?_⟩
    rw [← hvalue, hcarry, zpow_add₀ two_ne_zero, zpow_one]
    push_cast
    ring
  · exact ⟨q, (m.log2 : Int) - 52, by rw [if_neg hcarry], hvalue⟩

/-- Where a magnitude with a sign is taken: to the rounded number, and to an infinity if no double is
near. -/
def roundedPlace (negative : Bool) (m : Nat) : Place :=
  if bound ≤ m then (if negative then ⊥ else ⊤)
  else (((signed negative (rounded m) : Int) : ℚ) : WithTop ℚ)

theorem two_pow_lt_bound : 2 ^ 53 < bound :=
  Nat.lt_of_lt_of_le (Nat.pow_lt_pow_right (by decide) (by decide)) two_pow_le_bound

theorem bound_pos : 0 < bound := Nat.lt_of_le_of_lt (Nat.zero_le _) two_pow_lt_bound

theorem place?_ofRatio (negative : Bool) (m : Nat) :
    (ofRatio negative m 1).place? = some (roundedPlace negative m) := by
  by_cases hm : m = 0
  · subst hm
    rw [roundedPlace, if_neg bound_pos.not_ge, rounded_of_lt (by decide)]
    cases negative <;> simp [ofRatio, zeroOf, place?, signed]
  have hinfinite := ofRatio_eq_infinite_iff (m := m) negative
  obtain ⟨k, e, hk, hvalue⟩ := ofRatio_one hm negative
  rw [hk] at hinfinite ⊢
  by_cases he : e > 971
  · rw [if_pos he] at hinfinite ⊢
    rw [roundedPlace, if_pos (hinfinite.mp ⟨negative, rfl⟩), place?]
  · rw [if_neg he] at hinfinite ⊢
    have hsmall : ¬ bound ≤ m := by
      intro hle
      obtain ⟨_, ⟨⟩⟩ := hinfinite.mpr hle
    rw [roundedPlace, if_neg hsmall, place?]
    cases negative <;> simp [signed, ← hvalue]

def nearest (n : Int) : Place := roundedPlace (n < 0) n.natAbs

theorem place?_ofInteger (n : Int) : (ofInteger n).place? = some (nearest n) := place?_ofRatio _ _

theorem nearest_signed (negative : Bool) (m : Nat) :
    nearest (signed negative m) = roundedPlace negative m := by
  cases negative with
  | false =>
    have hneg : decide ((m : Int) < 0) = false := decide_eq_false (by omega)
    rw [signed, if_neg Bool.false_ne_true, nearest, hneg, Int.natAbs_natCast]
  | true =>
    rw [signed, if_pos rfl, nearest, Int.natAbs_neg, Int.natAbs_natCast]
    by_cases hm : m = 0
    · -- Both zeros are at the same place.
      subst hm
      simp [roundedPlace, bound_pos.ne', rounded_of_lt, signed]
    · rw [decide_eq_true (by omega)]

theorem roundedPlace_mono {m k : Nat} (h : m ≤ k) :
    roundedPlace false m ≤ roundedPlace false k ∧ roundedPlace true k ≤ roundedPlace true m := by
  by_cases hk : bound ≤ k
  · simp [roundedPlace, hk]
  · have hm : ¬ bound ≤ m := fun hle => hk (hle.trans h)
    simp only [roundedPlace, hk, hm, if_false, WithBot.coe_le_coe, WithTop.coe_le_coe, Int.cast_le]
    have hmono := rounded_mono h
    constructor
    · simpa [signed] using hmono
    · simpa [signed] using hmono

theorem eq_signed (n : Int) : n = signed (n < 0) n.natAbs := by
  by_cases h : n < 0
  · rw [decide_eq_true h, signed, if_pos rfl]
    omega
  · rw [decide_eq_false h, signed, if_neg Bool.false_ne_true]
    omega

/-- Rounding never puts two integers into the opposite order. -/
theorem nearest_mono {m n : Int} (h : m ≤ n) : nearest m ≤ nearest n := by
  unfold nearest
  by_cases hm : m < 0
  · by_cases hn : n < 0
    · rw [decide_eq_true hm, decide_eq_true hn]
      exact (roundedPlace_mono (by omega)).2
    · rw [decide_eq_true hm, decide_eq_false hn]
      calc
        roundedPlace true m.natAbs ≤ roundedPlace true 0 := (roundedPlace_mono (Nat.zero_le _)).2
        _ = roundedPlace false 0 := (nearest_signed true 0).symm.trans (nearest_signed false 0)
        _ ≤ roundedPlace false n.natAbs := (roundedPlace_mono (Nat.zero_le _)).1
  · rw [decide_eq_false hm, decide_eq_false (by omega)]
    exact (roundedPlace_mono (by omega)).1

theorem nearest_of_le {n : Int} (h : n.natAbs ≤ 2 ^ 53) : nearest n = ((n : ℚ) : WithTop ℚ) := by
  have hround : rounded n.natAbs = n.natAbs := by
    rcases Nat.lt_or_eq_of_le h with hlt | heq
    · exact rounded_of_lt hlt
    · rw [heq]
      decide
  rw [nearest, roundedPlace, if_neg (Nat.lt_of_le_of_lt h two_pow_lt_bound).not_ge, hround,
    ← eq_signed]

end FlowEngine.Double
