import Mathlib.Algebra.Order.Group.Nat
import FlowEngine.Number.Double

/-!
# Integers among the doubles

Natural numbers below `2 ^ 53` are doubles without rounding, so doubles compare as the numbers do. The
largest double is `2 ^ 1024 - 2 ^ 971`. An integer has a double near to it up to half a step above that
one; the half step itself is rounded to the even side, which is too large.
-/

namespace FlowEngine.Double

/-- A double that is a natural number, in the form that numbers below `2 ^ 53` take. -/
def Is (d : Double) (n : Nat) : Prop :=
  ∃ shift : Nat, d = .finite false (n * 2 ^ shift) (-(shift : Int))

theorem natPow_eq (b n : Nat) : Nat.pow b n = b ^ n := rfl

theorem binaryOrder_one {n : Nat} (hn : n ≠ 0) : binaryOrder n 1 = n.log2 := by
  have hle : 2 ^ n.log2 ≤ n := Nat.log2_self_le hn
  have hone : Nat.log2 1 = 0 := by decide
  have hpos : ¬ ((n.log2 : Int) - (0 : Nat) < 0) := by omega
  simp only [binaryOrder, scaleDown, hone, if_neg hpos]
  simp [Nat.not_lt.mpr hle]

theorem divideHalfEven_one (n : Nat) : divideHalfEven n 1 = n := by
  simp [divideHalfEven, Nat.mod_one]

theorem ofNat_is {n : Nat} (hn : n < 2 ^ 53) : (ofNat n).Is n := by
  by_cases h0 : n = 0
  · subst h0
    exact ⟨1074, by rw [Nat.zero_mul]; rfl⟩
  have hlog : n.log2 < 53 := (Nat.log2_lt h0).mpr hn
  obtain ⟨shift, hshift⟩ : ∃ shift, n.log2 + shift = 52 := ⟨52 - n.log2, by omega⟩
  have he : max (binaryOrder n 1 - 52) (-1074) = -(shift : Int) := by
    rw [binaryOrder_one h0]
    omega
  have hm : n * 2 ^ shift < 2 ^ 53 := by
    have hself : n < 2 ^ (n.log2 + 1) := Nat.lt_log2_self
    have hpow : 2 ^ (n.log2 + 1) * 2 ^ shift = 2 ^ 53 := by
      rw [← Nat.pow_add]
      congr 1
      omega
    exact hpow ▸ Nat.mul_lt_mul_of_pos_right hself (Nat.two_pow_pos shift)
  have hs : divideHalfEven (scaleDown n 1 (-(shift : Int))).1 (scaleDown n 1 (-(shift : Int))).2 =
      n * 2 ^ shift := by
    cases shift with
    | zero => simp [scaleDown, divideHalfEven_one]
    | succ shift =>
      have hneg : -((shift + 1 : Nat) : Int) < 0 := by omega
      simp only [scaleDown, if_pos hneg, divideHalfEven_one, Int.natAbs_neg, Int.natAbs_natCast,
        natPow_eq]
  refine ⟨shift, ?_⟩
  simp only [ofNat, ofRatio, if_neg h0, he, hs, natPow_eq, if_neg (Nat.ne_of_lt hm)]
  rw [if_neg (by omega)]

theorem Is.compare {a b : Double} {m n : Nat} (ha : a.Is m) (hb : b.Is n) :
    compare? a b = some (compare m n) := by
  obtain ⟨s, rfl⟩ := ha
  obtain ⟨t, rfl⟩ := hb
  -- Over the smaller exponent both mantissas are scaled by the same power.
  have hs : s + (-(s : Int) - min (-(s : Int)) (-(t : Int))).natAbs = max s t := by omega
  have ht : t + (-(t : Int) - min (-(s : Int)) (-(t : Int))).natAbs = max s t := by omega
  have hpow : 0 < 2 ^ max s t := Nat.two_pow_pos _
  have hscaled (k e shift : Nat) (h : shift + e = max s t) :
      ((k * 2 ^ shift : Nat) : Int) * (2 ^ e : Nat) = ((k * 2 ^ max s t : Nat) : Int) := by
    rw [← Int.natCast_mul, Nat.mul_assoc, ← Nat.pow_add, h]
  simp only [compare?, align, signed, Bool.false_eq_true, if_false, natPow_eq,
    hscaled m _ s hs, hscaled n _ t ht]
  rcases Nat.lt_trichotomy m n with h | rfl | h
  · rw [compare_lt_iff_lt.mpr (Int.ofNat_lt.mpr (Nat.mul_lt_mul_of_pos_right h hpow)),
      compare_lt_iff_lt.mpr h]
  · rw [compare_eq_iff_eq.mpr rfl, compare_eq_iff_eq.mpr rfl]
  · rw [compare_gt_iff_gt.mpr (Int.ofNat_lt.mpr (Nat.mul_lt_mul_of_pos_right h hpow)),
      compare_gt_iff_gt.mpr h]

theorem less_ofNat {m n : Nat} (hm : m < 2 ^ 53) (hn : n < 2 ^ 53) :
    less (ofNat m) (ofNat n) = decide (m < n) := by
  rw [less, (ofNat_is hm).compare (ofNat_is hn), Bool.eq_iff_iff, decide_eq_true_iff,
    beq_iff_eq, Option.some.injEq, compare_lt_iff_lt]

/-- A quotient below the number after an odd one is rounded up to it from the half on. -/
theorem divideHalfEven_eq_succ_iff {n d p : Nat} (hp : p % 2 = 1) (hn : n < (p + 1) * d) :
    divideHalfEven n d = p + 1 ↔ (2 * p + 1) * d ≤ 2 * n := by
  have hq : n / d ≤ p := Nat.le_of_lt_succ (Nat.div_lt_of_lt_mul (Nat.mul_comm _ _ ▸ hn))
  have hself : d * (n / d) + n % d = n := Nat.div_add_mod n d
  have hr : n % d < d := Nat.mod_lt n (Nat.pos_of_mul_pos_left (Nat.zero_lt_of_lt hn))
  rw [Nat.add_mul, Nat.mul_assoc, Nat.one_mul, Nat.mul_comm p d]
  unfold divideHalfEven
  dsimp only
  rcases Nat.lt_or_eq_of_le hq with hlt | heq
  · have hstep : d * (n / d + 1) ≤ d * p := Nat.mul_le_mul_left d hlt
    rw [Nat.mul_add, Nat.mul_one] at hstep
    refine iff_of_false ?_ (by omega)
    split
    · omega
    · split <;> omega
  · rw [heq] at hself ⊢
    split
    · omega
    · split <;> omega

theorem two_pow_le {a b : Nat} (h : a ≤ b) : 2 ^ a ≤ 2 ^ b := Nat.pow_le_pow_right Nat.two_pos h

/-- The least magnitude of an integer that no double is near enough to. -/
def bound : Nat := 2 ^ 1024 - 2 ^ 970

theorem bound_add : bound + 2 ^ 970 = 2 ^ 1024 := by
  unfold bound
  exact Nat.sub_add_cancel (two_pow_le (by decide))

theorem bound_le_two_pow : bound ≤ 2 ^ 1024 := Nat.sub_le _ _

theorem bound_le_ten_pow {n : Nat} (hn : 1024 ≤ 3 * n) : bound ≤ 10 ^ n :=
  calc
    bound ≤ 2 ^ 1024 := bound_le_two_pow
    _ ≤ 2 ^ (3 * n) := two_pow_le hn
    _ = 8 ^ n := Nat.pow_mul 2 3 n
    _ ≤ 10 ^ n := Nat.pow_le_pow_left (by decide) n

theorem two_pow_le_bound : 2 ^ 970 ≤ bound := by
  have h971 : 2 ^ 971 = 2 * 2 ^ 970 := by rw [← Nat.pow_succ']
  have h := two_pow_le (show 971 ≤ 1024 by decide)
  have hb := bound_add
  omega

theorem two_mul_bound : 2 * bound = (2 * (2 ^ 53 - 1) + 1) * 2 ^ 971 := by
  have h1024 : 2 ^ 1024 = 2 ^ 54 * 2 ^ 970 := by rw [← Nat.pow_add]
  have h971 : 2 ^ 971 = 2 * 2 ^ 970 := by rw [← Nat.pow_succ']
  have h := bound_add
  omega

theorem ofRatio_one_eq_infinite_iff {negative : Bool} {m : Nat} (hm : m ≠ 0) {e : Int}
    (he : max ((m.log2 : Int) - 52) (-1074) = e) :
    (∃ sign, ofRatio negative m 1 = .infinite sign) ↔
      971 < e ∨ e = 971 ∧ divideHalfEven (scaleDown m 1 e).1 (scaleDown m 1 e).2 = 2 ^ 53 := by
  simp only [ofRatio, if_neg hm, binaryOrder_one hm, he, natPow_eq]
  by_cases hq : divideHalfEven (scaleDown m 1 e).1 (scaleDown m 1 e).2 = 2 ^ 53
  · simp only [hq, if_true, and_true]
    split
    · exact iff_of_true ⟨negative, rfl⟩ (by omega)
    · exact iff_of_false (by rintro ⟨_, ⟨⟩⟩) (by omega)
  · simp only [hq, if_false, and_false, or_false]
    split
    · exact iff_of_true ⟨negative, rfl⟩ (by omega)
    · exact iff_of_false (by rintro ⟨_, ⟨⟩⟩) (by omega)

/-- Rounding leaves the range of doubles exactly from the bound on. -/
theorem ofRatio_eq_infinite_iff (negative : Bool) {m : Nat} :
    (∃ sign, ofRatio negative m 1 = .infinite sign) ↔ bound ≤ m := by
  have hb := bound_add
  by_cases hm : m = 0
  · subst hm
    have hpos := Nat.two_pow_pos 971
    have htwo := two_mul_bound
    exact iff_of_false (by rintro ⟨_, ⟨⟩⟩) (by omega)
  have hself : 2 ^ m.log2 ≤ m := Nat.log2_self_le hm
  have hnext : m < 2 ^ (m.log2 + 1) := Nat.lt_log2_self
  rw [ofRatio_one_eq_infinite_iff hm rfl]
  rcases Nat.lt_trichotomy m.log2 1023 with hlog | hlog | hlog
  · have hup : 2 ^ (m.log2 + 1) ≤ 2 ^ 1023 := two_pow_le hlog
    have h1023 : 2 ^ 1024 = 2 * 2 ^ 1023 := by rw [← Nat.pow_succ']
    have hlow : 2 ^ 970 ≤ 2 ^ 1023 := two_pow_le (by decide)
    exact iff_of_false (by omega) (by omega)
  · have he : max ((m.log2 : Int) - 52) (-1074) = 971 := by omega
    have hs : scaleDown m 1 971 = (m, 2 ^ 971) := by
      have habs : (971 : Int).natAbs = 971 := by decide
      rw [scaleDown, if_neg (by decide), natPow_eq, Nat.one_mul, habs]
    have htop : m < (2 ^ 53 - 1 + 1) * 2 ^ 971 := by
      have h1024 : 2 ^ 1024 = 2 ^ 53 * 2 ^ 971 := by rw [← Nat.pow_add]
      rw [hlog] at hnext
      omega
    have hround := divideHalfEven_eq_succ_iff (p := 2 ^ 53 - 1) (by decide) htop
    rw [← two_mul_bound] at hround
    rw [he, hs]
    simp only [lt_irrefl, true_and, false_or]
    exact hround.trans ⟨fun h => by omega, fun h => by omega⟩
  · have hup : 2 ^ 1024 ≤ 2 ^ m.log2 := two_pow_le hlog
    exact iff_of_true (by omega) (by omega)

theorem eq_of_ofRatio {negative sign : Bool} {num den : Nat}
    (h : ofRatio negative num den = .infinite sign) : sign = negative := by
  have hsign (pair : Nat × Int) (h : (if pair.2 > 971 then Double.infinite negative
      else .finite negative pair.1 pair.2) = .infinite sign) : sign = negative := by
    split at h
    · exact (Double.infinite.inj h).symm
    · cases h
  unfold ofRatio at h
  split at h
  · cases h
  · exact hsign _ h

theorem ofRatio_of_bound_le {negative : Bool} {m : Nat} (h : bound ≤ m) :
    ofRatio negative m 1 = .infinite negative := by
  obtain ⟨sign, hsign⟩ := (ofRatio_eq_infinite_iff negative).mpr h
  rw [hsign, eq_of_ofRatio hsign]

theorem ofInt?_eq_none_iff {n : Int} : ofInt? n = none ↔ bound ≤ n.natAbs := by
  rw [← ofRatio_eq_infinite_iff (n < 0), ofInt?, ofInteger]
  cases ofRatio (n < 0) n.natAbs 1 <;> simp

end FlowEngine.Double
