import Mathlib.Algebra.Order.Round
import Mathlib.Data.Rat.Floor
import FlowEngine.Expression.Arithmetic
import FlowEngine.Proofs.Number.Rounding

/-!
# Whole parts

A finite double stands at `m · 2 ^ e` with its sign. Its whole part is what is left when the fraction is
dropped, on either side of zero, and a double is whole if nothing is dropped.
-/

namespace FlowEngine.Double

variable {d : Double} {x : ℚ}

theorem signed_cast (negative : Bool) (m : ℕ) :
    ((signed negative m : ℤ) : ℚ) = if negative then -(m : ℚ) else m := by
  cases negative <;> simp [signed]

theorem exists_finite_of_place? (h : d.place? = some ((x : WithTop ℚ) : Place)) :
    ∃ negative m e, d = .finite negative m e ∧ x = ((signed negative m : ℤ) : ℚ) * 2 ^ e := by
  cases d with
  | nan => cases h
  | infinite negative => cases negative <;> cases h
  | finite negative m e =>
    have heq := Option.some.inj h
    rw [WithBot.coe_inj, WithTop.coe_inj] at heq
    exact ⟨negative, m, e, rfl, heq.symm⟩

theorem isNan_of_place? {p : Place} (h : d.place? = some p) : d.isNan = false := by
  rw [← Bool.not_eq_true, ← place?_eq_none_iff, h]
  exact Option.some_ne_none p

theorem isZero_of_place? (h : d.place? = some ((x : WithTop ℚ) : Place)) (hx : x ≠ 0) :
    d.isZero = false := by
  obtain ⟨negative, m, e, rfl, rfl⟩ := exists_finite_of_place? h
  rw [isZero, beq_eq_false_iff_ne]
  rintro rfl
  exact hx (by rw [signed_cast, Nat.cast_zero, neg_zero, ite_self, zero_mul])

theorem zpow_of_neg {e : ℤ} (he : e < 0) : (2 : ℚ) ^ e = ((2 ^ e.natAbs : ℕ) : ℚ)⁻¹ := by
  push_cast
  rw [← zpow_natCast, ← zpow_neg]
  congr 1
  omega

theorem zpow_of_not_neg {e : ℤ} (he : ¬ e < 0) : (2 : ℚ) ^ e = ((2 ^ e.natAbs : ℕ) : ℚ) := by
  push_cast
  rw [← zpow_natCast]
  congr 1
  omega

theorem floor_magnitude (m : ℕ) (e : ℤ) :
    ⌊(m : ℚ) * 2 ^ e⌋ = ((if e < 0 then m / 2 ^ e.natAbs else m * 2 ^ e.natAbs : ℕ) : ℤ) := by
  by_cases he : e < 0
  · rw [if_pos he, zpow_of_neg he, ← div_eq_mul_inv, Rat.floor_natCast_div_natCast]
    exact Int.natCast_div _ _
  · rw [if_neg he, zpow_of_not_neg he, ← Nat.cast_mul, Int.floor_natCast]

theorem truncate_eq (h : d.place? = some ((x : WithTop ℚ) : Place)) :
    d.truncate = if x < 0 then -⌊-x⌋ else ⌊x⌋ := by
  obtain ⟨negative, m, e, rfl, rfl⟩ := exists_finite_of_place? h
  have hpos : (0 : ℚ) < 2 ^ e := zpow_pos two_pos e
  have hnonneg : ¬ (m : ℚ) * 2 ^ e < 0 := not_lt.mpr (mul_nonneg (Nat.cast_nonneg m) hpos.le)
  rw [truncate, natPow_eq, signed_cast]
  cases negative with
  | false =>
    rw [if_neg Bool.false_ne_true, if_neg hnonneg, floor_magnitude]
    rfl
  | true =>
    rw [if_pos rfl, neg_mul, neg_neg, floor_magnitude]
    by_cases hm : m = 0
    · subst hm
      simp [signed]
    · have hneg : -((m : ℚ) * 2 ^ e) < 0 :=
        neg_neg_of_pos (mul_pos (Nat.cast_pos.mpr (Nat.pos_of_ne_zero hm)) hpos)
      rw [if_pos hneg]
      rfl

theorem isWhole_iff (h : d.place? = some ((x : WithTop ℚ) : Place)) :
    d.isWhole = true ↔ (d.truncate : ℚ) = x := by
  obtain ⟨negative, m, e, rfl, rfl⟩ := exists_finite_of_place? h
  rw [truncate, isWhole, natPow_eq]
  by_cases he : e < 0
  · have hpow : ((2 ^ e.natAbs : ℕ) : ℚ) ≠ 0 := Nat.cast_ne_zero.mpr (Nat.two_pow_pos _).ne'
    have hdvd : ((m / 2 ^ e.natAbs : ℕ) : ℚ) = m / (2 ^ e.natAbs : ℕ) ↔ m % 2 ^ e.natAbs = 0 := by
      rw [eq_div_iff hpow, ← Nat.cast_mul, Nat.cast_inj]
      have hself := Nat.div_add_mod m (2 ^ e.natAbs)
      rw [Nat.mul_comm] at hself
      omega
    rw [decide_eq_false (by omega), Bool.false_or, beq_iff_eq, if_pos he, zpow_of_neg he,
      ← div_eq_mul_inv, signed_cast, signed_cast, ← hdvd]
    cases negative <;> simp [neg_div]
  · rw [decide_eq_true (by omega), Bool.true_or, if_neg he, zpow_of_not_neg he, signed_cast,
      signed_cast]
    cases negative <;> simp

/-- What arithmetic makes an integer of, and of which. -/
theorem ofDouble_eq_int_iff {n : ℤ} :
    Value.ofDouble d = .int n ↔ d.place? = some (((n : ℚ) : WithTop ℚ) : Place) := by
  unfold Value.ofDouble
  constructor
  · intro h
    split at h
    · rename_i hwhole
      cases d with
      | nan => cases hwhole
      | infinite negative => cases hwhole
      | finite negative m e =>
        have heq := (isWhole_iff (d := .finite negative m e) rfl).mp hwhole
        rw [Value.int.inj h] at heq
        rw [place?, heq]
    · cases h
  · intro h
    have htruncate : d.truncate = n := by
      rw [truncate_eq h, ← Int.cast_neg, Int.floor_intCast, Int.floor_intCast, neg_neg, ite_self]
    rw [if_pos ((isWhole_iff h).mpr (by rw [htruncate])), htruncate]

end FlowEngine.Double
