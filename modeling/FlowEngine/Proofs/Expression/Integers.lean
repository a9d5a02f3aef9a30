import Mathlib.Algebra.Order.Ring.Nat
import Mathlib.Data.Nat.Factorization.Basic
import FlowEngine.Proofs.Number.Fraction
import FlowEngine.Proofs.Reference.Saved

/-!
# Integers in expressions

An expression takes its operands to doubles, computes exactly and takes the result to a double once
more; a whole result becomes an integer again. So integer arithmetic is exact as long as the operands
and the result are doubles, as all integers up to `2 ^ 53` are. A quotient of doubles that is an integer
is a double without further ado.
-/

namespace FlowEngine

open Double

/-- What an operator means among rational numbers. -/
def Operator.exact : Operator → ℚ → ℚ → ℚ
  | .plus, x, y => x + y
  | .minus, x, y => x - y
  | .times, x, y => x * y
  | .over, x, y => x / y

namespace Double

/-- What is odd and divides an integer divides the digits that are in front of a power of two. -/
theorem dvd_digits {n k e : ℤ} {m : ℕ} (hodd : Odd m) (hm : m ∣ n.natAbs)
    (hvalue : (n : ℚ) = k * 2 ^ e) : m ∣ k.natAbs := by
  by_cases he : e < 0
  · have hwhole : n * (2 ^ e.natAbs : ℕ) = k := by
      rw [zpow_of_neg he, ← div_eq_mul_inv,
        eq_div_iff (Nat.cast_ne_zero.mpr (Nat.two_pow_pos _).ne')] at hvalue
      exact_mod_cast hvalue
    rw [← hwhole, Int.natAbs_mul]
    exact hm.mul_right _
  · have hwhole : n = k * (2 ^ e.natAbs : ℕ) := by
      rw [zpow_of_not_neg he] at hvalue
      exact_mod_cast hvalue
    have hcoprime : Nat.Coprime m (2 ^ e.natAbs) := (Nat.coprime_two_right.mpr hodd).pow_right _
    rw [hwhole, Int.natAbs_mul, Int.natAbs_natCast] at hm
    exact hcoprime.dvd_of_dvd_mul_right hm

/-- An integer that divides a double is one, since it has no more odd digits. -/
theorem IsDouble.of_mul {n b : ℤ} (h : IsDouble ((n * b : ℤ) : ℚ)) (hb : b ≠ 0) :
    IsDouble n := by
  by_cases hn : n = 0
  · subst hn
    exact .of_natAbs_le (by decide)
  obtain ⟨k, e, -, hk, hvalue⟩ := h.digits
  have hk0 : 0 < k.natAbs := by
    rw [Int.natAbs_pos]
    rintro rfl
    rw [Int.cast_zero, zero_mul, Int.cast_eq_zero, Int.mul_eq_zero] at hvalue
    exact hvalue.elim hn hb
  obtain ⟨f, m, hodd, hm⟩ := Nat.exists_eq_two_pow_mul_odd (Int.natAbs_ne_zero.mpr hn)
  have hdvd : m ∣ (n * b).natAbs := by
    rw [Int.natAbs_mul, hm, Nat.mul_assoc]
    exact (Nat.dvd_mul_right m b.natAbs).mul_left _
  have hlt : m < 2 ^ 53 :=
    Nat.lt_of_le_of_lt (Nat.le_of_dvd hk0 (dvd_digits hodd hdvd hvalue)) hk
  have hsigned : n = signed (n < 0) m * (2 ^ f : ℕ) := by
    conv_lhs => rw [eq_signed n, hm]
    unfold signed
    split <;> push_cast <;> ring
  constructor
  · refine ⟨signed (n < 0) m, f, by omega, ?_, ?_⟩
    · unfold signed
      split <;> omega
    · rw [zpow_natCast]
      exact_mod_cast congrArg (Int.cast (R := ℚ)) hsigned
  · have hone : (1 : ℚ) ≤ |(b : ℚ)| := by
      rw [← Int.cast_abs]
      exact_mod_cast Int.one_le_abs hb
    calc
      |(n : ℚ)| ≤ |(n : ℚ)| * |(b : ℚ)| := le_mul_of_one_le_right (abs_nonneg _) hone
      _ = |((n * b : ℤ) : ℚ)| := by rw [Int.cast_mul, abs_mul]
      _ < 2 ^ 1024 := h.small

end Double

namespace Value

variable {op : Operator} {a b : ℤ} (ha : a.natAbs < bound) (hb : b.natAbs < bound)

include ha hb

theorem evaluate_eq_combine (hp : op ≠ .plus) :
    evaluate op (.int a) (.int b) = .ok (combine op (ofInteger a) (ofInteger b)) := by
  have hna := isNan_of_place? (place?_ofInteger_of_lt ha)
  have hnb := isNan_of_place? (place?_ofInteger_of_lt hb)
  cases op with
  | plus => exact absurd rfl hp
  | _ =>
    simp only [evaluate, asDouble, toDouble_int ha, toDouble_int hb, bind, Except.bind, hna, hnb]
    rfl

theorem evaluate_integers (hz : op = .over → b ≠ 0) :
    ∃ d, evaluate op (.int a) (.int b) = .ok (ofDouble d) ∧
      d.place? = some (placeOf (op.exact (rounding a) (rounding b))) := by
  have hpa := place?_ofInteger_of_lt ha
  have hpb := place?_ofInteger_of_lt hb
  cases op with
  | plus =>
    refine ⟨_, ?_, place?_add hpa hpb⟩
    simp only [evaluate, numeric?, toDouble_int ha, toDouble_int hb]
    rfl
  | minus =>
    have hplace := place?_sub hpa hpb
    refine ⟨_, ?_, hplace⟩
    rw [evaluate_eq_combine ha hb (by decide)]
    simp only [combine, isNan_of_place? hplace]
    rfl
  | times =>
    have hplace := place?_mul hpa hpb
    refine ⟨_, ?_, hplace⟩
    rw [evaluate_eq_combine ha hb (by decide)]
    simp only [combine, isNan_of_place? hplace]
    rfl
  | _ =>
    have hne := rounding_intCast_ne_zero hb (hz rfl)
    have hplace := place?_div hpa hpb hne
    refine ⟨_, ?_, hplace⟩
    rw [evaluate_eq_combine ha hb (by decide)]
    simp only [combine, isZero_of_place? hpb hne, Bool.false_eq_true, if_false,
      isNan_of_place? hplace]

end Value

theorem Template.tight_braced (body : List Char) : Text.Tight (braced body) := by
  have hends : braced body = ('\x7b' :: '\x7b' :: body ++ ['\x7d']) ++ ['\x7d'] := by simp [braced]
  have hlast : (braced body).getLast? = some '\x7d' := by rw [hends, List.getLast?_concat]
  exact Text.tight_of_ends rfl hlast (by decide) (by decide)

namespace Scope

variable (scope : Scope) {body : List Char} {op : Operator} {a b : ℤ}

/-- A reference in which an operator stands between the paths of two integers. -/
def IsComputation (scope : Scope) (body : List Char) (op : Operator) (a b : ℤ) : Prop :=
  ∃ left right, splitOperator (Text.trimChars body) Operator.all = some (left, op, right) ∧
    scope.path left = .ok (.int a) ∧ scope.path right = .ok (.int b)

theorem reference_of_isComputation (h : scope.IsComputation body op a b) :
    scope.reference body = Value.evaluate op (.int a) (.int b) := by
  obtain ⟨left, right, hsplit, hleft, hright⟩ := h
  simp only [reference, expression, String.toList_ofList, hsplit, hleft, hright]
  rfl

/-- A computation gives an integer where the result, computed of the rounded operands, is rounded to
it. -/
theorem reference_eq_int_iff (h : scope.IsComputation body op a b) (ha : a.natAbs < bound)
    (hb : b.natAbs < bound) (hz : op = .over → b ≠ 0) (n : ℤ) :
    scope.reference body = .ok (.int n) ↔
      |rounding (op.exact (rounding a) (rounding b))| < 2 ^ 1024 ∧
        rounding (op.exact (rounding a) (rounding b)) = n := by
  obtain ⟨d, hd, hplace⟩ := Value.evaluate_integers ha hb hz
  rw [scope.reference_of_isComputation h, hd, Except.ok.injEq, ofDouble_eq_int_iff, hplace,
    Option.some_inj, placeOf_eq_coe_iff]

theorem isDouble_result {n : ℤ} (ha : IsDouble a) (hz : op = .over → b ≠ 0)
    (hn : op.exact a b = n) (hd : op ≠ .over → IsDouble n) : IsDouble n := by
  by_cases hop : op = .over
  · subst hop
    have hb := hz rfl
    have hproduct : a = n * b := by
      have hmul : (a : ℚ) = n * b := (div_eq_iff (Int.cast_ne_zero.mpr hb)).mp hn
      exact_mod_cast hmul
    exact .of_mul (hproduct ▸ ha) hb
  · exact hd hop

theorem exact_of_isDouble {n : ℤ} (h : scope.IsComputation body op a b) (hna : a.natAbs < bound)
    (hnb : b.natAbs < bound) (hz : op = .over → b ≠ 0) (hn : op.exact a b = n) (ha : IsDouble a)
    (hb : IsDouble b) (hd : op ≠ .over → IsDouble n) : scope.reference body = .ok (.int n) := by
  have hresult : IsDouble n := isDouble_result ha hz hn hd
  rw [scope.reference_eq_int_iff h hna hnb hz, ha.rounding_eq, hb.rounding_eq, hn,
    hresult.rounding_eq]
  exact ⟨hresult.small, rfl⟩

/-- Integers are computed with in doubles: the operands are rounded, and so is the result. Whatever the
operator, the result is exact if it and the operands are doubles. It is also what a setting of one
reference takes, and its digits are what stands in text. -/
theorem integer_arithmetic (scope : Scope) (h : scope.IsComputation body op a b)
    (ha : a.natAbs < bound) (hb : b.natAbs < bound) (hz : op = .over → b ≠ 0) :
    (∀ n : ℤ, scope.reference body = .ok (.int n) ↔
        |rounding (op.exact (rounding a) (rounding b))| < 2 ^ 1024 ∧
          rounding (op.exact (rounding a) (rounding b)) = n) ∧
      (∀ n : ℤ, op.exact a b = n → IsDouble a → IsDouble b → (op ≠ .over → IsDouble n) →
        scope.reference body = .ok (.int n)) ∧
      (∀ n : ℤ, op.exact a b = n → a.natAbs ≤ 2 ^ 53 → b.natAbs ≤ 2 ^ 53 → n.natAbs ≤ 2 ^ 53 →
        scope.reference body = .ok (.int n)) ∧
      ∀ (v : String) (n : ℤ), Template.IsBody body → v.toList = Template.braced body →
        scope.reference body = .ok (.int n) →
          scope.setting (.text v) = .ok (.int n) ∧ scope.resolve v = .ok (toString n) := by
  refine ⟨scope.reference_eq_int_iff h ha hb hz, ?_, ?_, ?_⟩
  · intro n hn hda hdb hd
    exact scope.exact_of_isDouble h ha hb hz hn hda hdb hd
  · intro n hn hsa hsb hsn
    exact scope.exact_of_isDouble h ha hb hz hn (.of_natAbs_le hsa) (.of_natAbs_le hsb)
      fun _ => .of_natAbs_le hsn
  · intro v n hbody hv hr
    have htight := Template.tight_braced body
    have htrim : Text.trimChars v.toList = Template.braced body := by
      rw [hv, Text.trimChars_eq_self htight.front htight.back]
    constructor
    · rw [scope.setting_braced hbody.ne_nil htrim, hr]
      rfl
    · rw [scope.resolve_braced hbody hv, hr]
      rfl

end Scope

namespace Computed

def scope (a b : ℤ) : Scope where
  context := { Context.create "f" "e" ⟨0, 0, 0, 0, 0, 0, 0, none⟩ with
    vars := [("a", .int a), ("b", .int b)] }
  loop := none

def quotient : List Char := "variables.a / variables.b".toList

def sum : List Char := "variables.a + variables.b".toList

theorem isComputation_quotient (a b : ℤ) : (scope a b).IsComputation quotient .over a b :=
  ⟨"variables.a", "variables.b", by decide, rfl, rfl⟩

theorem isComputation_sum (a b : ℤ) : (scope a b).IsComputation sum .plus a b :=
  ⟨"variables.a", "variables.b", by decide, rfl, rfl⟩

/-- The operands of this quotient have many digits, but in binary not many that matter. -/
theorem integer_arithmetic_quotient :
    (scope (3 * 2 ^ 60) (2 ^ 60)).IsComputation quotient .over (3 * 2 ^ 60) (2 ^ 60) ∧
      (scope (3 * 2 ^ 60) (2 ^ 60)).reference quotient = .ok (.int 3) := by
  have hcomputation := isComputation_quotient (3 * 2 ^ 60) (2 ^ 60)
  have hthree : IsDouble ((3 * 2 ^ 60 : ℤ) : ℚ) := .of_digits (by decide) (by decide)
  have hone : IsDouble ((1 * 2 ^ 60 : ℤ) : ℚ) := .of_digits (by decide) (by decide)
  have hexact : Operator.over.exact ((3 * 2 ^ 60 : ℤ) : ℚ) ((2 ^ 60 : ℤ) : ℚ) = (3 : ℤ) := by
    rw [Operator.exact]
    norm_num
  have hbound : ∀ k : ℤ, k.natAbs ≤ 2 ^ 62 → k.natAbs < bound := fun k hk =>
    lt_of_le_of_lt hk (lt_of_lt_of_le (Nat.pow_lt_pow_right (by decide) (by decide)) two_pow_le_bound)
  refine ⟨hcomputation, ?_⟩
  exact (Scope.integer_arithmetic _ hcomputation (hbound _ (by decide)) (hbound _ (by decide))
    (fun _ => by decide)).2.1 3 hexact hthree hone (fun h => absurd rfl h)

/-- One more than `2 ^ 53` is no double, and the even number below it is as near as the one above. -/
theorem odd_sum_rounded :
    ¬ ∀ (scope : Scope) (body : List Char) (op : Operator) (a b n : ℤ),
      scope.IsComputation body op a b → (op = .over → b ≠ 0) → op.exact a b = n →
        scope.reference body = .ok (.int n) := by
  intro hall
  have hexact : Operator.plus.exact ((2 ^ 53 : ℤ) : ℚ) ((1 : ℤ) : ℚ) = (2 ^ 53 + 1 : ℤ) := by
    rw [Operator.exact]
    norm_num
  have hsum := hall (scope (2 ^ 53) 1) sum .plus (2 ^ 53) 1 (2 ^ 53 + 1) (isComputation_sum _ _)
    (fun h => by cases h) hexact
  rw [Scope.reference_of_isComputation _ (isComputation_sum _ _)] at hsum
  have hrounded : Value.evaluate .plus (.int (2 ^ 53)) (.int 1) = .ok (.int (2 ^ 53)) := by
    rfl
  rw [hrounded] at hsum
  exact absurd hsum (by decide)

end Computed

end FlowEngine
