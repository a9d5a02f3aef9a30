import FlowEngine.Proofs.Number.Range
import FlowEngine.Retry.Policy

/-!
# Policies that can be read

A setting that is no usable number falls back to its default, with two exceptions: an integer that has
no double, and a list or an object that no text is made of, are faults of the reading, which end the
run.
-/

namespace FlowEngine

namespace Value

/-- A value that is no integer beyond all doubles. -/
def NearDouble (v : Value) : Prop := ∀ n, v = .int n → n.natAbs < Double.bound

theorem nearDouble_int_iff {n : Int} : NearDouble (.int n) ↔ n.natAbs < Double.bound := by
  refine ⟨fun h => h n rfl, ?_⟩
  rintro h _ ⟨⟩
  exact h

theorem nearDouble_of_ne_int {v : Value} (h : ∀ n, v ≠ .int n) : v.NearDouble :=
  fun n hv => absurd hv (h n)

theorem ofInt?_cases (n : Int) :
    NearDouble (.int n) ∧ (∃ d, Double.ofInt? n = some d) ∨
      ¬ NearDouble (.int n) ∧ Double.ofInt? n = none := by
  rw [nearDouble_int_iff, ← Nat.not_le, ← Double.ofInt?_eq_none_iff]
  cases Double.ofInt? n with
  | none => exact .inr ⟨fun h => h rfl, rfl⟩
  | some d => exact .inl ⟨by simp, d, rfl⟩

theorem isPrintable_int_iff {n : Int} :
    isPrintable (.int n) = true ↔ n.natAbs < 10 ^ digitLimit := by
  rw [isPrintable, decide_eq_true_iff]
  exact Nat.length_toDigits_le_iff (by decide) (by decide)

theorem NearDouble.isPrintable_int {n : Int} (h : NearDouble (.int n)) :
    isPrintable (.int n) = true := by
  have hbound : Double.bound ≤ 10 ^ digitLimit := Double.bound_le_ten_pow (by decide)
  exact isPrintable_int_iff.mpr (Nat.lt_of_lt_of_le (nearDouble_int_iff.mp h) hbound)

end Value

namespace RetryPolicy

/-- A setting from which a number, or none, is read. -/
structure Legible (v : Value) : Prop where
  near : v.NearDouble
  printable : v.isPrintable = true

def Readable (config : Entries Value) : Prop :=
  ∀ raw, settingsOf config = some raw →
    ∀ name ∈ settingNames, Legible (Value.ofOption (raw.get? name))

/-- What is wrong with a setting that cannot be read. -/
inductive Illegible : Fault → Prop where
  | integerTooLarge : Illegible .integerTooLarge
  | unprintable : Illegible .unprintable

/-- A value that is shown to be read as a number: anything but null, a truth value and a number. -/
inductive IsShown : Value → Prop where
  | text (s : String) : IsShown (.text s)
  | instant (t : Instant) : IsShown (.instant t)
  | list (items : List Value) : IsShown (.list items)
  | object (fields : Entries Value) : IsShown (.object fields)

theorem IsShown.numberSetting {v : Value} (h : IsShown v) :
    numberSetting v = v.shown.map fun text =>
      (Numeral.ofText? text).bind fun d => if d.isFinite then some d else none := by
  cases h <;> simp only [RetryPolicy.numberSetting]

theorem IsShown.nearDouble {v : Value} (h : IsShown v) : v.NearDouble := by
  apply Value.nearDouble_of_ne_int
  rintro n rfl
  cases h

theorem legible_null : Legible .null := ⟨Value.nearDouble_of_ne_int (by simp), rfl⟩

theorem numberSetting_cases (v : Value) :
    Legible v ∧ (∃ d, numberSetting v = .ok d) ∨
      ¬ Legible v ∧ ∃ fault, Illegible fault ∧ numberSetting v = .error fault := by
  have hshown (h : IsShown v) : Legible v ∧ (∃ d, numberSetting v = .ok d) ∨
      ¬ Legible v ∧ ∃ fault, Illegible fault ∧ numberSetting v = .error fault := by
    rw [h.numberSetting, Value.shown]
    obtain ⟨hp, ht⟩ | ⟨hp, ht⟩ := v.printed_cases Value.display
    · exact .inl ⟨⟨h.nearDouble, hp⟩, _, by rw [ht]; rfl⟩
    · refine .inr ⟨fun hl => ?_, _, .unprintable, by rw [ht]; rfl⟩
      cases hp.symm.trans hl.printable
  cases v with
  | int n =>
    obtain ⟨hnear, d, hd⟩ | ⟨hfar, hd⟩ := Value.ofInt?_cases n
    · refine .inl ⟨⟨hnear, hnear.isPrintable_int⟩, if d.isFinite then some d else none, ?_⟩
      simp only [numberSetting, Value.Numeric.toDouble, hd]
      rfl
    · refine .inr ⟨fun h => hfar h.near, _, .integerTooLarge, ?_⟩
      simp [numberSetting, Value.Numeric.toDouble, hd, Except.map]
  | null => exact .inl ⟨legible_null, _, rfl⟩
  | bool _ | double _ => exact .inl ⟨⟨Value.nearDouble_of_ne_int (by simp), rfl⟩, _, rfl⟩
  | text s => exact hshown (.text s)
  | instant t => exact hshown (.instant t)
  | list items => exact hshown (.list items)
  | object fields => exact hshown (.object fields)

/-- A policy is read from every configuration whose settings can be read, and from no other. -/
theorem ofConfig_cases (config : Entries Value) :
    Readable config ∧ (∃ policy, ofConfig config = .ok policy) ∨
      ¬ Readable config ∧ ∃ fault, Illegible fault ∧ ofConfig config = .error fault := by
  cases hs : settingsOf config with
  | none =>
    refine Or.inl ⟨fun raw hr => ?_, default, by simp [ofConfig, hs]⟩
    rw [hs] at hr
    cases hr
  | some raw =>
    have hread : Readable config ↔
        ∀ name ∈ settingNames, Legible (Value.ofOption (raw.get? name)) := by
      simp [Readable, hs]
    rw [hread]
    simp only [settingNames, List.forall_mem_cons, List.not_mem_nil, false_imp_iff,
      implies_true, and_true, ofConfig, hs]
    rcases numberSetting_cases (Value.ofOption (raw.get? "maxRetries")) with
      ⟨h1, retries, e1⟩ | ⟨h1, fault, hf, e1⟩
    · rcases numberSetting_cases (Value.ofOption (raw.get? "backoffMs")) with
        ⟨h2, backoff, e2⟩ | ⟨h2, fault, hf, e2⟩
      · rcases numberSetting_cases (Value.ofOption (raw.get? "backoffMultiplier")) with
          ⟨h3, multiplier, e3⟩ | ⟨h3, fault, hf, e3⟩
        · exact Or.inl ⟨⟨h1, h2, h3⟩, _, by rw [e1, e2, e3]; rfl⟩
        · exact Or.inr ⟨fun h => h3 h.2.2, fault, hf, by rw [e1, e2, e3]; rfl⟩
      · exact Or.inr ⟨fun h => h2 h.2.1, fault, hf, by rw [e1, e2]; rfl⟩
    · exact Or.inr ⟨fun h => h1 h.1, fault, hf, by rw [e1]; rfl⟩

theorem readable_nil : Readable [] := fun _ h => by cases h

end RetryPolicy

end FlowEngine
