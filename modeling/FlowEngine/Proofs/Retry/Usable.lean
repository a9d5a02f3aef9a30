import FlowEngine.Proofs.Number.Fraction
import FlowEngine.Proofs.Retry.Readable

/-!
# What a policy is read as

Each setting of a policy amounts to a number or to none, and the policy is told by these three. A policy
that is read can be used for retries: it has a bounded number of them, a wait and a growth of the wait.
The one exception is a wait below a millisecond, which is no default but no whole millisecond either.
-/

namespace FlowEngine

namespace Double

variable {d : Double} {x : ℚ}

def value? : Double → Option ℚ
  | .finite negative m e => some ((signed negative m : ℚ) * 2 ^ e)
  | _ => none

theorem value?_eq_some_iff : d.value? = some x ↔ d.place? = some ((x : WithTop ℚ) : Place) := by
  cases d with
  | nan => exact iff_of_false (fun h => by cases h) fun h => by cases h
  | infinite negative => cases negative <;> exact iff_of_false (fun h => by cases h) fun h => by cases h
  | finite negative m e =>
    rw [value?, place?, Option.some_inj, Option.some_inj, WithBot.coe_inj, WithTop.coe_inj]

theorem value?_ofNat {n : ℕ} (h : n ≤ 2 ^ 53) : (ofNat n).value? = some (n : ℚ) := by
  have hnear := place?_ofInteger n
  rw [nearest_of_le (by omega), Int.cast_natCast] at hnear
  rw [value?_eq_some_iff, ← hnear, ofInteger, Int.natAbs_natCast, decide_eq_false (by omega), ofNat]

end Double

/-- The number that a value amounts to as a setting. What is missing, a truth value, a text that is no
numeral and what is not finite amount to none. -/
def Value.amount? : Value → Option ℚ
  | .null => none
  | .bool _ => none
  | .int n => some (Double.rounding n)
  | .double d => d.value?
  | v => (Numeral.ofText? v.display).bind Double.value?

namespace RetryPolicy

variable {config : Entries Value} {policy : RetryPolicy} {found : Option Double}
  {amount : Option ℚ}

/-- A double that was read has the number as its value, and none was read where there is none. -/
def Amounts (found : Option Double) (amount : Option ℚ) : Prop :=
  Option.Rel (fun d x => d.value? = some x) found amount

theorem amounts_finite (d : Double) : Amounts (if d.isFinite then some d else none) d.value? := by
  cases d with
  | nan => exact .none
  | infinite negative => exact .none
  | finite negative m e => exact .some rfl

theorem amounts_bind (found : Option Double) :
    Amounts (found.bind fun d => if d.isFinite then some d else none)
      (found.bind Double.value?) := by
  cases found with
  | none => exact .none
  | some d => exact amounts_finite d

theorem IsShown.amount? {v : Value} (h : IsShown v) :
    v.amount? = (Numeral.ofText? v.display).bind Double.value? := by
  cases h <;> simp only [Value.amount?]

theorem amounts_shown {v : Value} (hv : IsShown v) (h : numberSetting v = .ok found) :
    Amounts found v.amount? := by
  rw [hv.numberSetting, Value.shown] at h
  rw [hv.amount?]
  obtain ⟨-, ht⟩ | ⟨-, ht⟩ := v.printed_cases Value.display
  · rw [ht, Except.map, Except.ok.injEq] at h
    exact h ▸ amounts_bind _
  · rw [ht, Except.map] at h
    cases h

theorem amounts_numberSetting {v : Value} (h : numberSetting v = .ok found) :
    Amounts found v.amount? := by
  cases v with
  | null => cases h; exact .none
  | bool b => cases h; exact .none
  | int n =>
    have hnear : n.natAbs < Double.bound := by
      rcases numberSetting_cases (.int n) with ⟨hn, -⟩ | ⟨-, fault, -, he⟩
      · exact hn.near n rfl
      · rw [he] at h
        cases h
    have hvalue := Double.value?_eq_some_iff.mpr (Double.place?_ofInteger_of_lt hnear)
    rw [numberSetting, Double.toDouble_int hnear] at h
    obtain rfl := Except.ok.inj h
    rw [Value.amount?, ← hvalue]
    exact amounts_finite (Double.ofInteger n)
  | double d => cases h; exact amounts_finite d
  | text s => exact amounts_shown (.text s) h
  | instant t => exact amounts_shown (.instant t) h
  | list items => exact amounts_shown (.list items) h
  | object fields => exact amounts_shown (.object fields) h

section Amounts

variable (h : Amounts found amount)

include h

theorem Amounts.positive : Amounts (positive found) (amount.filter (0 < ·)) := by
  cases h with
  | none => exact .none
  | @some d x hd =>
    have hzero := Double.value?_eq_some_iff.mp (Double.value?_ofNat (Nat.zero_le (2 ^ 53)))
    have hless : Double.less (.ofNat 0) d = decide (0 < x) := by
      rw [Double.less_eq hzero (Double.value?_eq_some_iff.mp hd), Nat.cast_zero]
      simp only [WithBot.coe_lt_coe, WithTop.coe_lt_coe]
    by_cases hx : 0 < x
    · rw [RetryPolicy.positive, Option.filter_some_pos (by simpa [hless] using hx),
        Option.filter_some_pos (by simpa using hx)]
      exact .some hd
    · rw [RetryPolicy.positive, Option.filter_some_neg (by simpa [hless] using hx),
        Option.filter_some_neg (by simpa using hx)]
      exact .none

theorem Amounts.truncate_toNat :
    ((found.map Double.truncate).getD 0).toNat = amount.elim 0 Nat.floor := by
  cases h with
  | none => rfl
  | @some d x hd =>
    rw [Option.map_some, Option.getD_some, Option.elim_some,
      Double.truncate_eq (Double.value?_eq_some_iff.mp hd)]
    by_cases hx : x < 0
    · have hfloor : 0 ≤ ⌊-x⌋ := Int.floor_nonneg.mpr (by linarith)
      rw [if_pos hx, Nat.floor_of_nonpos hx.le]
      omega
    · rw [if_neg hx, Int.floor_toNat]

theorem Amounts.truncate_positive (least : ℤ) :
    ((RetryPolicy.positive found).map Double.truncate).getD least =
      (amount.filter (0 < ·)).elim least Int.floor := by
  have hpositive := h.positive
  generalize RetryPolicy.positive found = kept at hpositive ⊢
  cases hf : amount.filter (0 < ·) with
  | none =>
    rw [hf] at hpositive
    cases hpositive
    rfl
  | some x =>
    have hx : 0 < x := by simpa using (Option.filter_eq_some_iff.mp hf).2
    rw [hf] at hpositive
    cases hpositive with
    | some hd =>
      rw [Option.map_some, Option.getD_some, Option.elim_some,
        Double.truncate_eq (Double.value?_eq_some_iff.mp hd), if_neg hx.le.not_gt]

theorem Amounts.value?_positive {d : Double} {x : ℚ} (hd : d.value? = some x) :
    ((RetryPolicy.positive found).getD d).value? = some ((amount.filter (0 < ·)).getD x) := by
  have hpositive := h.positive
  generalize RetryPolicy.positive found = kept at hpositive ⊢
  generalize amount.filter (0 < ·) = wanted at hpositive ⊢
  cases hpositive with
  | none => exact hd
  | some hkept => exact hkept

end Amounts

/-- What the configuration of a node asks for by the name of a setting. -/
def asked? (config : Entries Value) (name : String) : Option ℚ :=
  (settingsOf config).bind fun raw => (Value.ofOption (raw.get? name)).amount?

theorem exists_amounts (h : ofConfig config = .ok policy) :
    ∃ retries backoff growth,
      Amounts retries (asked? config "maxRetries") ∧
      Amounts backoff (asked? config "backoffMs") ∧
      Amounts growth (asked? config "backoffMultiplier") ∧
      policy.maxRetries = min maxRetriesCap ((retries.map Double.truncate).getD 0).toNat ∧
      policy.backoffMs = ((positive backoff).map Double.truncate).getD default.backoffMs ∧
      policy.multiplier = (positive growth).getD default.multiplier := by
  cases hs : settingsOf config with
  | none =>
    simp only [ofConfig, hs, Except.ok.injEq] at h
    subst h
    simp only [asked?, hs]
    exact ⟨none, none, none, .none, .none, .none, by decide, rfl, rfl⟩
  | some raw =>
    simp only [ofConfig, hs] at h
    simp only [asked?, hs, Option.bind_some]
    cases hr : numberSetting (Value.ofOption (raw.get? "maxRetries")) with
    | error fault => rw [hr] at h; cases h
    | ok retries =>
      cases hb : numberSetting (Value.ofOption (raw.get? "backoffMs")) with
      | error fault => rw [hr, hb] at h; cases h
      | ok backoff =>
        cases hm : numberSetting (Value.ofOption (raw.get? "backoffMultiplier")) with
        | error fault => rw [hr, hb, hm] at h; cases h
        | ok growth =>
          rw [hr, hb, hm] at h
          cases h
          exact ⟨retries, backoff, growth, amounts_numberSetting hr, amounts_numberSetting hb,
            amounts_numberSetting hm, rfl, rfl, rfl⟩

/-- A bounded number of retries, a wait before them and a finite growth of the wait. -/
structure Usable (policy : RetryPolicy) : Prop where
  retries : policy.maxRetries ≤ 10
  wait : 0 < policy.backoffMs
  growth : ∃ x, policy.multiplier.value? = some x ∧ 0 < x

/-- A policy is made of the numbers that are asked for: they are cut down to integers where integers are
needed, and what is no use is the default. Only a wait above zero and below a millisecond, which is cut
down to none, makes it unusable. -/
theorem policy_of_settings (h : ofConfig config = .ok policy) :
    policy.maxRetries = min 10 ((asked? config "maxRetries").elim 0 Nat.floor) ∧
      policy.backoffMs = ((asked? config "backoffMs").filter (0 < ·)).elim 1000 Int.floor ∧
      policy.multiplier.value? =
        some (((asked? config "backoffMultiplier").filter (0 < ·)).getD 2) ∧
      (policy.Usable ↔ ∀ x, asked? config "backoffMs" = some x → 0 < x → 1 ≤ x) := by
  obtain ⟨retries, backoff, growth, hr, hb, hg, hretries, hbackoff, hgrowth⟩ := exists_amounts h
  rw [hr.truncate_toNat] at hretries
  rw [hb.truncate_positive] at hbackoff
  have hdefault : default.multiplier.value? = some 2 :=
    Double.value?_ofNat (n := 2) (by decide)
  have hvalue := hg.value?_positive hdefault
  rw [← hgrowth] at hvalue
  refine ⟨hretries, hbackoff, hvalue, ?_⟩
  constructor
  · intro husable x hx hpos
    have hwait := husable.wait
    rw [hbackoff, hx, Option.filter_some_pos (by simpa using hpos), Option.elim_some] at hwait
    exact Int.floor_pos.mp hwait
  · intro hwhole
    have hretries : policy.maxRetries ≤ 10 := hretries ▸ Nat.min_le_left _ _
    refine ⟨hretries, ?_, _, hvalue, ?_⟩
    · rw [hbackoff]
      cases hf : (asked? config "backoffMs").filter (0 < ·) with
      | none => decide
      | some x =>
        obtain ⟨hx, hpos⟩ := Option.filter_eq_some_iff.mp hf
        exact Int.floor_pos.mpr (hwhole x hx (by simpa using hpos))
    · cases hf : (asked? config "backoffMultiplier").filter (0 < ·) with
      | none => exact two_pos
      | some x => simpa using (Option.filter_eq_some_iff.mp hf).2

namespace Asked

def settings (retries backoff multiplier : Value) : Entries Value :=
  [("retry", .object [("maxRetries", retries), ("backoffMs", backoff),
    ("backoffMultiplier", multiplier)])]

/-- Too many retries, a wait that is written as a text with a fraction, and a truth value. -/
theorem policy_of_settings_fraction :
    ofConfig (settings (.int 50) (.text " 1.5 ") (.bool true)) = .ok ⟨10, 1, .ofNat 2⟩ ∧
      Usable ⟨10, 1, .ofNat 2⟩ := by
  have hread : ofConfig (settings (.int 50) (.text " 1.5 ") (.bool true)) =
      .ok ⟨10, 1, .ofNat 2⟩ := by decide +kernel
  refine ⟨hread, (policy_of_settings hread).2.2.2.mpr ?_⟩
  have hnumeral : Numeral.ofText? " 1.5 " = some (.finite false (3 * 2 ^ 51) (-52)) := by decide
  have hasked : asked? (settings (.int 50) (.text " 1.5 ") (.bool true)) "backoffMs" =
      (Numeral.ofText? " 1.5 ").bind Double.value? := rfl
  intro x hx hpos
  rw [hasked, hnumeral, Option.bind_some, Double.value?, Option.some_inj] at hx
  subst hx
  norm_num [Double.signed]

/-- Half a millisecond is more than no time, and no whole millisecond. -/
theorem half_millisecond_dropped :
    ¬ ∀ (config : Entries Value) (policy : RetryPolicy),
      ofConfig config = .ok policy → policy.Usable := by
  intro hall
  have hread : ofConfig (settings (.int 1) (.double (.ofRatio false 1 2)) .null) =
      .ok ⟨1, 0, .ofNat 2⟩ := by decide +kernel
  exact absurd (hall _ _ hread).wait (by decide)

end Asked

end RetryPolicy

end FlowEngine
