import FlowEngine.Data.Display
import FlowEngine.Expression.Arithmetic
import FlowEngine.Log.Record

/-!
# Retry policies

How often a failed node is tried again and how long the engine waits before. A setting that is
missing or of no use falls back to its default.
-/

namespace FlowEngine

structure RetryPolicy where
  maxRetries : Nat
  backoffMs : Int
  multiplier : Double
  deriving DecidableEq, Repr

namespace RetryPolicy

def maxRetriesCap : Nat := 10

/-- No retry; the other two settings count when only retries are asked for. -/
def default : RetryPolicy := ⟨0, 1000, .ofNat 2⟩

/-- A setting as a finite number. Truth values and texts that are no numerals are none; a text that
is no numeral is worth a warning, and a value without a text is a fault. -/
def numberSetting (v : Value) : Except Fault (Option Double) :=
  let finite (d : Double) : Option Double := if d.isFinite then some d else none
  match v with
  | .null => .ok none
  | .bool _ => .ok none
  | .int n => (Value.Numeric.toDouble (.int n)).map finite
  | .double d => .ok (finite d)
  | v => v.shown.map fun text => (Numeral.ofText? text).bind finite

def settingWarnings : Value → List Log.Line
  | .null | .bool _ | .int _ | .double _ => []
  | v =>
    if !v.isPrintable || (Numeral.ofText? v.display).isSome then []
    else [Log.line .warning Log.Logger.retry
      ("Ignoring non-numeric retry setting: " ++ v.nested)]

def settingNames : List String := ["maxRetries", "backoffMs", "backoffMultiplier"]

def settingsOf (config : Entries Value) : Option (Entries Value) :=
  match config.get? "retry" with
  | some (.object fields) => some fields
  | _ => none

def positive (d : Option Double) : Option Double := d.filter fun d => Double.less (.ofNat 0) d

def ofConfig (config : Entries Value) : Except Fault RetryPolicy :=
  match settingsOf config with
  | none => .ok default
  | some raw => do
    let retries ← numberSetting (Value.ofOption (raw.get? "maxRetries"))
    let backoff ← numberSetting (Value.ofOption (raw.get? "backoffMs"))
    let multiplier ← numberSetting (Value.ofOption (raw.get? "backoffMultiplier"))
    .ok {
      maxRetries := min maxRetriesCap ((retries.map Double.truncate).getD 0).toNat
      backoffMs := ((positive backoff).map Double.truncate).getD default.backoffMs
      multiplier := (positive multiplier).getD default.multiplier }

def warnings (config : Entries Value) : List Log.Line :=
  let rec read (raw : Entries Value) : List String → List Log.Line
    | [] => []
    | name :: rest =>
      let v := Value.ofOption (raw.get? name)
      settingWarnings v ++
        match numberSetting v with
        | .error _ => []
        | .ok _ => read raw rest
  match settingsOf config with
  | none => []
  | some raw => read raw settingNames

def initialDelay (policy : RetryPolicy) : Double :=
  Double.div (Double.ofRatio (policy.backoffMs < 0) policy.backoffMs.natAbs 1) (.ofNat 1000)

def toValue (policy : RetryPolicy) : Value :=
  .object [("max_retries", .int policy.maxRetries), ("backoff_ms", .int policy.backoffMs),
    ("backoff_multiplier", .double policy.multiplier),
    ("initial_delay", .double policy.initialDelay)]

theorem maxRetries_le_of_ofConfig {config : Entries Value} {policy : RetryPolicy}
    (h : ofConfig config = .ok policy) : policy.maxRetries ≤ maxRetriesCap := by
  unfold ofConfig at h
  split at h
  · simp only [Except.ok.injEq] at h
    subst h
    decide
  · simp only [bind, Except.bind] at h
    repeat (split at h; simp at h)
    simp only [Except.ok.injEq] at h
    subst h
    exact Nat.min_le_left _ _

end RetryPolicy

end FlowEngine
