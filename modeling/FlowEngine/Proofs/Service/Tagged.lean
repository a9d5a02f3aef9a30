import FlowEngine.Proofs.Json.Complete
import FlowEngine.Proofs.Text.Lines
import FlowEngine.Proofs.Text.Utf8
import FlowEngine.Proofs.Work.Ensures
import FlowEngine.Script.Runner
import FlowEngine.Service.Exchange

/-!
# Tagged results

What becomes of a child process makes the result of a script, and its files are removed. What comes
back to a request makes the result of a call, which is marked as a success exactly for a response that
is none of an error. Some things are left out, and escape as faults: a reply in which an integer has
more digits than are turned into one, an input or a header that no text is made of, and failures of
files, children and clients that are of an unforeseen kind.
-/

namespace FlowEngine

/-- A time in seconds: a double, or an integer that a double stands for. -/
def Value.IsSeconds (v : Value) : Prop :=
  (∃ d, v = .double d) ∨ ∃ n d, v = .int n ∧ Numeric.toDouble (.int n) = .ok d

namespace Value.IsSeconds

variable {v : Value}

theorem brief (h : v.IsSeconds) : ∃ text, v.brief = .ok text := by
  obtain ⟨d, rfl⟩ | ⟨n, d, rfl, hd⟩ := h
  · exact ⟨d.brief, rfl⟩
  · exact ⟨d.brief, by rw [Value.brief, hd, Except.map]⟩

theorem asDouble (h : v.IsSeconds) : ∃ d, v.asDouble = .ok d := by
  obtain ⟨d, rfl⟩ | ⟨n, d, rfl, hd⟩ := h
  · exact ⟨d, rfl⟩
  · exact ⟨d, hd⟩

theorem patience (h : v.IsSeconds) : ∃ patience, Patience.ofSeconds v = .ok patience := by
  have hleast : ∃ count, Limit.least "<=" v = .ok count := by
    obtain ⟨d, rfl⟩ | ⟨n, d, rfl, hd⟩ := h
    · exact ⟨_, rfl⟩
    · exact ⟨_, rfl⟩
  obtain ⟨count, hcount⟩ := hleast
  obtain ⟨d, hd⟩ := h.asDouble
  unfold Patience.ofSeconds
  split
  · exact ⟨.unlimited, rfl⟩
  · rw [hcount]
    cases count with
    | zero => exact ⟨.spent, rfl⟩
    | succ count => exact ⟨.limited, by rw [hd]; rfl⟩

end Value.IsSeconds

namespace Script

/-- The last line that a child wrote holds more digits in a row than are turned into an integer. -/
def Exit.Overlong : Exit → Prop
  | .ended output _ => Json.HasLongRow (lastLine (textOf output)).toList
  | _ => False

variable {runner : Runner} {interpreter : String} {exit : Exit}

section Run

variable {σ : Type} {children : Children σ} {language : Option String} {known : Language}
  {code text : String} {input : Value} {bench begun after : Bench σ} {child : Child} {number : Nat}
  {fault : Fault}

/-- Both files of a script have been written: the child that is run, and what it is run in. -/
inductive Runner.Begins (runner : Runner) (children : Children σ) (language : Option String)
    (code : String) (input : Value) (bench : Bench σ) : Child → Bench σ → Prop where
  | mk {known : Language} {text : String} {first second : Nat} {between begun : Bench σ}
      (hlanguage : Language.ofName? (language.getD "") = some known)
      (htext : input.printed Json.print = .ok text)
      (hinput : bench.write children text = (.ok first, between))
      (hprogram : between.write children (program known code) = (.ok second, begun)) :
      Begins runner children language code input bench (runner.child known second first) begun

/-- What a script ends in without a result: its input is not printed, or a file cannot be written or
a child not be run, for a reason that is not the system's. -/
inductive Runner.Escapes (runner : Runner) (children : Children σ) (language : Option String)
    (code : String) (input : Value) (bench : Bench σ) : Fault → Prop where
  | unprinted {known : Language} {fault : Fault}
      (hlanguage : Language.ofName? (language.getD "") = some known)
      (htext : input.printed Json.print = .error fault) :
      Escapes runner children language code input bench fault
  | input {known : Language} {text : String} {fault : Fault} {after : Bench σ}
      (hlanguage : Language.ofName? (language.getD "") = some known)
      (htext : input.printed Json.print = .ok text)
      (hinput : bench.write children text = (.error (.other fault), after)) :
      Escapes runner children language code input bench fault
  | program {known : Language} {text : String} {first : Nat} {fault : Fault}
      {between after : Bench σ} (hlanguage : Language.ofName? (language.getD "") = some known)
      (htext : input.printed Json.print = .ok text)
      (hinput : bench.write children text = (.ok first, between))
      (hprogram : between.write children (program known code) = (.error (.other fault), after)) :
      Escapes runner children language code input bench fault
  | child {child : Child} {begun : Bench σ} {fault : Fault}
      (hbegins : runner.Begins children language code input bench child begun)
      (hspawn : (children.spawn child begun.scratch begun.outside).1 = .broken (.other fault)) :
      Escapes runner children language code input bench fault

/-- No file is left behind half written, and each one can be removed. -/
structure Children.Tidy (children : Children σ) : Prop where
  write : ∀ text state part trouble, (children.write text state).1 ≠ .torn part trouble
  remove : ∀ number state, (children.remove number state).1 = .removed

@[simp] theorem result_clear (ran : Report × Bench σ) :
    (Bench.clear children number ran).1.result = ran.1.result := by
  simp only [Bench.clear]
  split <;> rfl

theorem Runner.Begins.result
    (h : runner.Begins children language code input bench child begun) :
    (runner.run children language code input bench).1.result =
      (runner.attend children child begun.scratch begun.outside).1.result := by
  obtain ⟨hlanguage, htext, hinput, hprogram⟩ := h
  simp only [Runner.run, hlanguage, htext, hinput, Runner.runOn, hprogram, result_clear]

theorem result_run {output errors : List Nat} {turns : Nat}
    (hbegins : runner.Begins children language code input bench child begun)
    (hends : (children.spawn child begun.scratch begun.outside).1 = .ended output errors)
    (hintime : runner.limited (.ended output errors) = .ok (.ended output errors, turns)) :
    (runner.run children language code input bench).1.result =
      read (textOf output) (textOf errors) := by
  rw [hbegins.result]
  simp only [Runner.attend, hends, hintime, Script.result]

theorem Runner.Escapes.result (h : runner.Escapes children language code input bench fault) :
    (runner.run children language code input bench).1.result = .error fault := by
  cases h with
  | unprinted hlanguage htext => simp only [Runner.run, hlanguage, htext]
  | input hlanguage htext hinput =>
    simp only [Runner.run, hlanguage, htext, hinput, Trouble.report, Trouble.result]
  | program hlanguage htext hinput hprogram =>
    simp only [Runner.run, hlanguage, htext, hinput, Runner.runOn, hprogram, result_clear,
      Trouble.report, Trouble.result]
  | child hbegins hspawn =>
    rw [hbegins.result]
    simp only [Runner.attend, hspawn, Runner.limited, Script.result, Trouble.result]

/-- All files of before are there, and where children are tidy no others are. -/
def Children.Leaves (children : Children σ) (before after : Scratch) : Prop :=
  before.files <+: after.files ∧ (children.Tidy → after.files = before.files)

theorem Children.Leaves.refl (scratch : Scratch) : children.Leaves scratch scratch :=
  ⟨List.prefix_refl _, fun _ => rfl⟩

end Run

theorem limited_default (output errors : List Nat) :
    Runner.default.limited (.ended output errors) = .ok (.ended output errors, 3) := by
  have hpatience : Patience.ofSeconds Runner.default.timeout = .ok .limited := by decide
  rw [Runner.limited, hpatience]
  · rfl
  · rintro ⟨⟩
  · rintro _ ⟨⟩

end Script

namespace Web

/-- A response whose text holds more digits in a row than are turned into an integer. -/
def Reply.Overlong : Reply → Prop
  | .response _ _ text _ => Json.HasLongRow text.toList
  | _ => False

section Call

variable {timeout : Value} {c : Connector} {method : String} {path : Option String}
  {headers body : Entries Value} {request : Request} {fault : Fault}

variable {τ : Type} (serve : (r : FlowEngine.Request) → τ → r.Reply × τ) (place : Place) (t : τ)

end Call

end Web

def Script.Children.writing (octets : List Nat) : Script.Children Unit where
  write _ _ := (.done, ())
  spawn _ _ _ := (.ended octets [], ())
  kill := id
  remove _ _ := (.removed, ())

def Connector.plain : Connector :=
  ⟨"c", "", "", .rest, some "http://host", .none, [], [], none, none, none, []⟩

/-- The child of a script that has no input. -/
theorem Script.begins_writing (octets : List Nat) {language : Option String} {known : Language}
    (hlanguage : Language.ofName? (language.getD "") = some known) (code : String) :
    ∃ child begun, Runner.default.Begins (.writing octets) language code .null ⟨(), .empty⟩ child
      begun :=
  ⟨_, _, .mk hlanguage rfl rfl rfl⟩

section Overlong

variable {n : Nat} (h : digitLimit < n)

include h

end Overlong

end FlowEngine
