import FlowEngine.Data.Brief
import FlowEngine.Data.Display
import FlowEngine.Data.Limit
import FlowEngine.Json.Parser
import FlowEngine.Json.Printer
import FlowEngine.Script.Harness
import FlowEngine.Script.Result
import FlowEngine.Script.Scratch
import FlowEngine.Text.Search
import FlowEngine.Text.Utf8

/-!
# Running scripts

A script is run by an interpreter, as a child process with a limit of time, from two temporary files.
A file that is written is removed whatever happens then. The last line that the child writes tells how
the script ended; all that can go wrong with the child makes a failed result.
-/

namespace FlowEngine.Script

structure Runner where
  timeout : Value
  /-- The interpreters by name. -/
  python : String
  javascript : String
  deriving DecidableEq, Repr

def Runner.ofTimeout (timeout : Value) : Runner := ⟨timeout, "python3", "node"⟩

def Runner.default : Runner := Runner.ofTimeout (.double (.ofNat 10))

def Runner.interpreter (runner : Runner) : Language → String
  | .python => runner.python
  | .javascript => runner.javascript

/-- A child process to be run: its interpreter, and the files it is given. -/
structure Child where
  interpreter : String
  suffix : String
  /-- The number of the file that holds the program. -/
  program : Nat
  input : Nat
  deriving DecidableEq, Repr

inductive Exit where
  | ended (output errors : List Nat)
  | stopped
  | noInterpreter
  | broken (trouble : Trouble)
  deriving DecidableEq, Repr

def unknownLanguage (name : Option String) : Result :=
  .failed (.text ("Unsupported language: " ++ (Value.ofText? name).display ++
    ". Use 'javascript' or 'python'."))

/-- The last line of a text that ends with a visible character. -/
def lastLine (text : String) : String :=
  String.ofList (((Text.splitLines text.toList).getLast?).getD [])

def told : Value → Result
  | .object fields =>
    if Entries.get? fields "success" = some (.bool true) then
      .finished (Value.ofOption (Entries.get? fields "output"))
    else
      .failed ((Value.ofOption (Entries.get? fields "error")).orElse
        (.text "Script returned failure."))
  | _ => .failed (.text "Script returned failure.")

/-- The result of a child that ended. Nothing to read means that the interpreter itself failed. -/
def read (output errors : String) : Except Fault Result :=
  if output.isEmpty then
    .ok (.failed (.text (if errors.isEmpty then "Script produced no output." else errors)))
  else
    match Json.read (lastLine output) with
    | .ok v => .ok (told v)
    | .error .malformed =>
      .ok (.failed (.text ("Script output is not valid JSON: " ++ Text.takeFront 200 output)))
    | .error (.tooManyDigits count) => .error (.tooManyDigits count)

def textOf (octets : List Nat) : String := Text.trim (Text.decodeUtf8 octets)

def result (runner : Runner) (interpreter : String) : Exit → Except Fault Result
  | .ended output errors => read (textOf output) (textOf errors)
  | .stopped => do
    .ok (.failed (.text ("Script timed out after " ++ (← runner.timeout.brief) ++
      " seconds. Check for infinite loops.")))
  | .noInterpreter => .ok (.failed (.text ("Interpreter not found: " ++ interpreter)))
  | .broken trouble => trouble.result

def exitLines : Exit → List Log.Line
  | .ended _ errors =>
    let errors := textOf errors
    if errors.isEmpty then []
    else [Log.line .debug Log.Logger.runner ("Script stderr: " ++ Text.takeFront 500 errors)]
  | .broken trouble => trouble.lines
  | _ => []

/-- What becomes of a child under the limit of time, and for how many turns it is waited for. One
that is given no time is stopped, whatever it would have done. A child that does not begin is not
waited for, and neither is one without a limit. -/
def Runner.limited (runner : Runner) : Exit → Except Fault (Exit × Nat)
  | .noInterpreter => .ok (.noInterpreter, 0)
  | .broken trouble => .ok (.broken trouble, 0)
  | exit => do
    match ← Patience.ofSeconds runner.timeout with
    | .unlimited => .ok (exit, 0)
    | .limited => .ok (exit, 3)
    | .spent => .ok (.stopped, 3)

/-- How the writing of a text to a new file ends. -/
inductive Writing where
  | done
  /-- There is no file. -/
  | refused (trouble : Trouble)
  /-- The file is there with a part of its text, and stays. -/
  | torn (part : String) (trouble : Trouble)
  deriving DecidableEq, Repr

inductive Removal where
  | removed
  | kept (path error : String)
  deriving DecidableEq, Repr

/-- What children and their files are left to. -/
structure Children (σ : Type) where
  write : String → σ → Writing × σ
  /-- Runs a child, which reads its files. -/
  spawn : Child → Scratch → σ → Exit × σ
  /-- Kills the last child and waits for its end. -/
  kill : σ → σ
  /-- Removes the file with a number. -/
  remove : Nat → σ → Removal × σ

/-- Where scripts are run: the temporary files, and all that is outside. -/
structure Bench (σ : Type) where
  outside : σ
  scratch : Scratch

variable {σ : Type}

/-- Runs a child under the limit of time. A child that is stopped is killed. -/
def Runner.attend (runner : Runner) (children : Children σ) (child : Child) (scratch : Scratch)
    (state : σ) : Report × σ :=
  let (exit, state) := children.spawn child scratch state
  match runner.limited exit with
  | .error fault => (⟨0, [], .error fault⟩, state)
  | .ok (exit, turns) =>
    (⟨turns, exitLines exit, result runner child.interpreter exit⟩,
      if exit = .stopped then children.kill state else state)

/-- Writes a text to a new file, and gives its number. -/
def Bench.write (children : Children σ) (text : String) (bench : Bench σ) :
    Except Trouble Nat × Bench σ :=
  let (writing, outside) := children.write text bench.outside
  match writing with
  | .done =>
    let (number, scratch) := bench.scratch.create text
    (.ok number, ⟨outside, scratch⟩)
  | .refused trouble => (.error trouble, { bench with outside })
  | .torn part trouble => (.error trouble, ⟨outside, (bench.scratch.create part).2⟩)

/-- Removes a file after a script. That it cannot be removed is only told in the log. -/
def Bench.clear (children : Children σ) (number : Nat) (ran : Report × Bench σ) :
    Report × Bench σ :=
  let (report, bench) := ran
  let (removal, outside) := children.remove number bench.outside
  match removal with
  | .removed => (report, ⟨outside, bench.scratch.remove number⟩)
  | .kept path error =>
    ({ report with lines := report.lines ++ [Log.line .warning Log.Logger.runner
        ("Could not delete temp file " ++ path ++ ": " ++ error)] },
      { bench with outside })

def Runner.child (runner : Runner) (language : Language) (program input : Nat) : Child :=
  ⟨runner.interpreter language, language.suffix, program, input⟩

/-- Runs a program whose input has been written to a file. -/
def Runner.runOn (runner : Runner) (children : Children σ) (language : Language) (code : String)
    (input : Nat) (bench : Bench σ) : Report × Bench σ :=
  match bench.write children (program language code) with
  | (.error trouble, bench) => (trouble.report, bench)
  | (.ok program, bench) =>
    let (report, outside) := runner.attend children (runner.child language program input)
      bench.scratch bench.outside
    Bench.clear children program (report, { bench with outside })

/-- Runs a piece of code. Its two files are there while the child runs. -/
def Runner.run (runner : Runner) (children : Children σ) (language : Option String)
    (code : String) (input : Value) (bench : Bench σ) : Report × Bench σ :=
  match Language.ofName? (language.getD "") with
  | none => (⟨0, [], .ok (unknownLanguage language)⟩, bench)
  | some known =>
    match input.printed Json.print with
    | .error fault => (⟨0, [], .error fault⟩, bench)
    | .ok text =>
      match bench.write children text with
      | (.error trouble, bench) => (trouble.report, bench)
      | (.ok input, bench) =>
        Bench.clear children input (runner.runOn children known code input bench)

end FlowEngine.Script
