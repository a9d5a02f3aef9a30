import FlowEngine.Number.Numeral
import FlowEngine.Text.Search

/-!
# The arguments of the command line

An argument is an option or a word. An option may be cut short as long as it stays unique, and takes
its value from behind an equals sign or from the next word. A command is given by a word; what follows
belongs to it.
-/

namespace FlowEngine.CommandLine

structure Flag where
  name : String
  takesValue : Bool
  deriving DecidableEq, Repr

inductive Token where
  | word (text : String)
  | option (flag : Flag) (value : Option String)
  | stray
  | separator
  deriving DecidableEq, Repr

inductive Refusal where
  | help
  | usage
  deriving DecidableEq, Repr

def helpFlag : Flag := ⟨"--help", false⟩

/-- Whether a text is a negative number, which is a word although it begins with a dash. -/
def isNegativeNumber (text : String) : Bool :=
  match text.toList with
  | '-' :: rest =>
    let (whole, rest) := (rest.takeWhile Text.isDigit, rest.dropWhile Text.isDigit)
    match rest with
    | [] => !whole.isEmpty
    | '.' :: part => !part.isEmpty && part.all Text.isDigit
    | _ => false
  | _ => false

def splitValue (argument : String) : String × Option String :=
  match Text.splitFirst? ['='] argument.toList with
  | some (name, value) => (String.ofList name, some (String.ofList value))
  | none => (argument, none)

/-- The options that an argument may stand for, with the value that it brings along. A letter after a
single dash stands for the option to ask for help, as often as it is repeated. -/
def meanings (flags : List Flag) (argument : String) : List (Flag × Option String) :=
  if Text.startsWith argument "--" then
    let (name, value) := splitValue argument
    match flags.find? (·.name == name) with
    | some flag => [(flag, value)]
    | none => (flags.filter fun flag => Text.startsWith flag.name name).map fun flag => (flag, value)
  else
    let help (letters : List Char) : List (Flag × Option String) :=
      [(helpFlag, if letters.all (· == 'h') then none else some (String.ofList letters))]
    match argument.toList with
    | '-' :: 'h' :: '=' :: [] => [(helpFlag, some "")]
    | '-' :: 'h' :: '=' :: letters => help letters
    | '-' :: 'h' :: letters => help letters
    | _ => []

/-- What one argument is taken for. One that may stand for several options is refused. -/
def token (flags : List Flag) (argument : String) : Except Refusal Token :=
  if !Text.startsWith argument "-" || argument == "-" then .ok (.word argument)
  else
    match meanings flags argument with
    | [(flag, value)] => .ok (.option flag value)
    | [] =>
      .ok (if isNegativeNumber argument || argument.toList.contains ' ' then .word argument
        else .stray)
    | _ => .error .usage

def tokens (flags : List Flag) : List String → Except Refusal (List Token)
  | [] => .ok []
  | argument :: rest =>
    if argument == "--" then .ok (.separator :: rest.map .word)
    else do
      let first ← token flags argument
      .ok (first :: (← tokens flags rest))

structure Given where
  word : Option String
  values : List (String × String)
  surplus : Bool
  deriving DecidableEq, Repr

def Given.addWord (given : Given) (text : String) : Given :=
  if given.word.isNone then { given with word := some text } else { given with surplus := true }

def Given.addValue (given : Given) (flag : Flag) (value : String) : Given :=
  { given with values := given.values ++ [(flag.name, value)] }

/-- Takes tokens in order. A value that is not accepted is refused, and so is an option without the
value that it takes or with one that it does not take. A separator has to stand before or behind the
word of the command. -/
def gather (accepts : String → String → Bool) : List Token → Given → Except Refusal Given
  | [], given => .ok given
  | .word text :: .separator :: rest, given => gather accepts rest (given.addWord text)
  | .word text :: rest, given => gather accepts rest (given.addWord text)
  | .separator :: rest, given =>
    gather accepts rest
      (if given.word.isNone && !rest.isEmpty then given else { given with surplus := true })
  | .stray :: rest, given => gather accepts rest { given with surplus := true }
  | .option flag (some value) :: rest, given =>
    if flag.takesValue && accepts flag.name value then
      gather accepts rest (given.addValue flag value)
    else .error .usage
  | .option flag none :: .word value :: rest, given =>
    if !flag.takesValue then .error .help
    else if accepts flag.name value then gather accepts rest (given.addValue flag value)
    else .error .usage
  | .option flag none :: _, _ => .error (if flag.takesValue then .usage else .help)

end FlowEngine.CommandLine
