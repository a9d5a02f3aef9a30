import FlowEngine.CommandLine.Program
import FlowEngine.Outside.Alone

/-!
# The command

Reads the files and the variables that a command needs, carries it out and writes what it leaves
behind. No service can be reached from here.
-/

namespace FlowEngine.CommandLine

def readFile? (path : String) : IO (Option String) := do
  try
    return some (← IO.FS.readFile path)
  catch _ =>
    return none

def readVariables : List String → IO (Entries String)
  | [] => return []
  | name :: rest => do
    let others ← readVariables rest
    match ← IO.getEnv name with
    | some v => return (name, v) :: others
    | none => return others

/-- The texts of files by path; those that cannot be read are left out. -/
def readFiles : List String → IO (Entries String)
  | [] => return []
  | path :: rest => do
    let others ← readFiles rest
    match ← readFile? path with
    | some text => return (path, text) :: others
    | none => return others

/-- The text of the configuration: that of the file that is named for it, or of the usual one. -/
def readConfiguration : IO (Option String) := do
  match (← IO.getEnv "NEXFLOW_CONFIG").filter (!·.isEmpty) with
  | some path => readFile? path
  | none =>
    match ← IO.getEnv "HOME" with
    | some home => readFile? (home ++ "/.nexflow/configuration.json")
    | none => return none

def leadingNat (text : String) : Nat :=
  Numeral.natOfDigits (text.toList.takeWhile Char.isDigit)

/-- The time: when the machine was started, and how long ago that was. -/
def readClock : IO Instant := do
  let state := (← readFile? "/proc/stat").getD ""
  let started := (state.splitOn "\nbtime ")[1]?.getD ""
  let running := (← readFile? "/proc/uptime").getD ""
  let seconds := leadingNat started + leadingNat running
  return (Instant.ofUnixMicros? (seconds * 1000000)).getD ⟨1970, 1, 1, 0, 0, 0, 0, some 0⟩

def readSurroundings (command : Command) : IO Surroundings := do
  let configuration ← readConfiguration
  let fields := (Settings.fileFields configuration).toOption.getD []
  let values ← readVariables (["LOG_FORMAT", "ENV"] ++ Settings.variableNames fields)
  let files ← readFiles command.files
  return ⟨files.get?, configuration, values.get?⟩

def leave (result : Except Fault Report) : IO UInt32 := do
  match result with
  | .ok report =>
    (← IO.getStderr).putStr report.errors
    (← IO.getStdout).putStr report.output
    return report.exit.toUInt32
  | .error fault =>
    (← IO.getStderr).putStrLn (fault.kind ++ ": " ++ fault.text)
    return 1

def readGenerator : IO StdGen := do
  let octets ← IO.getRandomBytes 8
  return mkStdGen (octets.toList.foldl (fun total octet => total * 256 + octet.toNat) 0)

def start (arguments : List String) : IO UInt32 := do
  match Command.ofArguments arguments with
  | .error .help =>
    (← IO.getStdout).putStr Command.usage
    return 0
  | .error .usage =>
    (← IO.getStderr).putStr Command.usage
    return 2
  | .ok command =>
    let around ← readSurroundings command
    let alone : Alone := ⟨← readClock, ← readGenerator⟩
    leave (execute Alone.outside Alone.children around command alone).1

end FlowEngine.CommandLine

def main (arguments : List String) : IO UInt32 := FlowEngine.CommandLine.start arguments
