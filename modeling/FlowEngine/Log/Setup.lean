import FlowEngine.Data.Display
import FlowEngine.Fault
import FlowEngine.Log.Format

/-!
# Setting up the log

The level and the style of the log are chosen once. The style that is left open follows the
environment: machines read the log in production, or when they are asked for.
-/

namespace FlowEngine.Log

structure Setup where
  level : Level
  style : Style
  deriving DecidableEq, Repr

namespace Setup

def holdsWord (environment : String → Option String) (name word : String) : Bool :=
  (environment name).any fun v => Text.lower v == word

/-- The style of a name, the environment deciding where the name leaves it open. -/
def styleOf (environment : String → Option String) (name : String) : Style :=
  if name == "auto" then
    if holdsWord environment "LOG_FORMAT" "json" || holdsWord environment "ENV" "production" then .json
    else .human
  else if name == "json" then .json
  else .human

def choose (environment : String → Option String) (level style : String) : Except Fault Setup :=
  let name := Text.upper level
  match Level.ofName? name with
  | some level => .ok ⟨level, styleOf environment style⟩
  | none => .error (.outside "ValueError" ("Unknown level: " ++ Text.quoted name))

def shows (setup : Setup) (entries : List Entry) : List Entry :=
  entries.filter fun entry => entry.record.line.level ≥ setup.level

def render (setup : Setup) (entries : List Entry) : String :=
  String.join ((setup.shows entries).map fun entry => setup.style.render entry ++ "\n")

end Setup

end FlowEngine.Log
