import FlowEngine.Text.Blank
import FlowEngine.Text.Case

/-!
# Harnesses around scripts

The code of a node is put into a program that reads the input of the script from a file, catches what
the code throws and writes one line of JSON that tells how the script ended.
-/

namespace FlowEngine.Script

inductive Language where
  | python
  | javascript
  deriving DecidableEq, Repr

namespace Language

def ofName? (name : String) : Option Language :=
  match Text.lower (Text.trim name) with
  | "python" => some .python
  | "javascript" => some .javascript
  | _ => none

def suffix : Language → String
  | .python => ".py"
  | .javascript => ".js"

def opening : Language → List String
  | .python =>
    ["import contextlib", "import json", "import sys", "",
      "with open(sys.argv[1], encoding=\"utf-8\") as _f:", "    input = json.load(_f)", "",
      "result = None", "try:", "    with contextlib.redirect_stdout(sys.stderr):"]
  | .javascript =>
    ["const fs = require('fs');",
      "const input = JSON.parse(fs.readFileSync(process.argv[2], 'utf8'));",
      "console.log = (...args) => console.error(...args);", "", "try \x7b",
      "    const result = (function(input) \x7b"]

def closing : Language → List String
  | .python =>
    ["    _reply = \x7b\"success\": True, \"output\": result\x7d", "except Exception as _e:",
      "    _reply = \x7b\"success\": False, \"error\": str(_e) or type(_e).__name__\x7d",
      "print(json.dumps(_reply, default=str))"]
  | .javascript =>
    ["    \x7d)(input);",
      "    process.stdout.write(JSON.stringify(\x7b success: true, output: result ?? null \x7d));",
      "\x7d catch (e) \x7b",
      "    process.stdout.write(JSON.stringify(\x7b success: false, error: e && e.message ? e.message : String(e) \x7d));",
      "\x7d"]

end Language

/-- A line pushed in by two levels. A line without a visible character is left alone. -/
def pushIn (line : List Char) : List Char :=
  if line.all Text.isBlank then line else List.replicate 8 ' ' ++ line

def indent (code : String) : String :=
  String.ofList ((Text.splitLines code.toList).flatMap pushIn)

def lines (texts : List String) : String := String.join (texts.map (· ++ "\n"))

def program (language : Language) (code : String) : String :=
  lines language.opening ++ indent code ++ "\n" ++ lines language.closing

end FlowEngine.Script
