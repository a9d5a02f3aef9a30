import FlowEngine.Text.Search

/-!
# Paths of files

A path is a way from the root or from here through folders. Steps that lead nowhere are not part of
it, so that several texts stand for one path; each path has one text.
-/

namespace FlowEngine

/-- A path: the slashes that it begins with, and its parts. -/
structure FilePath where
  root : String
  parts : List String
  deriving DecidableEq, Repr

namespace FilePath

def leads (part : String) : Bool := part != "" && part != "."

def between (text : String) : List String := (Text.splitAt '/' text.toList).map String.ofList

/-- The root of a path that begins with so many slashes. Two of them are a root of their own. -/
def rootOf (slashes : Nat) : String :=
  if slashes = 0 then "" else if slashes = 2 then "//" else "/"

def ofText (text : String) : FilePath :=
  ⟨rootOf (text.toList.takeWhile (· == '/')).length, (between text).filter leads⟩

/-- The text of a path. The path that leads nowhere is a dot. -/
def text (path : FilePath) : String :=
  if path.root.isEmpty && path.parts.isEmpty then "." else path.root ++ Text.join "/" path.parts

def name (path : FilePath) : String := path.parts.getLastD ""

/-- The name without its last ending. A dot at either end of the name begins no ending. -/
def stem (path : FilePath) : String :=
  let chars := path.name.toList
  let ending := (chars.reverse.takeWhile (· != '.')).length
  let before := chars.take (chars.length - ending - 1)
  if ending = 0 || ending = chars.length || before.isEmpty then path.name else String.ofList before

/-- The path of the file that a text names. A text that ends like that of a folder names none. -/
def ofFileText? (text : String) : Option FilePath :=
  if leads ((between text).getLastD "") then some (ofText text) else none

end FilePath

end FlowEngine
