import FlowEngine.Text.Blank
import FlowEngine.Text.Search

/-!
# Keys of stored executions

A key becomes the name of a file. The checks refuse every key that could name a place outside the
folder; of several faults the first in the order below is reported.
-/

namespace FlowEngine

inductive KeyError where
  | empty
  | separator (key : String)
  | traversal (key : String)
  | absolute (key : String)
  | nullCharacter
  | dangerous (key : String)
  deriving DecidableEq, Repr

namespace KeyError

def text : KeyError → String
  | .empty => "Key cannot be empty"
  | .separator key => "Invalid key format: path separators not allowed in '" ++ key ++ "'"
  | .traversal key => "Invalid key format: path traversal detected in '" ++ key ++ "'"
  | .absolute key => "Invalid key format: absolute paths not allowed in '" ++ key ++ "'"
  | .nullCharacter => "Invalid key format: null bytes not allowed"
  | .dangerous key => "Invalid key format: contains dangerous characters in '" ++ key ++ "'"

end KeyError

def isDangerous (c : Char) : Bool :=
  ['<', '>', '|', '&', '$', Char.ofNat 96, '\'', '"'].contains c

def checkKey (key : String) : Except KeyError Unit :=
  let chars := key.toList
  if Text.isBlankText key then .error .empty
  else if chars.contains '/' || chars.contains '\\' then .error (.separator key)
  else if Text.containsText key ".." || chars.head? == some '.' then .error (.traversal key)
  else if chars[1]? == some ':' then .error (.absolute key)
  else if chars.contains '\x00' then .error .nullCharacter
  else if chars.any isDangerous then .error (.dangerous key)
  else .ok ()

end FlowEngine
