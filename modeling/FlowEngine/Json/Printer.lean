import FlowEngine.Data.Value
import FlowEngine.Number.Shortest

/-!
# JSON text of values

Text is kept within ASCII: every other character is written as an escape, those beyond the basic
plane as a pair. Instants are written as texts. Doubles that JSON does not know are written as the
words of the common extension.
-/

namespace FlowEngine.Json

def hex4 (n : Nat) : List Char :=
  [Nat.digitChar (n / 4096 % 16), Nat.digitChar (n / 256 % 16), Nat.digitChar (n / 16 % 16),
    Nat.digitChar (n % 16)]

def unitEscape (n : Nat) : List Char := '\\' :: 'u' :: hex4 n

def escapeChar (c : Char) : List Char :=
  if c == '"' then ['\\', '"']
  else if c == '\\' then ['\\', '\\']
  else if c == '\n' then ['\\', 'n']
  else if c == '\r' then ['\\', 'r']
  else if c == '\t' then ['\\', 't']
  else if c == '\x08' then ['\\', 'b']
  else if c == '\x0c' then ['\\', 'f']
  else
    let n := c.toNat
    if 32 ≤ n && n < 127 then [c]
    else if n < 0x10000 then unitEscape n
    else
      let m := n - 0x10000
      unitEscape (0xD800 + m / 0x400) ++ unitEscape (0xDC00 + m % 0x400)

def quote (s : String) : List Char := '"' :: s.toList.flatMap escapeChar ++ ['"']

/-- The text of a double; words stand for the three that are not numbers. -/
def doubleChars : Double → List Char
  | .nan => "NaN".toList
  | .infinite s => if s then "-Infinity".toList else "Infinity".toList
  | d => d.text.toList

def intChars (n : Int) : List Char :=
  if n < 0 then '-' :: Nat.toDigits 10 n.natAbs else Nat.toDigits 10 n.natAbs

def scalarChars : Value → List Char
  | .null => "null".toList
  | .bool b => if b then "true".toList else "false".toList
  | .int n => intChars n
  | .double d => doubleChars d
  | .text s => quote s
  | .instant t => quote t.spaced
  | .list _ => []
  | .object _ => []

mutual

/-- One-line text: a space follows every comma and colon. -/
def chars : Value → List Char
  | .list items => '[' :: itemChars items ++ [']']
  | .object fields => '\x7b' :: fieldChars fields ++ ['\x7d']
  | v => scalarChars v

def itemChars : List Value → List Char
  | [] => []
  | [v] => chars v
  | v :: rest => chars v ++ ',' :: ' ' :: itemChars rest

def fieldChars : List (String × Value) → List Char
  | [] => []
  | [(k, v)] => quote k ++ ':' :: ' ' :: chars v
  | (k, v) :: rest => quote k ++ ':' :: ' ' :: chars v ++ ',' :: ' ' :: fieldChars rest

end

def print (v : Value) : String := String.ofList (chars v)

def lineBreak (level : Nat) : List Char := '\n' :: List.replicate (2 * level) ' '

mutual

def indented (level : Nat) : Value → List Char
  | .list [] => ['[', ']']
  | .list items => '[' :: indentedItems (level + 1) items ++ lineBreak level ++ [']']
  | .object [] => ['\x7b', '\x7d']
  | .object fields => '\x7b' :: indentedFields (level + 1) fields ++ lineBreak level ++ ['\x7d']
  | v => scalarChars v

def indentedItems (level : Nat) : List Value → List Char
  | [] => []
  | [v] => lineBreak level ++ indented level v
  | v :: rest => lineBreak level ++ indented level v ++ ',' :: indentedItems level rest

def indentedFields (level : Nat) : List (String × Value) → List Char
  | [] => []
  | [(k, v)] => lineBreak level ++ quote k ++ ':' :: ' ' :: indented level v
  | (k, v) :: rest =>
    lineBreak level ++ quote k ++ ':' :: ' ' :: indented level v ++ ',' ::
      indentedFields level rest

end

def pretty (v : Value) : String := String.ofList (indented 0 v)

end FlowEngine.Json
