import FlowEngine.Data.Value
import FlowEngine.Number.Numeral

/-!
# Reading JSON text

The usual grammar with the words `NaN`, `Infinity` and `-Infinity`. Of equal keys the last value
counts, in the place of the first. An integer of more than 4300 digits is refused as such, which is
a failure apart from text that is no JSON.

Two sets of rules are in use. The lenient ones take any depth, and half a pair of units for a
character; the strict ones, for kept documents, do not.
-/

namespace FlowEngine.Json

inductive ReadError where
  | malformed
  | tooManyDigits (count : Nat)
  deriving DecidableEq, Repr

/-- What is allowed beyond the grammar. -/
structure Rules where
  /-- How many lists and objects with something in them may stand inside each other. -/
  depth : Option Nat
  /-- Whether half a pair of units may stand alone. -/
  allowsHalves : Bool
  /-- Whether the minus counts among the digits of an integer, and the whole part of any number is
  held to their limit. -/
  countsMinus : Bool
  deriving DecidableEq, Repr

def Rules.lenient : Rules := ⟨none, true, false⟩

def Rules.strict : Rules := ⟨some 200, false, true⟩

def isSpace (c : Char) : Bool := c == ' ' || c == '\t' || c == '\n' || c == '\r'

def skipSpace (s : List Char) : List Char := s.dropWhile isSpace

def hexValue? (c : Char) : Option Nat :=
  if c.isDigit then some (c.toNat - 48)
  else if 'a' ≤ c && c ≤ 'f' then some (c.toNat - 87)
  else if 'A' ≤ c && c ≤ 'F' then some (c.toNat - 55)
  else none

def hex4? (a b c d : Char) : Option Nat := do
  some (4096 * (← hexValue? a) + 256 * (← hexValue? b) + 16 * (← hexValue? c) + (← hexValue? d))

/-- The characters that a backslash stands before for something other than themselves, and the
three that stand for themselves. -/
def escapeValue? (c : Char) : Option Nat :=
  if c == '"' || c == '\\' || c == '/' then some c.toNat
  else if c == 'b' then some 8
  else if c == 'f' then some 12
  else if c == 'n' then some 10
  else if c == 'r' then some 13
  else if c == 't' then some 9
  else none

/-- The units of a text after its opening quote, and what follows the closing one. -/
def units : List Char → Except ReadError (List Nat × List Char)
  | [] => .error .malformed
  | '"' :: rest => .ok ([], rest)
  | '\\' :: 'u' :: a :: b :: c :: d :: rest =>
    match hex4? a b c d with
    | none => .error .malformed
    | some n => (units rest).map fun (more, rest) => (n :: more, rest)
  | '\\' :: c :: rest =>
    match escapeValue? c with
    | none => .error .malformed
    | some n => (units rest).map fun (more, rest) => (n :: more, rest)
  | c :: rest =>
    if c.toNat < 32 || c == '\\' then .error .malformed
    else (units rest).map fun (more, rest) => (c.toNat :: more, rest)

def isHighUnit (n : Nat) : Bool := 0xD800 ≤ n && n < 0xDC00

def isLowUnit (n : Nat) : Bool := 0xDC00 ≤ n && n < 0xE000

/-- Joins pairs of units to characters. Half a pair alone is no character and becomes the
replacement character. -/
def joinUnits : List Nat → List Char
  | [] => []
  | [n] => [if isHighUnit n || isLowUnit n then '\ufffd' else Char.ofNat n]
  | n :: m :: rest =>
    if isHighUnit n && isLowUnit m then
      Char.ofNat (0x10000 + (n - 0xD800) * 0x400 + (m - 0xDC00)) :: joinUnits rest
    else (if isHighUnit n || isLowUnit n then '\ufffd' else Char.ofNat n) :: joinUnits (m :: rest)

def hasHalf : List Nat → Bool
  | [] => false
  | [n] => isHighUnit n || isLowUnit n
  | n :: m :: rest =>
    if isHighUnit n && isLowUnit m then hasHalf rest
    else isHighUnit n || isLowUnit n || hasHalf (m :: rest)

def textBody (rules : Rules) (s : List Char) : Except ReadError (String × List Char) :=
  match units s with
  | .error e => .error e
  | .ok (us, rest) =>
    if hasHalf us && !rules.allowsHalves then .error .malformed
    else .ok (String.ofList (joinUnits us), rest)

/-- The whole part of a number: a zero alone or digits that start with another one. -/
def wholePart : List Char → Option (List Char × List Char)
  | '0' :: rest => some (['0'], rest)
  | s =>
    let (digits, rest) := Numeral.spanDigits s
    if digits.isEmpty then none else some (digits, rest)

/-- A point with digits; without them the point is not part of the number. -/
def fractionPart : List Char → List Char × List Char
  | '.' :: rest =>
    let (digits, after) := Numeral.spanDigits rest
    if digits.isEmpty then ([], '.' :: rest) else (digits, after)
  | s => ([], s)

/-- An exponent with digits; without them its letter is not part of the number. -/
def exponentPart (s : List Char) : Option Int × List Char :=
  match s with
  | c :: rest =>
    if c == 'e' || c == 'E' then
      let (_, unsigned) := Numeral.spanSign rest
      let (digits, after) := Numeral.spanDigits unsigned
      if digits.isEmpty then (none, s)
      else (Numeral.exponent? (s.take (s.length - after.length)), after)
    else (none, s)
  | [] => (none, s)

/-- Whether the whole part of a number has more digits than are turned into an integer. -/
def isOverlong (rules : Rules) (negative isInteger : Bool) (whole : List Char) : Bool :=
  (isInteger || rules.countsMinus) &&
    whole.length + (if negative && rules.countsMinus then 1 else 0) > digitLimit

/-- A number after its sign. Without point and exponent it is an integer. -/
def number (rules : Rules) (negative : Bool) (s : List Char) :
    Except ReadError (Value × List Char) :=
  match wholePart s with
  | none => .error .malformed
  | some (whole, rest) =>
    let (part, rest) := fractionPart rest
    let (exponent, rest) := exponentPart rest
    let isInteger := part.isEmpty && exponent.isNone
    if isOverlong rules negative isInteger whole then .error (.tooManyDigits whole.length)
    else if isInteger then
      let n : Int := Numeral.natOfDigits whole
      .ok (.int (if negative then -n else n), rest)
    else
      let digits := (whole ++ part).dropWhile (· == '0')
      .ok (.double (Double.ofDecimal negative (Numeral.natOfRow digits) digits.length
        (exponent.getD 0 - part.length)), rest)

def word? (word : List Char) (s : List Char) : Option (List Char) :=
  if word.isPrefixOf s then some (s.drop word.length) else none

def words : List (List Char × Value) :=
  [("null".toList, .null), ("true".toList, .bool true), ("false".toList, .bool false),
    ("NaN".toList, .double .nan), ("Infinity".toList, .double (.infinite false)),
    ("-Infinity".toList, .double (.infinite true))]

def wordValue? (s : List Char) : Option (Value × List Char) :=
  words.findSome? fun (word, v) => (word? word s).map fun rest => (v, rest)

def scalar (rules : Rules) (s : List Char) : Except ReadError (Value × List Char) :=
  match wordValue? s with
  | some answer => .ok answer
  | none =>
    match s with
    | '-' :: rest => number rules true rest
    | _ => number rules false s

mutual

/-- Reads the value at the front of a text. The first number bounds the calls, the length of the text
being enough; the second is how many lists and objects may still stand inside each other. -/
def value (rules : Rules) : Nat → Nat → List Char → Except ReadError (Value × List Char)
  | 0, _, _ => .error .malformed
  | steps + 1, room, s =>
    match s with
    | '"' :: rest => (textBody rules rest).map fun (t, rest) => (.text t, rest)
    | '[' :: rest =>
      match skipSpace rest, room with
      | ']' :: rest, _ => .ok (.list [], rest)
      | _, 0 => .error .malformed
      | rest, room + 1 => (items rules steps room rest).map fun (vs, rest) => (.list vs, rest)
    | '\x7b' :: rest =>
      match skipSpace rest, room with
      | '\x7d' :: rest, _ => .ok (.object [], rest)
      | _, 0 => .error .malformed
      | rest, room + 1 =>
        (fields rules steps room rest).map fun (fs, rest) => (.object (Entries.ofPairs fs), rest)
    | _ => scalar rules s

def items (rules : Rules) : Nat → Nat → List Char → Except ReadError (List Value × List Char)
  | 0, _, _ => .error .malformed
  | steps + 1, room, s =>
    match value rules steps room s with
    | .error e => .error e
    | .ok (v, rest) =>
      match skipSpace rest with
      | ']' :: rest => .ok ([v], rest)
      | ',' :: rest =>
        (items rules steps room (skipSpace rest)).map fun (vs, rest) => (v :: vs, rest)
      | _ => .error .malformed

def fields (rules : Rules) :
    Nat → Nat → List Char → Except ReadError (List (String × Value) × List Char)
  | 0, _, _ => .error .malformed
  | steps + 1, room, s =>
    match s with
    | '"' :: rest =>
      match textBody rules rest with
      | .error e => .error e
      | .ok (key, rest) =>
        match skipSpace rest with
        | ':' :: rest =>
          match value rules steps room (skipSpace rest) with
          | .error e => .error e
          | .ok (v, rest) =>
            match skipSpace rest with
            | '\x7d' :: rest => .ok ([(key, v)], rest)
            | ',' :: rest =>
              (fields rules steps room (skipSpace rest)).map fun (fs, rest) => ((key, v) :: fs, rest)
            | _ => .error .malformed
        | _ => .error .malformed
    | _ => .error .malformed

end

/-- Reads the value at the front of a text and gives what follows it. -/
def readFront (rules : Rules) (s : List Char) : Except ReadError (Value × List Char) :=
  value rules (s.length + 1) (rules.depth.getD (s.length + 1)) s

def readWith (rules : Rules) (text : String) : Except ReadError Value :=
  match readFront rules (skipSpace text.toList) with
  | .error e => .error e
  | .ok (v, rest) => if (skipSpace rest).isEmpty then .ok v else .error .malformed

def read (text : String) : Except ReadError Value := readWith .lenient text

end FlowEngine.Json
