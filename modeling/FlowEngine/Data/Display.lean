import FlowEngine.Data.Value
import FlowEngine.Fault
import FlowEngine.Number.Shortest
import FlowEngine.Text.Printable

/-!
# Display text of values

The text a setting takes when something other than text is configured: words for null and the truth
values, and brackets with quoted texts for lists and objects. No text is made of an integer with more
digits than the limit, and none of a list or an object that holds one.
-/

namespace FlowEngine

namespace Text

def hexChars (width n : Nat) : List Char :=
  let digits := Nat.toDigits 16 n
  List.replicate (width - digits.length) '0' ++ digits

def quotedChar (quote c : Char) : List Char :=
  if c == quote || c == '\\' then ['\\', c]
  else if c == '\n' then ['\\', 'n']
  else if c == '\r' then ['\\', 'r']
  else if c == '\t' then ['\\', 't']
  else if isPrintable c then [c]
  else if c.toNat < 0x100 then '\\' :: 'x' :: hexChars 2 c.toNat
  else if c.toNat < 0x10000 then '\\' :: 'u' :: hexChars 4 c.toNat
  else '\\' :: 'U' :: hexChars 8 c.toNat

/-- A text in quotes: single ones, unless the text holds single but no double quotes. -/
def quoted (s : String) : String :=
  let chars := s.toList
  let quote := if chars.contains '\'' && !chars.contains '"' then '"' else '\''
  String.ofList (quote :: chars.flatMap (quotedChar quote) ++ [quote])

end Text

namespace Instant

def structured (t : Instant) : String :=
  let parts := [t.year, t.month, t.day, t.hour, t.minute] ++
    (if t.second = 0 && t.micro = 0 then [] else [t.second]) ++
    (if t.micro = 0 then [] else [t.micro])
  let fields := ", ".intercalate (parts.map toString)
  let zone :=
    match t.offset with
    | none => ""
    | some 0 => ", tzinfo=datetime.timezone.utc"
    | some seconds =>
      let inside :=
        if seconds < 0 then "days=-1, seconds=" ++ toString (86400 + seconds)
        else "seconds=" ++ toString seconds
      ", tzinfo=datetime.timezone(datetime.timedelta(" ++ inside ++ "))"
  "datetime.datetime(" ++ fields ++ zone ++ ")"

end Instant

namespace Value

mutual

def nested : Value → String
  | .null => "None"
  | .bool b => if b then "True" else "False"
  | .int n => toString n
  | .double d => d.text
  | .text s => Text.quoted s
  | .instant t => t.structured
  | .list items => "[" ++ ", ".intercalate (nestedItems items) ++ "]"
  | .object fields => "\x7b" ++ ", ".intercalate (nestedFields fields) ++ "\x7d"

def nestedItems : List Value → List String
  | [] => []
  | v :: rest => nested v :: nestedItems rest

def nestedFields : List (String × Value) → List String
  | [] => []
  | (k, v) :: rest => (Text.quoted k ++ ": " ++ nested v) :: nestedFields rest

end

def display : Value → String
  | .text s => s
  | .instant t => t.spaced
  | v => v.nested

mutual

/-- Whether a text is made of a value. -/
def isPrintable : Value → Bool
  | .int n => (Nat.toDigits 10 n.natAbs).length ≤ digitLimit
  | .list items => isPrintableItems items
  | .object fields => isPrintableFields fields
  | _ => true

def isPrintableItems : List Value → Bool
  | [] => true
  | v :: rest => isPrintable v && isPrintableItems rest

def isPrintableFields : List (String × Value) → Bool
  | [] => true
  | (_, v) :: rest => isPrintable v && isPrintableFields rest

end

/-- Some text of a value, where texts are made of it. -/
def printed (text : Value → String) (v : Value) : Except Fault String :=
  if v.isPrintable then .ok (text v) else .error .unprintable

def shown (v : Value) : Except Fault String := v.printed display

theorem printed_cases (text : Value → String) (v : Value) :
    v.isPrintable = true ∧ v.printed text = .ok (text v) ∨
      v.isPrintable = false ∧ v.printed text = .error .unprintable := by
  unfold printed
  cases v.isPrintable
  · exact .inr ⟨rfl, rfl⟩
  · exact .inl ⟨rfl, rfl⟩

theorem eq_unprintable_of_shown {v : Value} {fault : Fault} (h : v.shown = .error fault) :
    fault = .unprintable := by
  obtain ⟨-, ht⟩ | ⟨-, ht⟩ := v.printed_cases display
  · cases ht.symm.trans h
  · exact Except.error.inj (h.symm.trans ht)

theorem shown_eq_ok {v : Value} (h : v.isPrintable = true) : v.shown = .ok v.display := by
  rw [shown, printed, if_pos h]

end Value

end FlowEngine
