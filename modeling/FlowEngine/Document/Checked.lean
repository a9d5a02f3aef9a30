import FlowEngine.Data.Value
import FlowEngine.Number.Numeral
import FlowEngine.Data.Display
import FlowEngine.Json.Parser
import FlowEngine.Text.Search
import FlowEngine.Text.Case

/-!
# Checked reading of documents

A record is read from a document field by field. Every misfit is reported, not only the first one,
in the order of the fields and with the path to its place. A field may go by several names: the
first of them that the document has counts.
-/

namespace FlowEngine.Document

inductive Step where
  | key (name : String)
  | index (place : Nat)
  deriving DecidableEq, Repr

inductive Misfit where
  | missing
  | notText
  | notMember
  | notObject
  | notList
  | notRecord
  | notIntegerText
  | integerTextTooLong
  | fraction
  | notInteger
  | notFinite
  | notInstantText
  | noSuchInstant
  | notInstant
  | notTruthText
  | notTruth
  | notJson
  deriving DecidableEq, Repr

def Misfit.code : Misfit → String
  | .missing => "missing"
  | .notText => "string_type"
  | .notMember => "enum"
  | .notObject => "dict_type"
  | .notList => "list_type"
  | .notRecord => "model_type"
  | .notIntegerText => "int_parsing"
  | .integerTextTooLong => "int_parsing_size"
  | .fraction => "int_from_float"
  | .notInteger => "int_type"
  | .notFinite => "finite_number"
  | .notInstantText => "datetime_from_date_parsing"
  | .noSuchInstant => "datetime_parsing"
  | .notInstant => "datetime_type"
  | .notTruthText => "bool_parsing"
  | .notTruth => "bool_type"
  | .notJson => "json_invalid"

structure Problem where
  path : List Step
  misfit : Misfit
  deriving DecidableEq, Repr

def Step.toValue : Step → Value
  | .key name => .text name
  | .index place => .int place

def Problem.toValue (problem : Problem) : Value :=
  .object [("loc", .list (problem.path.map Step.toValue)), ("type", .text problem.misfit.code)]

/-- A record that fits, or everything that does not. -/
inductive Checked (α : Type) where
  | fits (a : α)
  | misfits (problems : List Problem)
  deriving Repr

namespace Checked

variable {α β : Type}

def map (f : α → β) : Checked α → Checked β
  | fits a => fits (f a)
  | misfits ps => misfits ps

/-- Applies a checked function to a checked argument; the misfits of both are kept. -/
def app : Checked (α → β) → Checked α → Checked β
  | fits f, fits a => fits (f a)
  | fits _, misfits ps => misfits ps
  | misfits ps, fits _ => misfits ps
  | misfits ps, misfits qs => misfits (ps ++ qs)

def toOption : Checked α → Option α
  | fits a => some a
  | misfits _ => none

def toExcept : Checked α → Except (List Problem) α
  | fits a => .ok a
  | misfits ps => .error ps

instance : Functor Checked := ⟨fun f x => map f x, fun a x => map (fun _ => a) x⟩

instance : Seq Checked := ⟨fun f x => app f (x ())⟩

def fail (misfit : Misfit) : Checked α := misfits [⟨[], misfit⟩]

def under (step : Step) : Checked α → Checked α
  | fits a => fits a
  | misfits ps => misfits (ps.map fun p => { p with path := step :: p.path })

def all : List (Checked α) → Checked (List α)
  | [] => fits []
  | x :: rest => app (map List.cons x) (all rest)

end Checked

open Checked

def find? (names : List String) (doc : Entries Value) : Option (String × Value) :=
  names.findSome? fun name => (doc.get? name).map fun v => (name, v)

variable {α : Type}

/-- A field that has to be there. A missing one is reported under its first name. -/
def required (names : List String) (read : Value → Checked α) (doc : Entries Value) : Checked α :=
  match find? names doc with
  | some (name, v) => (read v).under (.key name)
  | none => (fail .missing).under (.key (names.headD ""))

def optional (names : List String) (fallback : α) (read : Value → Checked α)
    (doc : Entries Value) : Checked α :=
  match find? names doc with
  | some (name, v) => (read v).under (.key name)
  | none => fits fallback

/-- The keys of a document that no field has taken, a field taking only the name that counts. -/
def extras (fields : List (List String)) (doc : Entries Value) : Entries Value :=
  let taken := fields.filterMap fun names => (find? names doc).map (·.1)
  doc.filter fun (key, _) => !taken.contains key

def text : Value → Checked String
  | .text s => fits s
  | _ => fail .notText

def nullable (read : Value → Checked α) : Value → Checked (Option α)
  | .null => fits none
  | v => (read v).map some

def object : Value → Checked (Entries Value)
  | .object fields => fits fields
  | _ => fail .notObject

def record (read : Entries Value → Checked α) : Value → Checked α
  | .object fields => read fields
  | _ => fail .notRecord

def listOf (read : Value → Checked α) : Value → Checked (List α)
  | .list items => all (items.mapIdx fun i v => (read v).under (.index i))
  | _ => fail .notList

def textMap : Value → Checked (Entries String)
  | .object fields =>
    all (fields.map fun (k, v) => ((text v).under (.key k)).map fun s => (k, s))
  | _ => fail .notObject

def member (find : Value → Option α) (v : Value) : Checked α :=
  match find v with
  | some a => fits a
  | none => fail .notMember

def truthWord? (s : String) : Option Bool :=
  let word := Text.lower s
  if ["1", "on", "t", "true", "y", "yes"].contains word then some true
  else if ["0", "off", "f", "false", "n", "no"].contains word then some false
  else none

def isMachineInt (n : Int) : Bool := -(Nat.pow 2 63) ≤ n && n < Nat.pow 2 63

def truthOfInt (n : Int) : Checked Bool :=
  if n = 0 then fits false else if n = 1 then fits true else fail .notTruthText

/-- A truth value: itself, one of the words for it, or the numbers one and zero. A number that is not
whole or beyond 64 bits is of the wrong kind, another one has the wrong value. -/
def bool : Value → Checked Bool
  | .bool b => fits b
  | .int n => if isMachineInt n then truthOfInt n else fail .notTruth
  | .double d =>
    if d.isWhole && d.truncate.natAbs < Nat.pow 2 63 then truthOfInt d.truncate else fail .notTruth
  | .text s =>
    match truthWord? s with
    | some b => fits b
    | none => fail .notTruthText
  | _ => fail .notTruth

/-- What follows the zeros in front of a numeral, and the underscores between them. The last zero stays
when no digit follows. -/
def afterZeros (before : Char) : List Char → Option (List Char)
  | [] => some [before]
  | c :: rest =>
    if c == '.' then some (before :: c :: rest)
    else if c == '0' || c == '_' then afterZeros c rest
    else if c.isDigit then some (c :: rest)
    else none

/-- Takes the zeros off the front of a numeral, unless a minus stands before them. -/
def dropZeros : List Char → Option (List Char)
  | [] => none
  | c :: rest =>
    if c == '0' then afterZeros c rest
    else if c == '-' || c.isDigit then some (c :: rest)
    else none

def dropZeroFraction (s : List Char) : List Char :=
  match s.span (· != '.') with
  | (whole, _ :: part) => if part.all (· == '0') then whole else s
  | (_, []) => s

def dropSeparators (s : List Char) : List Char :=
  let doubled := (s.zip (s.drop 1)).contains ('_', '_')
  if s.head? == some '_' || s.getLast? == some '_' || doubled then s else s.filter (· != '_')

/-- The plain spelling of an integer that is written with more than its digits: with a plus, zeros in
front, separators, a point with zeros, or white space around it. -/
def plainSpelling? (s : List Char) : Option (List Char) :=
  let s := Text.trimSpacing s
  let unsigned := match s with
    | '+' :: c :: rest => if c.isDigit then c :: rest else s
    | _ => s
  (dropZeros unsigned).map fun s => dropSeparators (dropZeroFraction s)

def leadingInteger (s : List Char) : List Char :=
  match s with
  | '-' :: rest => '-' :: rest.takeWhile Char.isDigit
  | _ => s.takeWhile Char.isDigit

def isUnplain (digits : List Char) : Bool :=
  digits.isEmpty || (digits.head? == some '0' && digits.length > 1)

def spelledInteger? (s : List Char) : Option Int :=
  let digits := (leadingInteger s).filter Char.isDigit
  if leadingInteger s != s || isUnplain digits || s.length > digitLimit then none
  else
    let n : Int := Numeral.natOfDigits digits
    some (if s.head? == some '-' then -n else n)

def startsTooLong (s : List Char) : Bool :=
  let front := leadingInteger s
  front.length > digitLimit && !isUnplain (front.filter Char.isDigit)

def integerText (s : String) : Checked Int :=
  if startsTooLong s.toList then fail .integerTextTooLong
  else
    match (spelledInteger? s.toList).or ((plainSpelling? s.toList).bind spelledInteger?) with
    | some n => fits n
    | none => fail .notIntegerText

def integer : Value → Checked Int
  | .int n => fits n
  | .bool b => fits (if b then 1 else 0)
  | .double d =>
    if !d.isFinite then fail .notFinite
    else if !d.isWhole then fail .fraction
    else if d.truncate.natAbs < Nat.pow 2 63 then fits d.truncate
    else fail .integerTextTooLong
  | .text s => integerText s
  | _ => fail .notInteger

/-- Where a document comes from: it was made in memory, or read from a text. -/
inductive Origin where
  | memory
  | text
  deriving DecidableEq, Repr

def keptInstant : Option Instant → Checked Instant
  | some t => if t.isKept then fits t else fail .noSuchInstant
  | none => fail .noSuchInstant

/-- An instant: itself, its text, or a count of seconds or milliseconds. An integer beyond 64 bits is a
count in memory only, and there when a double can stand for it. -/
def instant (origin : Origin) : Value → Checked Instant
  | .instant t => fits t
  | .text s =>
    match Instant.ofDocumentText? s with
    | some t => keptInstant (some t)
    | none => fail .notInstantText
  | .int n =>
    if isMachineInt n then keptInstant (Instant.ofCount? n)
    else if origin = .memory && (Double.ofInt? n).isSome then fail .noSuchInstant
    else fail .notInstant
  | .double d => keptInstant (Instant.ofDouble? d)
  | _ => fail .notInstant

end FlowEngine.Document
