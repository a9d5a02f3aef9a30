import FlowEngine.Number.Numeral

/-!
# Instants

A calendar date with a time of day and, as a rule, an offset from UTC. Three texts of it are in use:
the ISO form, the same with a space between date and time, and the form of documents, in which UTC
is written `Z`.
-/

namespace FlowEngine

/-- A date and time of day. The offset from UTC is in seconds. -/
structure Instant where
  year : Nat
  month : Nat
  day : Nat
  hour : Nat
  minute : Nat
  second : Nat
  micro : Nat
  offset : Option Int
  deriving DecidableEq, Repr, Inhabited

namespace Instant

def padded (width n : Nat) : String :=
  let digits := Nat.toDigits 10 n
  String.ofList (List.replicate (width - digits.length) '0' ++ digits)

def dateText (t : Instant) : String :=
  padded 4 t.year ++ "-" ++ padded 2 t.month ++ "-" ++ padded 2 t.day

def clockText (t : Instant) : String :=
  padded 2 t.hour ++ ":" ++ padded 2 t.minute ++ ":" ++ padded 2 t.second ++
    (if t.micro = 0 then "" else "." ++ padded 6 t.micro)

/-- An offset as sign, hours and minutes, with seconds when there are any. -/
def offsetText (seconds : Int) : String :=
  let n := seconds.natAbs
  (if seconds < 0 then "-" else "+") ++ padded 2 (n / 3600) ++ ":" ++ padded 2 (n / 60 % 60) ++
    (if n % 60 = 0 then "" else ":" ++ padded 2 (n % 60))

def zoneText (t : Instant) : String := (t.offset.map offsetText).getD ""

def iso (t : Instant) : String := t.dateText ++ "T" ++ t.clockText ++ t.zoneText

def spaced (t : Instant) : String := t.dateText ++ " " ++ t.clockText ++ t.zoneText

/-- The offset of documents: UTC is `Z`, and the seconds of any other offset are not written. -/
def documentZone (t : Instant) : String :=
  match t.offset with
  | none => ""
  | some seconds =>
    if seconds = 0 then "Z"
    else
      let minutes := seconds.natAbs / 60
      (if seconds < 0 then "-" else "+") ++ padded 2 (minutes / 60) ++ ":" ++
        padded 2 (minutes % 60)

def documentText (t : Instant) : String := t.dateText ++ "T" ++ t.clockText ++ t.documentZone

def numberAt (width : Nat) (s : List Char) : Option (Nat × List Char) :=
  let digits := (s.take width).takeWhile Char.isDigit
  if digits.length < width then none else some (Numeral.natOfDigits digits, s.drop width)

def skip (c : Char) : List Char → Option (List Char)
  | d :: rest => if c == d then some rest else none
  | [] => none

def isLeapYear (year : Nat) : Bool :=
  (year % 4 == 0 && year % 100 != 0) || year % 400 == 0

def daysInMonth (year month : Nat) : Nat :=
  if month = 2 then (if isLeapYear year then 29 else 28)
  else if month = 4 || month = 6 || month = 9 || month = 11 then 30 else 31

def isDate (year month day : Nat) : Bool :=
  1 ≤ month && month ≤ 12 && 1 ≤ day && day ≤ daysInMonth year month

/-- The days since the first of March of the year zero, January and February counting for the year
before. -/
def dayNumber (t : Instant) : Int :=
  let year : Int := if t.month ≤ 2 then t.year - 1 else t.year
  let month : Int := if t.month ≤ 2 then t.month + 9 else t.month - 3
  365 * year + year / 4 - year / 100 + year / 400 + (153 * month + 2) / 5 + t.day - 1

def wallMicros (t : Instant) : Int :=
  ((t.dayNumber * 24 + t.hour) * 60 + t.minute) * 60000000 + t.second * 1000000 + t.micro

/-- Whether two instants are the same moment. One without an offset is no moment of one that has
one. -/
def sameMoment (a b : Instant) : Bool :=
  match a.offset, b.offset with
  | none, none => a.wallMicros == b.wallMicros
  | some x, some y => a.wallMicros - x * 1000000 == b.wallMicros - y * 1000000
  | _, _ => false

def dateAt (s : List Char) : Option ((Nat × Nat × Nat) × List Char) := do
  let (year, s) ← numberAt 4 s
  let s ← skip '-' s
  let (month, s) ← numberAt 2 s
  let s ← skip '-' s
  let (day, s) ← numberAt 2 s
  if isDate year month day then some ((year, month, day), s) else none

/-- Reads the fraction of a second. Six of its digits count. -/
def fractionAt : List Char → Option (Nat × List Char)
  | '.' :: s | ',' :: s =>
    let digits := s.takeWhile Char.isDigit
    if digits.isEmpty then none
    else some (Numeral.natOfDigits ((digits ++ List.replicate 6 '0').take 6), s.dropWhile Char.isDigit)
  | s => some (0, s)

abbrev TimeOfDay := Nat × Nat × Nat × Nat

def timeAt (s : List Char) : Option (TimeOfDay × List Char) := do
  let (hour, s) ← numberAt 2 s
  let s ← skip ':' s
  let (minute, s) ← numberAt 2 s
  let (second, micro, s) ←
    match skip ':' s with
    | some s => do
      let (second, s) ← numberAt 2 s
      let (micro, s) ← fractionAt s
      some (second, micro, s)
    | none => some (0, 0, s)
  if hour < 24 && minute < 60 && second < 60 then some ((hour, minute, second, micro), s) else none

/-- The sign of an offset; the minus of typesetters counts as one. -/
def signOf? (c : Char) : Option Int :=
  if c == '+' then some 1 else if c == '-' || c == '\u2212' then some (-1) else none

def offsetOf? (sign : Int) (hours minutes seconds : Nat) : Option Int :=
  if hours < 24 && minutes < 60 && seconds < 60 then
    some (sign * (hours * 3600 + minutes * 60 + seconds))
  else none

def documentZone? : List Char → Option (Option Int)
  | [] => some none
  | ['Z'] | ['z'] => some (some 0)
  | c :: s => do
    let sign ← signOf? c
    let (hours, s) ← numberAt 2 s
    let (minutes, s) ← numberAt 2 ((skip ':' s).getD s)
    if s.isEmpty then (offsetOf? sign hours minutes 0).map some else none

def isoZone? : List Char → Option (Option Int)
  | [] => some none
  | ['Z'] => some (some 0)
  | c :: s => do
    let sign ← signOf? c
    let (hours, s) ← numberAt 2 s
    let (minutes, s) ← numberAt 2 (← skip ':' s)
    match s with
    | [] => (offsetOf? sign hours minutes 0).map some
    | s => do
      let (seconds, s) ← numberAt 2 (← skip ':' s)
      if s.isEmpty then (offsetOf? sign hours minutes seconds).map some else none

def dateTime? (between : List Char) (zone? : List Char → Option (Option Int)) (s : List Char) :
    Option Instant := do
  let ((year, month, day), s) ← dateAt s
  match s with
  | [] => none
  | c :: s =>
    if between.contains c then
      let ((hour, minute, second, micro), s) ← timeAt s
      let offset ← zone? s
      some ⟨year, month, day, hour, minute, second, micro, offset⟩
    else none

def date? (s : List Char) : Option Instant :=
  match dateAt s with
  | some ((year, month, day), []) => some ⟨year, month, day, 0, 0, 0, 0, none⟩
  | _ => none

def ofIso? (text : String) : Option Instant :=
  (dateTime? ['T', ' '] isoZone? text.toList).or (date? text.toList)

/-- The calendar date a number of days after the first of March of the year 0. -/
def civilOfDays (days : Nat) : Nat × Nat × Nat :=
  let era := days / 146097
  let dayOfEra := days % 146097
  let yearOfEra := (dayOfEra - dayOfEra / 1460 + dayOfEra / 36524 - dayOfEra / 146096) / 365
  let dayOfYear := dayOfEra - (365 * yearOfEra + yearOfEra / 4 - yearOfEra / 100)
  let shifted := (5 * dayOfYear + 2) / 153
  let day := dayOfYear - (153 * shifted + 2) / 5 + 1
  let month := if shifted < 10 then shifted + 3 else shifted - 9
  let year := yearOfEra + era * 400
  (if month ≤ 2 then year + 1 else year, month, day)

/-- The UTC instant a number of microseconds after the start of 1970, from the year 0 to 9999. -/
def ofUnixMicros? (micros : Int) : Option Instant :=
  let seconds := Int.fdiv micros 1000000
  let inDay := (Int.fmod seconds 86400).toNat
  if seconds < -62167219200 || 253402300799 < seconds then none
  else
    -- One era of 400 years more, so that days before March of the year 0 count from zero too.
    let (year, month, day) := civilOfDays (Int.fdiv seconds 86400 + 719468 + 146097).toNat
    some ⟨year - 400, month, day, inDay / 3600, inDay / 60 % 60, inDay % 60,
      (Int.fmod micros 1000000).toNat, some 0⟩

/-- A count beyond this one is taken as milliseconds. -/
def watershed : Nat := 20000000000

def ofCount? (count : Int) : Option Instant :=
  ofUnixMicros? (if count.natAbs > watershed then count * 1000 else count * 1000000)

def ofDouble? (count : Double) : Option Instant :=
  if !count.isFinite then none
  else
    let seconds :=
      if Double.less (Double.ofNat watershed) count.magnitude then
        Double.div count (Double.ofNat 1000)
      else count
    let whole := seconds.floor
    let rest := Double.sub seconds (Double.ofInteger whole)
    ofUnixMicros? (whole * 1000000 + (Double.mul rest (Double.ofNat 1000000)).nearestNat)

def ofCountText? (s : List Char) : Option Instant :=
  let (negative, body) := Numeral.spanSign s
  match Numeral.spanDigits body with
  | ([], []) => none
  | (digits, []) =>
    let count : Int := Numeral.natOfDigits digits
    ofCount? (if negative then -count else count)
  | (_, '.' :: _) => (Numeral.magnitude? negative body).bind ofDouble?
  | _ => none

/-- Reads an instant of a document: a date with a time of day, a count, or a date alone. The year 0
is read too, although no instant of it can be kept. -/
def ofDocumentText? (text : String) : Option Instant :=
  let s := text.toList
  (dateTime? ['T', 't', ' ', '_'] documentZone? s).or ((ofCountText? s).or (date? s))

/-- Whether an instant can be kept: the calendar begins with the year 1. -/
def isKept (t : Instant) : Bool := 1 ≤ t.year

end Instant

end FlowEngine
