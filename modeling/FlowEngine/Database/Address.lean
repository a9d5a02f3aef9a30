import FlowEngine.Fault
import FlowEngine.Data.Display
import FlowEngine.Text.Percent
import FlowEngine.Text.Search
import FlowEngine.Text.Word
import FlowEngine.Number.Numeral

/-!
# Addresses of databases

An address names a driver and may name a user with a password, a host with a port, a database and
options. What follows the last part that can be read is passed over.
-/

namespace FlowEngine.Database

structure Address where
  driver : String
  user : Option String
  password : Option String
  host : Option String
  port : Option Int
  database : Option String
  options : Entries (List String)
  deriving DecidableEq, Repr

namespace Address

def isDriverChar (c : Char) : Bool := Text.isWordChar c || c == '+'

def splitDriver? (s : List Char) : Option (List Char × List Char) :=
  match s.dropWhile isDriverChar with
  | ':' :: '/' :: '/' :: rest =>
    let driver := s.takeWhile isDriverChar
    if driver.isEmpty then none else some (driver, rest)
  | _ => none

def splitLast? (c : Char) (s : List Char) : Option (List Char × List Char) :=
  if s.contains c then
    some ((s.reverse.dropWhile (· != c)).tail.reverse, (s.reverse.takeWhile (· != c)).reverse)
  else none

def splitUser (s : List Char) : Option (List Char) × Option (List Char) × List Char :=
  let name := s.takeWhile fun c => c != ':' && c != '/'
  let rest := s.drop name.length
  let withoutPassword :=
    match splitLast? '@' name with
    | some (user, after) => (some user, none, after ++ rest)
    | none => (none, none, s)
  match rest with
  | ':' :: afterColon =>
    match afterColon.dropWhile (· != '@') with
    | '@' :: after => (some name, some (afterColon.takeWhile (· != '@')), after)
    | _ => withoutPassword
  | _ => withoutPassword

def splitHost (s : List Char) : Option (List Char) × List Char :=
  let bracketed :=
    match s with
    | '[' :: rest =>
      match splitLast? ']' (rest.takeWhile fun c => c != '/' && c != '?') with
      | some (host, after) =>
        if host.isEmpty then none
        else some (host, after ++ rest.dropWhile fun c => c != '/' && c != '?')
      | none => none
    | _ => none
  match bracketed with
  | some (host, rest) => (some host, rest)
  | none =>
    let host := s.takeWhile fun c => c != '/' && c != ':' && c != '?'
    if host.isEmpty then (none, s) else (some host, s.drop host.length)

def splitPort : List Char → Option (List Char) × List Char
  | ':' :: rest =>
    (some (rest.takeWhile fun c => c != '/' && c != '?'),
      rest.dropWhile fun c => c != '/' && c != '?')
  | s => (none, s)

def splitDatabase : List Char → Option (List Char) × List Char
  | '/' :: rest => (some (rest.takeWhile (· != '?')), rest.dropWhile (· != '?'))
  | s => (none, s)

/-- The fault of a port that is no number. Of a long text only the beginning is shown. -/
def portFault (s : List Char) : Fault :=
  .outside "ValueError" ("invalid literal for int() with base 10: " ++
    String.ofList ((Text.quoted (String.ofList s)).toList.take 200))

def portNumber (s : List Char) : Except Fault Int :=
  let (negative, body) := Numeral.spanSign ((Text.trimChars s).map Numeral.plainChar)
  match Numeral.dropUnderscores none body with
  | none => .error (portFault s)
  | some digits =>
    if digits.isEmpty || !digits.all Char.isDigit then .error (portFault s)
    else if digits.length > digitLimit then .error (.tooManyDigits digits.length)
    else
      let n : Int := Numeral.natOfDigits digits
      .ok (if negative then -n else n)

def option? (s : List Char) : Option (String × String) :=
  let decode (part : List Char) : String :=
    Text.percentDecode (String.ofList (part.map fun c => if c == '+' then ' ' else c))
  match Text.splitFirst? ['='] s with
  | some (name, value) => if value.isEmpty then none else some (decode name, decode value)
  | none => none

def optionsOf (s : List Char) : Entries (List String) :=
  ((Text.splitAt '&' s).filterMap option?).foldl (fun options (name, value) =>
    options.put name ((options.get? name).getD [] ++ [value])) []

def ofText (s : String) : Except Fault Address :=
  match splitDriver? s.toList with
  | none =>
    .error (.outside "ArgumentError" "Could not parse SQLAlchemy URL from given URL string")
  | some (driver, rest) => do
    let (user, password, rest) := splitUser rest
    let (host, rest) := splitHost rest
    let (portText, rest) := splitPort rest
    let (database, rest) := splitDatabase rest
    let options :=
      match rest with
      | '?' :: query => optionsOf (query.takeWhile (· != '\n'))
      | _ => []
    .ok {
      driver := String.ofList driver
      user := user.map fun u => Text.percentDecode (String.ofList u)
      password := password.map fun p => Text.percentDecode (String.ofList p)
      host := host.map String.ofList
      port := ← portText.mapM portNumber
      database := database.map fun name => Text.percentDecode (String.ofList name)
      options }

/-- The text of an address, the password included. Options are sorted by name. -/
def text (a : Address) : String :=
  let credentials :=
    match a.user with
    | none => ""
    | some user =>
      let password :=
        match a.password with
        | some password => ":" ++ Text.percentEncode [' ', '+'] password
        | none => ""
      Text.percentEncode [' ', '+'] user ++ password ++ "@"
  let host :=
    match a.host with
    | some host => if host.toList.contains ':' then "[" ++ host ++ "]" else host
    | none => ""
  let port := match a.port with | some n => ":" ++ toString n | none => ""
  let database :=
    match a.database with
    | some name => "/" ++ Text.percentEncode [' ', '+', '/'] name
    | none => ""
  let options := (a.options.mergeSort fun x y => x.1 ≤ y.1).flatMap fun (name, values) =>
    values.map fun value => Text.queryEncode name ++ "=" ++ Text.queryEncode value
  a.driver ++ "://" ++ credentials ++ host ++ port ++ database ++
    (if options.isEmpty then "" else "?" ++ Text.join "&" options)

end Address

end FlowEngine.Database
