import FlowEngine.Database.Address
import FlowEngine.Service.Connector
import FlowEngine.Data.Value

/-!
# Database connections

Connections are opened when they are first needed and kept by the id of their connector until all of
them are closed. How an address is read, and whether a connection to it can be opened, is left to the
library that is used for it.
-/

namespace FlowEngine.Database

abbrev Pool := Entries Address

/-- Why there is no connection: it is told as an answer, or it is a fault. -/
inductive NoConnection where
  | told (text : String)
  | raised (fault : Fault)
  deriving DecidableEq, Repr

/-- A reader of addresses in their usual form. -/
def Address.read (text : String) : Except NoConnection Address :=
  (Address.ofText text).mapError fun fault => .told fault.text

inductive Reply where
  | result (rows : List Value) (count : Int)
  | refused (text : String)
  /-- A failure that is none of the database. -/
  | broken (fault : Fault)
  deriving DecidableEq, Repr

inductive Answer where
  | rows (rows : List Value)
  | affected (count : Int)
  | noConnection (error : String)
  | refused (text : String)
  deriving DecidableEq, Repr

/-- The address that a connector stands for: its own, with the user and the password that are set
beside it. -/
def addressOf (read : String → Except NoConnection Address) (c : Connector) :
    Except NoConnection Address :=
  match c.databaseUrl.filter (!·.isEmpty) with
  | none => .error (.told "connector has no databaseUrl")
  | some url => do
    let address ← read url
    let user := (c.dbUsername.filter (!·.isEmpty)).or address.user
    let password := (c.dbPassword.filter (!·.isEmpty)).or address.password
    .ok { address with user, password }

def asksForRows (queryType : String) : Bool := Text.upper queryType == "SELECT"

def answer (queryType : String) : Reply → Except Fault Answer
  | .broken fault => .error fault
  | .refused text => .ok (.refused text)
  | .result rows count => .ok (if asksForRows queryType then .rows rows else .affected count)

namespace Answer

def toValue (connector : String) : Answer → Value
  | .rows found =>
    .object [("success", .bool true), ("rows", .list found), ("rowCount", .int found.length)]
  | .affected count => .object [("success", .bool true), ("rowsAffected", .int count)]
  | .noConnection error =>
    .object [("success", .bool false),
      ("error", .text ("Invalid database connection for '" ++ connector ++ "': " ++ error))]
  | .refused text =>
    .object [("success", .bool false), ("error", .text ("SQL error: " ++ text))]

end Answer

end FlowEngine.Database
