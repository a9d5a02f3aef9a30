import FlowEngine.Document.Checked
import FlowEngine.Document.Written
import FlowEngine.Text.Base64

/-!
# Connectors

Settings for one outside system that nodes refer to by id: an address with its headers and its way of
proving who calls, or a database.
-/

namespace FlowEngine

inductive ConnectorType where
  | rest
  | sql
  deriving DecidableEq, Repr, Inhabited

namespace ConnectorType

def name : ConnectorType → String
  | .rest => "REST"
  | .sql => "SQL"

/-- The type with a name, in any case and with white space around it. An older name for databases
is known too. -/
def ofValue? : Value → Option ConnectorType
  | .text s =>
    match Text.upper (Text.trim s) with
    | "REST" => some .rest
    | "SQL" => some .sql
    | "JDBC" => some .sql
    | _ => none
  | _ => none

end ConnectorType

/-- How a caller proves who it is. -/
inductive AuthType where
  | none
  | bearer
  | apiKey
  | basic
  deriving DecidableEq, Repr, Inhabited

namespace AuthType

def name : AuthType → String
  | .none => "NONE"
  | .bearer => "BEARER"
  | .apiKey => "API_KEY"
  | .basic => "BASIC"

def ofValue? : Value → Option AuthType
  | .text s => [none, bearer, apiKey, basic].find? (·.name == Text.upper (Text.trim s))
  | _ => .none

end AuthType

structure Connector where
  id : String
  name : String
  description : String
  type : ConnectorType
  baseUrl : Option String
  authType : AuthType
  defaultHeaders : Entries String
  authConfig : Entries String
  databaseUrl : Option String
  dbUsername : Option String
  dbPassword : Option String
  extras : Entries Value
  deriving DecidableEq, Repr

namespace Connector

open Document

def fieldNames : List (List String) :=
  [["id"], ["name"], ["description"], ["connectorType", "connector_type"],
    ["baseUrl", "base_url"], ["authType", "auth_type"], ["defaultHeaders", "default_headers"],
    ["authConfig", "auth_config"], ["databaseUrl", "database_url"], ["dbUsername", "db_username"],
    ["dbPassword", "db_password"]]

def ofFields (doc : Entries Value) : Checked Connector :=
  let textOrNull (names : List String) := optional names none (nullable text) doc
  Connector.mk <$> required ["id"] text doc
    <*> optional ["name"] "" text doc
    <*> optional ["description"] "" text doc
    <*> optional ["connectorType", "connector_type"] .rest (member ConnectorType.ofValue?) doc
    <*> textOrNull ["baseUrl", "base_url"]
    <*> optional ["authType", "auth_type"] .none (member AuthType.ofValue?) doc
    <*> optional ["defaultHeaders", "default_headers"] [] textMap doc
    <*> optional ["authConfig", "auth_config"] [] textMap doc
    <*> textOrNull ["databaseUrl", "database_url"]
    <*> textOrNull ["dbUsername", "db_username"]
    <*> textOrNull ["dbPassword", "db_password"]
    <*> .fits (Document.extras fieldNames doc)

def ofDocument (doc : Value) : Checked Connector := record ofFields doc

def toDocument (c : Connector) : Value :=
  .object (Entries.putAll
    [("id", .text c.id), ("name", .text c.name), ("description", .text c.description),
      ("connectorType", .text c.type.name), ("baseUrl", Value.ofText? c.baseUrl),
      ("authType", .text c.authType.name),
      ("defaultHeaders", .object (c.defaultHeaders.mapValues .text)),
      ("authConfig", .object (c.authConfig.mapValues .text)),
      ("databaseUrl", Value.ofText? c.databaseUrl), ("dbUsername", Value.ofText? c.dbUsername),
      ("dbPassword", Value.ofText? c.dbPassword)]
    (formFields c.extras))

def written (c : Connector) : Except Fault Value :=
  Document.written (fitBelow 0 c.extras) c.toDocument

/-- A setting of the way of proving who calls, when it is not empty. -/
def authSetting? (c : Connector) (key : String) : Option String :=
  (c.authConfig.get? key).filter (!·.isEmpty)

/-- Adds the header that proves who calls to the headers of a request. -/
def authorize (c : Connector) (headers : Entries String) : Entries String :=
  if c.authConfig.isEmpty then headers
  else
    match c.authType with
    | .none => headers
    | .bearer =>
      match c.authSetting? "token" with
      | some token => headers.put "Authorization" ("Bearer " ++ token)
      | none => headers
    | .apiKey =>
      match c.authSetting? "key" with
      | some key => headers.put ((c.authSetting? "headerName").getD "X-API-Key") key
      | none => headers
    | .basic =>
      let user := (c.authConfig.get? "username").getD ""
      let password := (c.authConfig.get? "password").getD ""
      let octets := (user ++ ":" ++ password).toUTF8.toList.map UInt8.toNat
      headers.put "Authorization" ("Basic " ++ String.ofList (Text.base64 octets))

end Connector

end FlowEngine
