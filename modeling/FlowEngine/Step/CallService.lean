import FlowEngine.Service.Exchange

/-!
# Calls of outside services

A node names a connector, which is an address to send a request to or a database to query. A refused
request and a failed query are failures of the node with what is known of them.
-/

namespace FlowEngine.Step.CallService

/-- What nodes need to call services: the connectors by id, and the time allowed to a request. -/
structure Services where
  connectors : Entries Connector
  timeout : Value

def present (fields : Entries Value) : Entries Value := fields.filter fun (_, v) => v ≠ .null

def webOutcome (node : Node) (input : Entries Value) : Web.Result → Outcome
  | .accepted status body headers =>
    { Outcome.ofStatus node .success with
      input := some input
      successOutput := some [("statusCode", .int status), ("body", body),
        ("headers", .object headers)] }
  | .refused status body error =>
    Outcome.failed node (if error.isEmpty then "HTTP call failed" else error) input
      (present [("statusCode", .int status), ("body", body)])
  | .unanswered error =>
    Outcome.failed node (if error.isEmpty then "HTTP call failed" else error) input []

def sendRequest (services : Services) (node : Node) (c : Connector) : Work Outcome := do
  let scope ← Work.scope
  let path ← Work.resolve scope (node.textSetting "path" "")
  let method := Text.upper (node.textSetting "method" "GET")
  let headers ← Work.resolveAll scope (node.mapSetting "headers")
  let body ← Work.resolveAll scope (node.mapSetting "body")
  let result ← Work.act (Web.call services.timeout c method (some path) headers body)
  return webOutcome node
    [("path", .text path), ("method", .text method), ("body", .object body)] result

def queryOutcome (node : Node) (connector statement queryType : String) :
    Database.Answer → Outcome
  | .rows rows =>
    { Outcome.ofStatus node .success with
      input := some [("query", .text statement), ("queryType", .text queryType)]
      successOutput := some [("rows", .list rows), ("rowCount", .int rows.length),
        ("query", .text statement)] }
  | .affected count =>
    { Outcome.ofStatus node .success with
      input := some [("query", .text statement), ("queryType", .text queryType)]
      successOutput := some [("rowsAffected", .int count), ("query", .text statement),
        ("queryType", .text queryType)] }
  | .noConnection error =>
    Outcome.failed node ("Invalid database connection for '" ++ connector ++ "': " ++ error)
      [("query", .text statement), ("queryType", .text queryType)] []
  | .refused text =>
    Outcome.failed node ("SQL error: " ++ text)
      [("query", .text statement), ("queryType", .text queryType)] []

def runQuery (node : Node) (c : Connector) : Work Outcome := do
  let raw := node.textSetting "query" ""
  let queryType := Text.upper (node.textSetting "queryType" "SELECT")
  let statement ← Work.resolve (← Work.scope) raw
  if Text.isBlankText statement then
    return Outcome.failed node "NEXUS SQL node has no query configured" [("query", .text raw)] []
  let answer ← Work.act (Database.exchange c statement queryType)
  return queryOutcome node c.id statement queryType answer

def execute (services : Services) : Executor := fun node => do
  let id := Text.trim (node.textSetting "connectorId" "")
  if id.isEmpty then
    return Outcome.failedWith node "NEXUS node has no connectorId configured"
  match services.connectors.get? id with
  | none => return Outcome.failedWith node ("Connector not found: " ++ id)
  | some c =>
    match c.type with
    | .sql => runQuery node c
    | .rest => sendRequest services node c

end FlowEngine.Step.CallService
