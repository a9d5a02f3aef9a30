import FlowEngine.Run.Work

/-!
# Calls of services as acts

A request with its reply, and a statement with its answer, told in the log where they fail.
-/

namespace FlowEngine

def Web.exchange (request : Web.Request) : Act Web.Result := do
  let reply ← Doing.ask (.send request)
  Act.noteAll (Web.logLines request reply)
  Doing.ofExcept (Web.result request reply)

/-- Forms a request and sends it. -/
def Web.call (timeout : Value) (c : Connector) (method : String) (path : Option String)
    (headers body : Entries Value) : Act Web.Result := do
  Web.exchange (← Doing.ofExcept (Web.request timeout c method path headers body))

def Database.logLines (connector : String) : Database.Answer → List Log.Line
  | .refused text =>
    [Log.line .error Log.Logger.sql ("SQL connector " ++ connector ++ " failed: " ++ text)]
  | _ => []

def Database.exchange (c : Connector) (statement queryType : String) : Act Database.Answer := do
  let answer ← Doing.ofExcept (← Doing.ask (.query c statement queryType))
  Act.noteAll (Database.logLines c.id answer)
  return answer

end FlowEngine
