import FlowEngine.Data.Brief
import FlowEngine.Data.Display
import FlowEngine.Fault
import FlowEngine.Json.Parser
import FlowEngine.Log.Record
import FlowEngine.Service.Connector

/-!
# Calls over HTTP

The request that a call sends and what becomes of the reply: a response, or a failure with its text.
The two are functions of their own, and the outside world stands between them.
-/

namespace FlowEngine.Web

/-- Address and path with exactly one slash between them. -/
def joinUrl (base path : Option String) : String :=
  let path := path.getD ""
  let base := base.getD ""
  if base.isEmpty then path
  else
    let base := String.ofList (base.toList.reverse.dropWhile (· == '/')).reverse
    if Text.isBlankText path then base
    else if Text.startsWith path "/" then base ++ path
    else base ++ "/" ++ path

/-- The content of a text: a value when it is JSON, the text itself otherwise, null when it is
blank. -/
def content (text : String) : Except Fault Value :=
  if Text.isBlankText text then .ok .null
  else
    match Json.read text with
    | .ok v => .ok v
    | .error .malformed => .ok (.text text)
    | .error (.tooManyDigits count) => .error (.tooManyDigits count)

/-- What is sent. A request without a body sends none, not an empty one. -/
structure Request where
  method : String
  url : String
  headers : Entries String
  body : Option (Entries Value)
  timeout : Value
  deriving DecidableEq, Repr

inductive Reply where
  | response (status : Int) (reason text : String) (headers : Entries Value)
  | timedOut
  | transport (kind text : String)
  /-- A failure that is none of the request. -/
  | broken (fault : Fault)
  deriving DecidableEq, Repr

inductive Result where
  | accepted (status : Int) (body : Value) (headers : Entries Value)
  | refused (status : Int) (body : Value) (error : String)
  | unanswered (error : String)
  deriving DecidableEq, Repr

def sendsBody (method : String) : Bool := method != "GET" && method != "HEAD"

/-- The texts of headers. -/
def headerTexts : Entries Value → Except Fault (Entries String)
  | [] => .ok []
  | (name, v) :: rest => do
    let text ← v.shown
    .ok ((name, text) :: (← headerTexts rest))

/-- The request of a call. Headers of the call win over those of the connector, and the proof of who
calls over both. -/
def request (timeout : Value) (c : Connector) (method : String) (path : Option String)
    (headers body : Entries Value) : Except Fault Request := do
  let method := Text.upper (if method.isEmpty then "GET" else method)
  let merged := Entries.putAll (Entries.putAll [("Content-Type", "application/json")]
    c.defaultHeaders) (← headerTexts headers)
  .ok {
    method
    url := joinUrl c.baseUrl path
    headers := c.authorize merged
    body := if sendsBody method && !body.isEmpty then some body else none
    timeout }

theorem texts_of_request {timeout : Value} {c : Connector} {method : String} {path : Option String}
    {headers body : Entries Value} {formed : Request}
    (h : request timeout c method path headers body = .ok formed) :
    ∃ texts, headerTexts headers = .ok texts ∧ formed.timeout = timeout ∧
      formed.headers = c.authorize (Entries.putAll (Entries.putAll
        [("Content-Type", "application/json")] c.defaultHeaders) texts) := by
  unfold request at h
  cases htexts : headerTexts headers with
  | error fault =>
    rw [htexts] at h
    cases h
  | ok texts =>
    rw [htexts] at h
    cases h
    exact ⟨texts, rfl, rfl, rfl⟩

def result (request : Request) : Reply → Except Fault Result
  | .timedOut => do
    let seconds ← request.timeout.brief
    .ok (.unanswered ("Request to " ++ request.url ++ " timed out after " ++ seconds ++ "s"))
  | .transport kind text => .ok (.unanswered (if text.isEmpty then kind else text))
  | .broken fault => .error fault
  | .response status reason text headers => do
    let body ← content text
    if status ≥ 400 then
      .ok (.refused status body ("HTTP " ++ toString status ++ " " ++ reason ++ " from " ++
        request.method ++ " " ++ request.url))
    else .ok (.accepted status body headers)

def logLines (request : Request) : Reply → List Log.Line
  | .transport _ text =>
    [Log.line .error Log.Logger.http ("HTTP call to " ++ request.url ++ " failed: " ++ text)]
  | _ => []

namespace Result

def toValue : Result → Value
  | .accepted status body headers =>
    .object [("success", .bool true), ("statusCode", .int status), ("body", body),
      ("headers", .object headers)]
  | .refused status body error =>
    .object [("success", .bool false), ("statusCode", .int status), ("body", body),
      ("error", .text error)]
  | .unanswered error => .object [("success", .bool false), ("error", .text error)]

end Result

end FlowEngine.Web
