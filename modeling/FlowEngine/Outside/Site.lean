import FlowEngine.Event.Bus
import FlowEngine.Execution.Store
import FlowEngine.Run.Work

/-!
# Where runs take place

A site answers what runs ask. It keeps the log, the events, the executions and the connections to
databases, and turns to the outside for everything else.
-/

namespace FlowEngine

/-- What a site needs from outside, over a state of its own. -/
structure Outside (σ : Type) where
  send : Web.Request → σ → Web.Reply × σ
  readAddress : String → Except Database.NoConnection Database.Address
  connect : Database.Address → σ → Except Database.NoConnection Unit × σ
  statement : (address : Database.Address) → (statement : String) → σ → Database.Reply × σ
  disconnect : Database.Address → σ → σ
  complete : Model.Call → σ → Model.Reply × σ
  script : (language code : String) → Value → σ → Script.Report × σ
  /-- Waits, and tells whether the wait was cancelled. -/
  pause : Double → σ → Bool × σ
  now : σ → Instant × σ
  freshId : σ → String × σ
  /-- Answers a question of a part that was supplied from outside. -/
  consult : Value → σ → Except Fault Value × σ

inductive Audience where
  | nobody
  | bus (bus : Bus)
  /-- A bus on which every publication fails. -/
  | broken (reason : String)

structure Site (σ : Type) where
  outside : σ
  pool : Database.Pool
  audience : Audience
  executions : ExecutionStore
  /-- The log, the latest line first. -/
  log : List Log.Entry
  starts : List Start

namespace Site

variable {σ : Type}

def fresh (outside : σ) (audience : Audience) : Site σ := ⟨outside, [], audience, [], [], []⟩

/-- Opens the connection of a connector unless it is open, and gives its address. Only a connection that
could be opened is kept. -/
def connect (o : Outside σ) (c : Connector) (site : Site σ) :
    Except Database.NoConnection Database.Address × Site σ :=
  match site.pool.get? c.id with
  | some address => (.ok address, site)
  | none =>
    match Database.addressOf o.readAddress c with
    | .error reason => (.error reason, site)
    | .ok address =>
      match o.connect address site.outside with
      | (.error reason, outside) => (.error reason, { site with outside })
      | (.ok (), outside) =>
        (.ok address, { site with outside, pool := site.pool.put c.id address })

def query (o : Outside σ) (c : Connector) (statement queryType : String) (site : Site σ) :
    Except Fault Database.Answer × Site σ :=
  match connect o c site with
  | (.error (.told text), site) => (.ok (.noConnection text), site)
  | (.error (.raised fault), site) => (.error fault, site)
  | (.ok address, site) =>
    let (reply, outside) := o.statement address statement site.outside
    (Database.answer queryType reply, { site with outside })

def disconnectAll (o : Outside σ) (site : Site σ) : Site σ :=
  { site with
    outside := site.pool.foldl (fun outside (_, address) => o.disconnect address outside)
      site.outside
    pool := [] }

/-- Publishes an event. Gives a text when that fails. -/
def publish (event : Event) (site : Site σ) : Option String × Site σ :=
  match site.audience with
  | .nobody => (none, site)
  | .bus bus => (none, { site with audience := .bus (bus.publish event) })
  | .broken reason => (some reason, site)

def turnOutside {α : Type} (question : σ → α × σ) (site : Site σ) : α × Site σ :=
  let (answer, outside) := question site.outside
  (answer, { site with outside })

def write (o : Outside σ) (record : Log.Record) (site : Site σ) : Site σ :=
  let (time, outside) := o.now site.outside
  { site with outside, log := ⟨time, record⟩ :: site.log }

def serve (o : Outside σ) : (r : Request) → Site σ → r.Reply × Site σ
  | .log record, site => ((), site.write o record)
  | .publish event, site => site.publish event
  | .send request, site => site.turnOutside (o.send request)
  | .query c statement queryType, site => site.query o c statement queryType
  | .complete call, site => site.turnOutside (o.complete call)
  | .script language code input, site => site.turnOutside (o.script language code input)
  | .pause seconds, site => site.turnOutside (o.pause seconds)
  | .hold, site => ((), site)
  | .now, site => site.turnOutside o.now
  | .freshId, site => site.turnOutside o.freshId
  | .keep execution, site => ((), { site with executions := site.executions.save execution })
  | .start start, site => ((), { site with starts := site.starts ++ [start] })
  | .consult question, site => site.turnOutside (o.consult question)

/-- Carries out an act at a place, no gate being closed. -/
def perform {α : Type} (o : Outside σ) (place : Place) (act : Doing Place α) (site : Site σ) :
    (Except Fault α × Place) × Site σ :=
  Dialogue.run (serve o) (act place) site

end Site

end FlowEngine
