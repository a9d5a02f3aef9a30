import FlowEngine.Database.Pool
import FlowEngine.Event.Basic
import FlowEngine.Execution.Record
import FlowEngine.Flow.Graph
import FlowEngine.Log.Record
import FlowEngine.Model.Call
import FlowEngine.Script.Result
import FlowEngine.Service.Web

/-!
# Runs as dialogues

A run is a dialogue with what surrounds it: it asks for something, and goes on in a way that depends
on the reply. A dialogue is a tree, so it ends whatever the replies are. `Always` says what holds of
its result for all replies.
-/

namespace FlowEngine

/-- A background run that is to be started: whose flow, with what payload, inside which runs. -/
structure Start where
  flow : FlowGraph
  execution : Execution
  payload : Entries Value
  /-- Where log lines of the run are written from. -/
  trace : Log.Trace
  /-- The flows of the enclosing runs, outermost first. -/
  chain : List String
  deriving DecidableEq, Repr

/-- What a run asks of its surroundings. -/
inductive Request where
  | log (record : Log.Record)
  | publish (event : Event)
  | send (request : Web.Request)
  | query (connector : Connector) (statement queryType : String)
  | complete (call : Model.Call)
  | script (language code : String) (input : Value)
  | pause (seconds : Double)
  /-- Waits until the gate is open. -/
  | hold
  | now
  /-- Asks for an id that no execution has. -/
  | freshId
  | keep (execution : Execution)
  | start (start : Start)
  /-- Puts a question to a part that is supplied from outside. -/
  | consult (question : Value)

abbrev Request.Reply : Request → Type
  | .log _ => Unit
  -- The text of the fault if the event could not be published.
  | .publish _ => Option String
  | .send _ => Web.Reply
  | .query .. => Except Fault Database.Answer
  | .complete _ => Model.Reply
  | .script .. => Script.Report
  -- Whether the wait was cancelled.
  | .pause _ => Bool
  | .hold => Unit
  | .now => Instant
  | .freshId => String
  | .keep _ => Unit
  | .start _ => Unit
  | .consult _ => Except Fault Value

def Request.isHold : Request → Bool
  | .hold => true
  | _ => false

/-- For how many turns of others a reply is waited for. -/
def Request.turns : (r : Request) → r.Reply → Nat
  | .script .., report => report.turns
  | _, _ => 0

inductive Dialogue (α : Type) where
  | done (a : α)
  | ask (request : Request) (next : request.Reply → Dialogue α)

/-- Where a dialogue stops that takes turns with others. -/
inductive Stop (α : Type) where
  | ended (a : α)
  /-- It goes on when the gate is open. -/
  | held (rest : Dialogue α)
  /-- It goes on after so many more turns. -/
  | away (turns : Nat) (rest : Dialogue α)

namespace Dialogue

variable {α β γ : Type}

def bind : Dialogue α → (α → Dialogue β) → Dialogue β
  | .done a, f => f a
  | .ask request next, f => .ask request fun reply => (next reply).bind f

instance : Monad Dialogue where
  pure := .done
  bind := bind

def request (r : Request) : Dialogue r.Reply := .ask r .done

@[simp] theorem bind_done (x : Dialogue α) : x.bind .done = x := by
  induction x with
  | done a => rfl
  | ask request next ih => simp [bind, ih]

theorem bind_assoc (x : Dialogue α) (f : α → Dialogue β) (g : β → Dialogue γ) :
    (x.bind f).bind g = x.bind fun a => (f a).bind g := by
  induction x with
  | done a => rfl
  | ask request next ih => simp [bind, ih]

instance : LawfulMonad Dialogue :=
  LawfulMonad.mk' Dialogue (fun x => bind_done x) (fun _ _ => rfl) bind_assoc

def Always (p : α → Prop) : Dialogue α → Prop
  | .done a => p a
  | .ask _ next => ∀ reply, (next reply).Always p

theorem always_bind {p : β → Prop} {x : Dialogue α} {f : α → Dialogue β} :
    (x.bind f).Always p ↔ x.Always fun a => (f a).Always p := by
  induction x with
  | done a => rfl
  | ask request next ih => simp [bind, Always, ih]

theorem Always.mono {p q : α → Prop} {x : Dialogue α} (h : ∀ a, p a → q a) (hx : x.Always p) :
    x.Always q := by
  induction x with
  | done a => exact h a hx
  | ask request next ih => exact fun reply => ih reply (hx reply)

def run {σ : Type} (serve : (r : Request) → σ → r.Reply × σ) : Dialogue α → σ → α × σ
  | .done a, state => (a, state)
  | .ask request next, state =>
    let (reply, state) := serve request state
    run serve (next reply) state

/-- Answers requests up to the end, the closed gate, or the first reply that is waited for. -/
def advance {σ : Type} (serve : (r : Request) → σ → r.Reply × σ) (isOpen : Bool) :
    Dialogue α → σ → Stop α × σ
  | .done a, state => (.ended a, state)
  | .ask request next, state =>
    if request.isHold && !isOpen then (.held (.ask request next), state)
    else
      let (reply, state) := serve request state
      match request.turns reply with
      | 0 => advance serve isOpen (next reply) state
      | turns + 1 => (.away turns (next reply), state)

end Dialogue

end FlowEngine
