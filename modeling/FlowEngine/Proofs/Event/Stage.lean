import FlowEngine.Event.Bus

/-!
# Deliveries that interleave

A bus carries out what a handler does in one go, up to a gate that is closed, and works off its
agenda from the front. Here each step of a handler is an act of its own, and so is each entry of the
agenda, whichever is taken, and each call from outside; between two acts any other may come. A
schedule is a list of acts, and an act that is not possible changes nothing.
-/

namespace FlowEngine

/-- What bears on who is to get which event. -/
inductive Happening where
  | subscribed (s : Subscription)
  | ended (id : String)
  | published (event : Event)

/-- A bus whose handlers may stand at any of their steps. -/
structure Stage where
  bus : Bus
  /-- The deliveries that are inside their handler and do not wait at a gate. -/
  running : List Delivery
  /-- What has happened, the latest first. -/
  past : List Happening

inductive Stage.Act where
  | subscribe (kinds : List EventKind) (flow node execution : Option String)
      (handler : Event → Reaction)
  | unsubscribe (id : String)
  | publish (event : Event)
  | openGate (gate : String)
  | watch (kind : EventKind) (execution node : Option String) (patience : Patience)
  | await (deliveries : List Nat) (watch : Option Nat)
  | giveUp (watch : Nat)
  /-- An entry of the agenda is carried out, not necessarily the first one. -/
  | take (n : Nat)
  | go (n : Nat)
  /-- The handler of a running delivery turns to something else. It need not be one that had made up
  its mind when the event was published. -/
  | turn (n : Nat) (rest : Reaction)

namespace Stage

def start (capacity : Int) (slots : Nat) : Stage := ⟨Bus.create capacity slots, [], []⟩

def enter (stage : Stage) (d : Delivery) : Stage :=
  { stage with
    bus := { stage.bus with calls := stage.bus.calls ++ [(d.subscription, d.event)] }
    running := d :: stage.running }

def endWatch (stage : Stage) (watch : Nat) : Stage :=
  match stage.bus.watches.find? (·.number == watch) with
  | none => stage
  | some w =>
    { stage with bus := stage.bus.endWatch watch, past := .ended w.subscription :: stage.past }

def take (stage : Stage) : Agendum → Stage
  | .begin d =>
    if stage.bus.admitsNow then
      { stage with bus := { stage.bus with free := stage.bus.free - 1 } }.enter d
    else { stage with bus := { stage.bus with queued := stage.bus.queued ++ [d] } }
  | .granted d => { stage with bus := stage.bus.grant }.enter d
  | .resume d => { stage with running := d :: stage.running }
  | .alert watch 0 => stage.endWatch watch
  | .alert watch (turns + 1) =>
    { stage with bus := { stage.bus with agenda := stage.bus.agenda ++ [.alert watch turns] } }
  | .retire number => { stage with bus := stage.bus.retire number }
  | .wake => stage

/-- The first step of what a delivery, which has left the running ones, still has to do. -/
def go (stage : Stage) (d : Delivery) : Reaction → Stage
  | .finish => { stage with bus := stage.bus.conclude d }
  | .fail error =>
    { stage with bus :=
        { stage.bus with faults := stage.bus.faults ++ [(d.event.kind, error)] }.conclude d }
  | .hold gate next =>
    if stage.bus.opened.contains gate then
      { stage with running := { d with rest := next } :: stage.running }
    else
      { stage with bus :=
          { stage.bus with held := stage.bus.held ++ [(gate, { d with rest := next })] } }
  | .tell v next =>
    { stage with
      bus := { stage.bus with told := stage.bus.told ++ [v] }
      running := { d with rest := next } :: stage.running }
  | .publish event next =>
    { bus := stage.bus.publish event
      running := { d with rest := next } :: stage.running
      past := .published event :: stage.past }
  | .unsubscribe id next =>
    { bus := (stage.bus.unsubscribe id).2
      running := { d with rest := next } :: stage.running
      past := .ended id :: stage.past }
  | .observe watch next =>
    { stage with
      bus := stage.bus.observe watch d.event
      running := { d with rest := next } :: stage.running }

/-- The last subscription of a bus has just been made. -/
def subscribed (stage : Stage) (bus : Bus) : Stage :=
  { stage with bus, past := bus.subscriptions.getLast?.toList.map .subscribed ++ stage.past }

def after (stage : Stage) : Act → Stage
  | .subscribe kinds flow node execution handler =>
    stage.subscribed (stage.bus.subscribe kinds flow node execution handler).2
  | .unsubscribe id =>
    { stage with bus := (stage.bus.unsubscribe id).2, past := .ended id :: stage.past }
  | .publish event =>
    { stage with bus := stage.bus.publish event, past := .published event :: stage.past }
  | .openGate gate => { stage with bus := stage.bus.openGate gate }
  | .watch kind execution node patience =>
    stage.subscribed (stage.bus.watch kind execution node patience).2
  | .await awaited awaitedWatch => { stage with bus := { stage.bus with awaited, awaitedWatch } }
  | .giveUp watch => stage.endWatch watch
  | .take n =>
    match stage.bus.agenda[n]? with
    | none => stage
    | some entry =>
      { stage with bus := { stage.bus with agenda := stage.bus.agenda.eraseIdx n } }.take entry
  | .go n =>
    match stage.running[n]? with
    | none => stage
    | some d => { stage with running := stage.running.eraseIdx n }.go d d.rest
  | .turn n rest =>
    match stage.running[n]? with
    | none => stage
    | some d => { stage with running := { d with rest } :: stage.running.eraseIdx n }

def run (stage : Stage) (acts : List Act) : Stage := acts.foldl after stage

@[simp]
theorem run_nil (stage : Stage) : stage.run [] = stage := rfl

@[simp]
theorem run_cons (stage : Stage) (act : Act) (acts : List Act) :
    stage.run (act :: acts) = (stage.after act).run acts := rfl

theorem run_append (stage : Stage) (earlier later : List Act) :
    stage.run (earlier ++ later) = (stage.run earlier).run later :=
  List.foldl_append

end Stage

end FlowEngine
