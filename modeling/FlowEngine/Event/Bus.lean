import FlowEngine.Data.Limit
import FlowEngine.Event.Basic

/-!
# The event bus

Events are kept in a history and handed to the handlers of all subscriptions that match. Publishing
only puts the deliveries on the agenda. The agenda is worked off from the front, one entry at a time,
and at most as many handlers as there are slots are inside their body; the others wait in line.
-/

namespace FlowEngine

/-- What a handler does with an event, step by step. -/
inductive Reaction where
  | finish
  | fail (error : String)
  | hold (gate : String) (next : Reaction)
  | tell (v : Value) (next : Reaction)
  | publish (event : Event) (next : Reaction)
  | unsubscribe (id : String) (next : Reaction)
  /-- Notes the event for a watch. -/
  | observe (watch : Nat) (next : Reaction)
  deriving DecidableEq, Repr

/-- What is subscribed to. An empty filter lets everything through. -/
structure Subscription where
  id : String
  kinds : List EventKind
  flow : Option String
  node : Option String
  execution : Option String
  handler : Event → Reaction

namespace Subscription

def admits (filter id : Option String) : Bool :=
  match filter with
  | none => true
  | some wanted => wanted.isEmpty || id == some wanted

def accepts (s : Subscription) (event : Event) : Bool :=
  s.kinds.contains event.kind && admits s.flow event.flowId && admits s.node event.nodeId &&
    admits s.execution event.executionId

end Subscription

structure Delivery where
  number : Nat
  subscription : String
  event : Event
  /-- What the handler still has to do. -/
  rest : Reaction
  deriving DecidableEq, Repr

inductive Agendum where
  | begin (d : Delivery)
  /-- A delivery that waited for a slot and has got it. -/
  | granted (d : Delivery)
  /-- A delivery that goes on after a gate. -/
  | resume (d : Delivery)
  | retire (number : Nat)
  /-- A watch that has seen its event, and after how many more turns it will know. -/
  | alert (watch turns : Nat)
  /-- Whoever waits for the bus goes on. -/
  | wake
  deriving DecidableEq, Repr

structure Watch where
  number : Nat
  subscription : String
  /-- The turns between the event and its being known. -/
  turns : Nat
  seen : Option Event
  ended : Bool
  deriving DecidableEq, Repr

/-- The history, the subscriptions, and the deliveries under way. -/
structure Bus where
  /-- How many events the history keeps. -/
  capacity : Int
  /-- The slots that no handler is in. -/
  free : Nat
  subscriptions : List Subscription
  /-- The events that are kept, the oldest first. -/
  history : List Event
  /-- How many subscriptions there have been. -/
  subscribed : Nat
  dispatched : Nat
  agenda : List Agendum
  queued : List Delivery
  held : List (String × Delivery)
  opened : List String
  /-- The deliveries that have not ended. -/
  pending : List Nat
  /-- The calls of handlers so far, by subscription. -/
  calls : List (String × Event)
  told : List Value
  faults : List (EventKind × String)
  watches : List Watch
  awaited : List Nat
  awaitedWatch : Option Nat

namespace Bus

def create (capacity : Int) (slots : Nat) : Bus :=
  ⟨capacity, slots, [], [], 0, 0, [], [], [], [], [], [], [], [], [], [], none⟩

def default : Bus := create 1000 10

/-- The end of a history that has grown beyond its capacity. A capacity of zero keeps everything, and
each step below zero forgets one event. -/
def trimmed (capacity : Int) (events : List Event) : List Event :=
  if (events.length : Int) ≤ capacity then events
  else if capacity > 0 then events.drop (events.length - capacity.toNat)
  else events.drop (-capacity).toNat

def subscribe (bus : Bus) (kinds : List EventKind) (flow node execution : Option String)
    (handler : Event → Reaction) : String × Bus :=
  let id := "sub_" ++ toString (bus.subscribed + 1)
  (id, { bus with
    subscribed := bus.subscribed + 1
    subscriptions := bus.subscriptions ++ [⟨id, kinds, flow, node, execution, handler⟩] })

def unsubscribe (bus : Bus) (id : String) : Bool × Bus :=
  (bus.subscriptions.any (·.id == id),
    { bus with subscriptions := bus.subscriptions.filter (·.id != id) })

def dispatch (event : Event) (bus : Bus) (s : Subscription) : Bus :=
  if s.accepts event then
    { bus with
      dispatched := bus.dispatched + 1
      pending := bus.pending ++ [bus.dispatched]
      agenda := bus.agenda ++ [.begin ⟨bus.dispatched, s.id, event, s.handler event⟩] }
  else bus

def publish (bus : Bus) (event : Event) : Bus :=
  bus.subscriptions.foldl (dispatch event)
    { bus with history := trimmed bus.capacity (bus.history ++ [event]) }

def grant (bus : Bus) : Bus :=
  match bus.queued with
  | d :: rest =>
    if 0 < bus.free then
      { bus with free := bus.free - 1, queued := rest, agenda := bus.agenda ++ [.granted d] }
    else bus
  | [] => bus

/-- A delivery has ended: its slot is free, and it will be retired. -/
def conclude (bus : Bus) (d : Delivery) : Bus :=
  let bus := grant { bus with free := bus.free + 1 }
  { bus with agenda := bus.agenda ++ [.retire d.number] }

/-- Notes an event for a watch, which will know of it after its turns. -/
def observe (bus : Bus) (watch : Nat) (event : Event) : Bus :=
  match bus.watches.find? (·.number == watch) with
  | none => bus
  | some w =>
    let watches := bus.watches.map fun other =>
      if other.number == watch then { other with seen := some event } else other
    if w.seen.isSome then { bus with watches }
    else { bus with watches, agenda := bus.agenda ++ [.alert watch w.turns] }

/-- Carries out what a handler does, up to a gate that is closed. -/
def react (d : Delivery) : Reaction → Bus → Bus
  | .finish, bus => bus.conclude d
  | .fail error, bus =>
    { bus with faults := bus.faults ++ [(d.event.kind, error)] }.conclude d
  | .hold gate next, bus =>
    if bus.opened.contains gate then react d next bus
    else { bus with held := bus.held ++ [(gate, { d with rest := next })] }
  | .tell v next, bus => react d next { bus with told := bus.told ++ [v] }
  | .publish event next, bus => react d next (bus.publish event)
  | .unsubscribe id next, bus => react d next (bus.unsubscribe id).2
  | .observe watch next, bus => react d next (bus.observe watch d.event)

def invoke (bus : Bus) (d : Delivery) : Bus :=
  react d d.rest { bus with calls := bus.calls ++ [(d.subscription, d.event)] }

def isGranted : Agendum → Bool
  | .granted _ => true
  | _ => false

def admitsNow (bus : Bus) : Bool :=
  decide (0 < bus.free) && bus.queued.isEmpty && !bus.agenda.any isGranted

def endWatch (bus : Bus) (watch : Nat) : Bus :=
  match bus.watches.find? (·.number == watch) with
  | none => bus
  | some w =>
    let bus := (bus.unsubscribe w.subscription).2
    let bus := { bus with watches := bus.watches.map fun other =>
      if other.number == watch then { other with ended := true } else other }
    if bus.awaitedWatch == some watch then
      { bus with awaitedWatch := none, agenda := bus.agenda ++ [.wake] }
    else bus

def retire (bus : Bus) (number : Nat) : Bus :=
  let pending := bus.pending.filter (· != number)
  if bus.awaited.contains number then
    let awaited := bus.awaited.filter (· != number)
    { bus with
      pending, awaited
      agenda := if awaited.isEmpty then bus.agenda ++ [.wake] else bus.agenda }
  else { bus with pending }

def carryOut (bus : Bus) : Agendum → Bus
  | .begin d =>
    if bus.admitsNow then { bus with free := bus.free - 1 }.invoke d
    else { bus with queued := bus.queued ++ [d] }
  | .granted d => bus.grant.invoke d
  | .resume d => react d d.rest bus
  | .retire number => bus.retire number
  | .alert watch 0 => bus.endWatch watch
  | .alert watch (turns + 1) => { bus with agenda := bus.agenda ++ [.alert watch turns] }
  | .wake => bus

def work : Nat → Bus → Bus
  | 0, bus => bus
  | count + 1, bus =>
    match bus.agenda with
    | [] => bus
    | entry :: rest => work count ({ bus with agenda := rest }.carryOut entry)

/-- Works off the agenda until whoever waits for the bus goes on. -/
def workUntilWoken : Nat → Bus → Bus
  | 0, bus => bus
  | count + 1, bus =>
    match bus.agenda with
    | [] => bus
    | .wake :: rest => { bus with agenda := rest }
    | entry :: rest => workUntilWoken count ({ bus with agenda := rest }.carryOut entry)

/-- Waits until no delivery is pending. Both numbers bound the work: how often new deliveries are
waited for, and how many entries are worked off each time. -/
def flush (entries : Nat) : Nat → Bus → Bus
  | 0, bus => bus
  | rounds + 1, bus =>
    if bus.pending.isEmpty then bus
    else flush entries rounds (workUntilWoken entries { bus with awaited := bus.pending })

/-- Opens a gate: the deliveries held there go on in the order in which they reached it. -/
def openGate (bus : Bus) (gate : String) : Bus :=
  { bus with
    opened := gate :: bus.opened
    held := bus.held.filter (·.1 != gate)
    agenda := bus.agenda ++ (bus.held.filter (·.1 == gate)).map fun (_, d) => .resume d }

/-- The patience of a watch for a setting. One that counts as absent sets no limit, and neither does
one without an order to counts. -/
def patience (setting : Value) : Patience :=
  (Patience.ofSeconds (if setting.isVoid then .null else setting)).toOption.getD .unlimited

/-- Begins to wait for an event. A watch with a time limit knows of its event two turns later. One
without any patience sees no event and ends by itself. -/
def watch (bus : Bus) (kind : EventKind) (execution node : Option String) (patience : Patience) :
    Nat × Bus :=
  let number := bus.watches.length
  let reaction : Reaction := if patience = .spent then .finish else .observe number .finish
  let (id, bus) := bus.subscribe [kind] none node execution fun _ => reaction
  let turns := if patience = .unlimited then 0 else 2
  (number, { bus with
    watches := bus.watches ++ [⟨number, id, turns, none, false⟩]
    agenda := if patience = .spent then bus.agenda ++ [.alert number turns] else bus.agenda })

/-- Waits for a watch to end. One that still has seen nothing when there is nothing left to do has
run out of time. -/
def awaitWatch (entries : Nat) (bus : Bus) (number : Nat) : Option Event × Bus :=
  let result (bus : Bus) : Option Event :=
    (bus.watches.find? (·.number == number)).bind (·.seen)
  match bus.watches.find? (·.number == number) with
  | none => (none, bus)
  | some w =>
    if w.ended then (w.seen, bus)
    else
      let bus := workUntilWoken entries { bus with awaitedWatch := some number }
      if bus.awaitedWatch.isNone then (result bus, bus)
      else (none, ({ bus with awaitedWatch := none }.endWatch number))

/-- The first elements of a list, or all but the last ones for a negative count. -/
def firstOf {α : Type} (count : Int) (items : List α) : List α :=
  if count < 0 then items.take (items.length - (-count).toNat) else items.take count.toNat

/-- The events that are kept and match, the latest first. -/
def recent (bus : Bus) (kind : Option EventKind) (execution : Option String) (limit : Int) :
    List Event :=
  firstOf limit (bus.history.reverse.filter fun event =>
    (kind.map (event.kind == ·)).getD true && Subscription.admits execution event.executionId)

def counts (bus : Bus) : Entries Nat :=
  bus.history.foldl (fun counts event =>
    counts.put event.kind.name ((counts.get? event.kind.name).getD 0 + 1)) []

def statistics (bus : Bus) : Value :=
  .object [("total_events", .int bus.history.length),
    ("subscriptions", .int bus.subscriptions.length),
    ("events_by_type", .object (bus.counts.mapValues fun (n : Nat) => .int n))]

end Bus

end FlowEngine
