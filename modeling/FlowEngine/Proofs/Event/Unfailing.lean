import Mathlib.Data.List.InsertIdx
import FlowEngine.Proofs.Event.Stage

/-!
# Handlers that fail

A handler that fails differs from one that is done at the same point only in the fault that is
noted. Whatever else happens under a schedule is the same.
-/

namespace FlowEngine

/-- Is done where it would fail. -/
def Reaction.unfailing : Reaction → Reaction
  | .finish => .finish
  | .fail _ => .finish
  | .hold gate next => .hold gate next.unfailing
  | .tell v next => .tell v next.unfailing
  | .publish event next => .publish event next.unfailing
  | .unsubscribe id next => .unsubscribe id next.unfailing
  | .observe watch next => .observe watch next.unfailing

def Subscription.unfailing (s : Subscription) : Subscription :=
  { s with handler := fun event => (s.handler event).unfailing }

def Delivery.unfailing (d : Delivery) : Delivery := { d with rest := d.rest.unfailing }

def Agendum.unfailing : Agendum → Agendum
  | .begin d => .begin d.unfailing
  | .granted d => .granted d.unfailing
  | .resume d => .resume d.unfailing
  | .retire number => .retire number
  | .alert watch turns => .alert watch turns
  | .wake => .wake

def Happening.unfailing : Happening → Happening
  | .subscribed s => .subscribed s.unfailing
  | .ended id => .ended id
  | .published event => .published event

def Stage.Act.unfailing : Stage.Act → Stage.Act
  | .subscribe kinds flow node execution handler =>
    .subscribe kinds flow node execution fun event => (handler event).unfailing
  | .turn n rest => .turn n rest.unfailing
  | act => act

namespace Bus

def unfailing (bus : Bus) : Bus :=
  { bus with
    subscriptions := bus.subscriptions.map (·.unfailing)
    agenda := bus.agenda.map (·.unfailing)
    queued := bus.queued.map (·.unfailing)
    held := bus.held.map fun (gate, d) => (gate, d.unfailing)
    faults := [] }

theorem unfailing_subscribe (bus : Bus) (kinds : List EventKind)
    (flow node execution : Option String) (handler : Event → Reaction) :
    (bus.subscribe kinds flow node execution handler).2.unfailing =
      (bus.unfailing.subscribe kinds flow node execution
        fun event => (handler event).unfailing).2 := by
  simp [unfailing, subscribe, Subscription.unfailing]

theorem unfailing_unsubscribe (bus : Bus) (id : String) :
    (bus.unsubscribe id).2.unfailing = (bus.unfailing.unsubscribe id).2 := by
  simp only [unfailing, unsubscribe, List.filter_map]
  rfl

theorem unfailing_dispatch (event : Event) (bus : Bus) (s : Subscription) :
    (dispatch event bus s).unfailing = dispatch event bus.unfailing s.unfailing := by
  have haccepts : s.unfailing.accepts event = s.accepts event := rfl
  unfold dispatch
  rw [haccepts]
  split
  · simp [unfailing, Agendum.unfailing, Delivery.unfailing, Subscription.unfailing]
  · rfl

theorem unfailing_publish (bus : Bus) (event : Event) :
    (bus.publish event).unfailing = bus.unfailing.publish event := by
  have hfold (table : List Subscription) (bus : Bus) :
      (table.foldl (dispatch event) bus).unfailing =
        (table.map (·.unfailing)).foldl (dispatch event) bus.unfailing := by
    induction table generalizing bus with
    | nil => rfl
    | cons s table ih =>
      rw [List.foldl_cons, ih, unfailing_dispatch, List.map_cons, List.foldl_cons]
  exact hfold _ _

theorem unfailing_grant (bus : Bus) : bus.grant.unfailing = bus.unfailing.grant := by
  unfold grant
  cases hq : bus.queued with
  | nil => simp [unfailing, hq]
  | cons d rest =>
    by_cases hf : 0 < bus.free <;> simp [unfailing, hq, hf, Agendum.unfailing]

theorem unfailing_conclude (bus : Bus) (d : Delivery) :
    (bus.conclude d).unfailing = bus.unfailing.conclude d.unfailing := by
  have hgrant := unfailing_grant { bus with free := bus.free + 1 }
  have hfree : { bus with free := bus.free + 1 }.unfailing =
      { bus.unfailing with free := bus.unfailing.free + 1 } := rfl
  unfold conclude
  rw [← hfree, ← hgrant]
  simp [unfailing, Agendum.unfailing, Delivery.unfailing]

theorem unfailing_observe (bus : Bus) (watch : Nat) (event : Event) :
    (bus.observe watch event).unfailing = bus.unfailing.observe watch event := by
  unfold observe
  cases hw : bus.watches.find? (·.number == watch) with
  | none => simp [unfailing, hw]
  | some w => by_cases hs : w.seen.isSome = true <;> simp [unfailing, hw, hs, Agendum.unfailing]

theorem unfailing_retire (bus : Bus) (number : Nat) :
    (bus.retire number).unfailing = bus.unfailing.retire number := by
  have hawaited : bus.unfailing.awaited = bus.awaited := rfl
  unfold retire
  rw [hawaited]
  split
  · simp only [unfailing]
    split <;> simp [Agendum.unfailing]
  · rfl

theorem unfailing_endWatch (bus : Bus) (watch : Nat) :
    (bus.endWatch watch).unfailing = bus.unfailing.endWatch watch := by
  have hwatches : bus.unfailing.watches = bus.watches := rfl
  unfold endWatch
  rw [hwatches]
  split
  · rfl
  · rename_i w hw
    have hended := unfailing_unsubscribe bus w.subscription
    rw [← hended]
    simp only [unfailing]
    split <;> rename_i hawaited <;> simp [Agendum.unfailing, hawaited]

theorem unfailing_openGate (bus : Bus) (gate : String) :
    (bus.openGate gate).unfailing = bus.unfailing.openGate gate := by
  simp [openGate, unfailing, List.filter_map, Function.comp_def, Agendum.unfailing]

theorem unfailing_watch (bus : Bus) (kind : EventKind) (execution node : Option String)
    (patience : Patience) :
    (bus.watch kind execution node patience).2.unfailing =
      (bus.unfailing.watch kind execution node patience).2 := by
  by_cases h : patience = .spent <;>
    simp [watch, subscribe, unfailing, Subscription.unfailing, Reaction.unfailing,
      Agendum.unfailing, h]

theorem unfailing_admitsNow (bus : Bus) : bus.unfailing.admitsNow = bus.admitsNow := by
  have hgranted (agenda : List Agendum) :
      (agenda.map (·.unfailing)).any isGranted = agenda.any isGranted := by
    rw [List.any_map]
    congr 1
    funext entry
    cases entry <;> rfl
  simp only [admitsNow, unfailing, hgranted, List.isEmpty_map]
  rfl

end Bus

namespace Stage

/-- The stage as it would be if no handler ever failed. -/
def unfailing (stage : Stage) : Stage :=
  ⟨stage.bus.unfailing, stage.running.map (·.unfailing), stage.past.map (·.unfailing)⟩

theorem unfailing_enter (stage : Stage) (d : Delivery) :
    (stage.enter d).unfailing = stage.unfailing.enter d.unfailing := rfl

theorem unfailing_endWatch (stage : Stage) (watch : Nat) :
    (stage.endWatch watch).unfailing = stage.unfailing.endWatch watch := by
  have hwatches : stage.unfailing.bus.watches = stage.bus.watches := rfl
  unfold endWatch
  rw [hwatches]
  split
  · rfl
  · simp only [unfailing, Bus.unfailing_endWatch]
    rfl

theorem unfailing_subscribed (stage : Stage) (bus : Bus) :
    (stage.subscribed bus).unfailing = stage.unfailing.subscribed bus.unfailing := by
  simp only [subscribed, unfailing, Bus.unfailing, List.map_append, List.getLast?_map]
  cases bus.subscriptions.getLast? <;> rfl

theorem unfailing_take (stage : Stage) (entry : Agendum) :
    (stage.take entry).unfailing = stage.unfailing.take entry.unfailing := by
  cases entry with
  | begin d =>
    have hadmits : stage.unfailing.bus.admitsNow = stage.bus.admitsNow :=
      Bus.unfailing_admitsNow stage.bus
    simp only [take, Agendum.unfailing, hadmits]
    split
    · rfl
    · simp [unfailing, Bus.unfailing]
  | granted d =>
    simp only [take, Agendum.unfailing, unfailing_enter]
    simp only [unfailing, Bus.unfailing_grant]
  | resume d => rfl
  | retire number =>
    simp only [take, Agendum.unfailing, unfailing, Bus.unfailing_retire]
  | alert watch turns =>
    cases turns with
    | zero => exact unfailing_endWatch stage watch
    | succ turns => simp [take, unfailing, Bus.unfailing, Agendum.unfailing]
  | wake => rfl

theorem unfailing_go (stage : Stage) (d : Delivery) (rest : Reaction) :
    (stage.go d rest).unfailing = stage.unfailing.go d.unfailing rest.unfailing := by
  cases rest with
  | finish => simp only [go, Reaction.unfailing, unfailing, Bus.unfailing_conclude]
  | fail error =>
    simp only [go, Reaction.unfailing, unfailing, Bus.unfailing_conclude]
    rfl
  | hold gate next =>
    have hopened : stage.unfailing.bus.opened = stage.bus.opened := rfl
    simp only [go, Reaction.unfailing, hopened]
    split
    · rfl
    · simp [unfailing, Bus.unfailing, Delivery.unfailing]
  | tell v next => rfl
  | publish event next =>
    simp only [go, Reaction.unfailing, unfailing, Bus.unfailing_publish]
    rfl
  | unsubscribe id next =>
    simp only [go, Reaction.unfailing, unfailing, Bus.unfailing_unsubscribe]
    rfl
  | observe watch next =>
    simp only [go, Reaction.unfailing, unfailing, Bus.unfailing_observe]
    rfl

theorem unfailing_after (stage : Stage) (act : Act) :
    (stage.after act).unfailing = stage.unfailing.after act.unfailing := by
  cases act with
  | subscribe kinds flow node execution handler =>
    simp only [after, Act.unfailing, unfailing_subscribed, Bus.unfailing_subscribe]
    rfl
  | unsubscribe id =>
    simp only [after, Act.unfailing, unfailing, Bus.unfailing_unsubscribe]
    rfl
  | publish event =>
    simp only [after, Act.unfailing, unfailing, Bus.unfailing_publish]
    rfl
  | openGate gate => simp only [after, Act.unfailing, unfailing, Bus.unfailing_openGate]
  | watch kind execution node patience =>
    simp only [after, Act.unfailing, unfailing_subscribed, Bus.unfailing_watch]
    rfl
  | await deliveries watch => rfl
  | giveUp watch => exact unfailing_endWatch stage watch
  | take n =>
    have hagenda : stage.unfailing.bus.agenda[n]? = (stage.bus.agenda[n]?).map (·.unfailing) :=
      List.getElem?_map
    simp only [after, Act.unfailing, hagenda]
    cases stage.bus.agenda[n]? with
    | none => rfl
    | some entry =>
      simp only [Option.map_some, unfailing_take]
      congr 1
      simp [unfailing, Bus.unfailing, List.eraseIdx_map]
  | go n =>
    have hrunning : stage.unfailing.running[n]? = (stage.running[n]?).map (·.unfailing) :=
      List.getElem?_map
    simp only [after, Act.unfailing, hrunning]
    cases stage.running[n]? with
    | none => rfl
    | some d =>
      simp only [Option.map_some, unfailing_go]
      have hothers := List.eraseIdx_map Delivery.unfailing stage.running n
      simp only [unfailing, hothers]
      rfl
  | turn n rest =>
    have hrunning : stage.unfailing.running[n]? = (stage.running[n]?).map (·.unfailing) :=
      List.getElem?_map
    simp only [after, Act.unfailing, hrunning]
    cases stage.running[n]? with
    | none => rfl
    | some d => simp [unfailing, Delivery.unfailing, List.eraseIdx_map]

/-- Where handlers fail changes nothing but the faults: under the same schedule everything else
comes out as if they were done at that point. -/
theorem unfailing_run (stage : Stage) (acts : List Act) :
    (stage.run acts).unfailing = stage.unfailing.run (acts.map (·.unfailing)) := by
  induction acts generalizing stage with
  | nil => rfl
  | cons act acts ih => rw [run_cons, ih, unfailing_after, List.map_cons, run_cons]

end Stage

end FlowEngine
