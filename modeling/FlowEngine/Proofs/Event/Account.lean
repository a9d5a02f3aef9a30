import Mathlib.Data.Multiset.Basic
import Mathlib.Data.Multiset.AddSub
import Mathlib.Data.Multiset.Filter
import Mathlib.Logic.Relation
import FlowEngine.Proofs.Event.Stage

/-!
# What a stage owes

Of a stage only this matters for who gets which event: the table of subscriptions, the slots, and
the deliveries that wait for their handler, are inside it, or have left it. Every act is one of few
steps on such an account, or several of them, or none.
-/

namespace FlowEngine

open Relation (ReflTransGen)

/-- What is left of a stage once orders and the steps inside of handlers are forgotten. -/
structure Account where
  table : List Subscription
  subscribed : Nat
  dispatched : Nat
  free : Nat
  /-- The slots that are given to deliveries not yet inside their handler. -/
  granted : Nat
  calls : Multiset (String × Event)
  /-- The deliveries that have not reached their handler. -/
  waiting : Multiset Delivery
  inside : Multiset Nat
  leaving : Multiset Nat
  pending : Multiset Nat
  past : List Happening

/-- The deliveries of an event to a table, numbered from a first number on. -/
def deliveries (event : Event) : List Subscription → Nat → List Delivery
  | [], _ => []
  | s :: table, number =>
    if s.accepts event then
      ⟨number, s.id, event, s.handler event⟩ :: deliveries event table (number + 1)
    else deliveries event table number

theorem Bus.dispatchAll (event : Event) (table : List Subscription) (bus : Bus) :
    table.foldl (Bus.dispatch event) bus =
      { bus with
        dispatched := bus.dispatched + (deliveries event table bus.dispatched).length
        pending := bus.pending ++ (deliveries event table bus.dispatched).map (·.number)
        agenda := bus.agenda ++ (deliveries event table bus.dispatched).map .begin } := by
  induction table generalizing bus with
  | nil => simp [deliveries]
  | cons s table ih =>
    rw [List.foldl_cons, ih]
    by_cases h : s.accepts event = true
    · simp [Bus.dispatch, deliveries, h, Nat.add_assoc, Nat.add_comm 1]
    · simp [Bus.dispatch, deliveries, h]

theorem Bus.publish_eq (bus : Bus) (event : Event) :
    bus.publish event =
      { bus with
        history := trimmed bus.capacity (bus.history ++ [event])
        dispatched := bus.dispatched + (deliveries event bus.subscriptions bus.dispatched).length
        pending :=
          bus.pending ++ (deliveries event bus.subscriptions bus.dispatched).map (·.number)
        agenda := bus.agenda ++ (deliveries event bus.subscriptions bus.dispatched).map .begin } :=
  Bus.dispatchAll event bus.subscriptions _

def Account.due (a : Account) (event : Event) : Multiset Delivery :=
  deliveries event a.table a.dispatched

inductive Account.Step : Account → Account → Prop
  | subscribe (a : Account) (s : Subscription)
      (hid : s.id = "sub_" ++ toString (a.subscribed + 1)) :
    Step a { a with
      table := a.table ++ [s]
      subscribed := a.subscribed + 1
      past := .subscribed s :: a.past }
  | unsubscribe (a : Account) (id : String) :
    Step a { a with table := a.table.filter (·.id != id), past := .ended id :: a.past }
  | publish (a : Account) (event : Event) :
    Step a { a with
      waiting := a.waiting + a.due event
      pending := a.pending + (a.due event).map (·.number)
      dispatched := a.dispatched + (a.due event).card
      past := .published event :: a.past }
  | begin (a : Account) (d : Delivery) :
    Step { a with waiting := d ::ₘ a.waiting, free := a.free + 1 }
      { a with calls := (d.subscription, d.event) ::ₘ a.calls, inside := d.number ::ₘ a.inside }
  /-- The first in line is promised a slot. -/
  | grant (a : Account) :
    Step { a with free := a.free + 1 } { a with granted := a.granted + 1 }
  | enter (a : Account) (d : Delivery) :
    Step { a with waiting := d ::ₘ a.waiting, granted := a.granted + 1 }
      { a with calls := (d.subscription, d.event) ::ₘ a.calls, inside := d.number ::ₘ a.inside }
  | leave (a : Account) (number : Nat) :
    Step { a with inside := number ::ₘ a.inside }
      { a with leaving := number ::ₘ a.leaving, free := a.free + 1 }
  | retire (a : Account) (number : Nat) :
    Step { a with leaving := number ::ₘ a.leaving }
      { a with pending := a.pending.filter (· != number) }

theorem Account.leads_of_eq {a b : Account} (h : a = b) : ReflTransGen Account.Step a b :=
  h ▸ .refl

@[simp]
def Agendum.waits : Agendum → List Delivery
  | .begin d => [d]
  | .granted d => [d]
  | _ => []

@[simp]
def Agendum.goesOn : Agendum → List Nat
  | .resume d => [d.number]
  | _ => []

@[simp]
def Agendum.leaves : Agendum → List Nat
  | .retire number => [number]
  | _ => []

attribute [simp] Bus.isGranted

namespace Stage

def account (stage : Stage) : Account where
  table := stage.bus.subscriptions
  subscribed := stage.bus.subscribed
  dispatched := stage.bus.dispatched
  free := stage.bus.free
  granted := stage.bus.agenda.countP Bus.isGranted
  calls := stage.bus.calls
  waiting := stage.bus.queued + (stage.bus.agenda.flatMap Agendum.waits : Multiset Delivery)
  inside := stage.running.map (·.number) + (stage.bus.held.map (·.2.number) : Multiset Nat) +
    (stage.bus.agenda.flatMap Agendum.goesOn : Multiset Nat)
  leaving := stage.bus.agenda.flatMap Agendum.leaves
  pending := stage.bus.pending
  past := stage.past

variable {bus : Bus} {running : List Delivery} {past : List Happening}

theorem account_perm {agenda : List Agendum} {running' : List Delivery}
    (ha : bus.agenda.Perm agenda) (hr : running.Perm running') :
    account ⟨bus, running, past⟩ = account ⟨{ bus with agenda }, running', past⟩ := by
  have hinside := ((hr.map (·.number)).append_right (bus.held.map (·.2.number))).append
    (ha.flatMap_right Agendum.goesOn)
  simp only [account, Account.mk.injEq, true_and, and_true, Multiset.coe_add, Multiset.coe_eq_coe]
  exact ⟨ha.countP_eq _, (ha.flatMap_right _).append_left _, hinside, ha.flatMap_right _⟩

theorem account_observe (watch : Nat) (event : Event) :
    account ⟨bus.observe watch event, running, past⟩ = account ⟨bus, running, past⟩ := by
  unfold Bus.observe
  split
  · rfl
  · split
    · rfl
    · simp [account]

theorem leads_grant :
    ReflTransGen Account.Step (account ⟨bus, running, past⟩)
      (account ⟨bus.grant, running, past⟩) := by
  unfold Bus.grant
  split
  · rename_i d rest hq
    split
    · rename_i hf
      refine .single ?_
      convert Account.Step.grant { account ⟨bus, running, past⟩ with free := bus.free - 1 } using 1
      · simp [account, Nat.sub_add_cancel hf]
      · have hlast : (rest ++ (bus.agenda.flatMap Agendum.waits ++ [d])).Perm
            (d :: (rest ++ bus.agenda.flatMap Agendum.waits)) :=
          ((List.perm_append_singleton d _).append_left rest).trans List.perm_middle
        simpa [account, hq] using hlast
    · exact .refl
  · exact .refl

theorem leads_conclude (d : Delivery) :
    ReflTransGen Account.Step (account ⟨bus, d :: running, past⟩)
      (account ⟨bus.conclude d, running, past⟩) := by
  have hleave : Account.Step (account ⟨bus, d :: running, past⟩)
      (account ⟨{ bus with
        free := bus.free + 1, agenda := bus.agenda ++ [.retire d.number] }, running, past⟩) := by
    convert Account.Step.leave (account ⟨bus, running, past⟩) d.number using 1
    · simp [account]
    · simp [account]
  refine .head hleave ?_
  convert leads_grant using 1
  simp only [Bus.conclude, Bus.grant]
  split
  · simp only [Nat.zero_lt_succ, if_true, List.append_assoc, List.cons_append, List.nil_append]
    exact account_perm ((List.Perm.swap _ _ _).append_left _) (.refl _)
  · rfl

/-- The deliveries that a gate has held are still inside their handlers when it opens. -/
theorem account_openGate (gate : String) :
    account ⟨bus.openGate gate, running, past⟩ = account ⟨bus, running, past⟩ := by
  let released := (bus.held.filter (·.1 == gate)).map fun waiting => Agendum.resume waiting.2
  have hopen : bus.openGate gate =
      { bus with
        opened := gate :: bus.opened
        held := bus.held.filter (·.1 != gate)
        agenda := bus.agenda ++ released } := rfl
  have hwaits : released.flatMap Agendum.waits = [] := by simp [released, List.flatMap_map]
  have hleaves : released.flatMap Agendum.leaves = [] := by simp [released, List.flatMap_map]
  have hgranted : released.countP Bus.isGranted = 0 := by simp [released, List.countP_eq_zero]
  have hgoes : released.flatMap Agendum.goesOn =
      (bus.held.filter (·.1 == gate)).map (·.2.number) := by
    rw [List.flatMap_map, List.map_eq_flatMap]
    rfl
  have hheld := (List.filter_append_perm (·.1 == gate) bus.held).map (·.2.number)
  rw [List.map_append] at hheld
  have hinside : ((bus.held.filter (·.1 != gate)).map (·.2.number) ++
      (bus.agenda.flatMap Agendum.goesOn ++ (bus.held.filter (·.1 == gate)).map (·.2.number))).Perm
      (bus.held.map (·.2.number) ++ bus.agenda.flatMap Agendum.goesOn) := by
    rw [← List.append_assoc]
    refine List.perm_append_comm.trans ?_
    rw [← List.append_assoc]
    exact hheld.append_right _
  simp only [account, hopen, List.flatMap_append, List.countP_append, Account.mk.injEq,
    true_and, and_true, Multiset.coe_add, Multiset.coe_eq_coe, List.append_assoc]
  refine ⟨?_, ?_, ?_, ?_⟩
  · rw [hgranted, Nat.add_zero]
  · rw [hwaits, List.append_nil]
  · rw [hgoes]
    exact hinside.append_left _
  · rw [hleaves, List.append_nil]

theorem account_held (gate : String) (d : Delivery) (rest : Reaction) :
    account ⟨{ bus with held := bus.held ++ [(gate, { d with rest })] }, running, past⟩ =
      account ⟨bus, d :: running, past⟩ := by
  simp only [account, Account.mk.injEq, true_and, and_true, Multiset.coe_add, Multiset.coe_eq_coe,
    List.map_append, List.map_cons, List.map_nil, ← List.append_assoc]
  exact (List.perm_append_singleton _ _).append_right _

theorem step_publish (event : Event) :
    Account.Step (account ⟨bus, running, past⟩)
      (account ⟨bus.publish event, running, .published event :: past⟩) := by
  convert Account.Step.publish (account ⟨bus, running, past⟩) event using 1
  generalize hds : deliveries event bus.subscriptions bus.dispatched = ds
  have hwaits : (ds.map Agendum.begin).flatMap Agendum.waits = ds := by
    simp [List.flatMap_map, Agendum.waits]
  have hgoes : (ds.map Agendum.begin).flatMap Agendum.goesOn = [] := by
    simp [List.flatMap_map, Agendum.goesOn]
  have hleaves : (ds.map Agendum.begin).flatMap Agendum.leaves = [] := by
    simp [List.flatMap_map, Agendum.leaves]
  have hgranted : (ds.map Agendum.begin).countP Bus.isGranted = 0 := by
    simp [List.countP_eq_zero, Bus.isGranted]
  rw [Bus.publish_eq]
  simp [account, Account.due, hds, hwaits, hgoes, hleaves, hgranted, List.flatMap_append,
    ← List.append_assoc]

theorem leads_go (d : Delivery) (rest : Reaction) :
    ReflTransGen Account.Step (account ⟨bus, d :: running, past⟩)
      (go ⟨bus, running, past⟩ d rest).account := by
  cases rest with
  | finish => exact leads_conclude d
  | fail error =>
    exact @leads_conclude { bus with faults := bus.faults ++ [(d.event.kind, error)] } running past d
  | hold gate next =>
    simp only [go]
    split
    · exact .refl
    · rw [account_held]
  | tell v next => exact .refl
  | publish event next => exact .single (@step_publish bus (d :: running) past event)
  | unsubscribe id next => exact .single (.unsubscribe _ id)
  | observe watch next =>
    rw [go, account_observe]
    exact .refl

theorem leads_endWatch (stage : Stage) (watch : Nat) :
    ReflTransGen Account.Step stage.account (stage.endWatch watch).account := by
  unfold endWatch
  split
  · exact .refl
  · rename_i w hw
    refine .single ?_
    convert Account.Step.unsubscribe stage.account w.subscription using 1
    simp only [Bus.endWatch, hw]
    split
    · simp [account, Bus.unsubscribe]
    · rfl

theorem enter_grant (d : Delivery) :
    enter ⟨bus.grant, running, past⟩ d =
      ⟨(enter ⟨bus, running, past⟩ d).bus.grant, d :: running, past⟩ := by
  cases hq : bus.queued with
  | nil => simp [enter, Bus.grant, hq]
  | cons d rest => by_cases hf : 0 < bus.free <;> simp [enter, Bus.grant, hq, hf]

theorem leads_take (entry : Agendum) :
    ReflTransGen Account.Step (account ⟨{ bus with agenda := entry :: bus.agenda }, running, past⟩)
      (take ⟨bus, running, past⟩ entry).account := by
  cases entry with
  | begin d =>
    simp only [take]
    split
    · rename_i hadmits
      have hfree : 0 < bus.free := by
        simp only [Bus.admitsNow, Bool.and_eq_true, decide_eq_true_eq] at hadmits
        exact hadmits.1.1
      refine .single ?_
      convert Account.Step.begin
        { account ⟨bus, running, past⟩ with free := bus.free - 1 } d using 1
      · simp [account, Nat.sub_add_cancel hfree]
      · simp [enter, account]
    · refine Account.leads_of_eq ?_
      simp [account]
  | granted d =>
    have henter : Account.Step
        (account ⟨{ bus with agenda := .granted d :: bus.agenda }, running, past⟩)
        (enter ⟨bus, running, past⟩ d).account := by
      convert Account.Step.enter (account ⟨bus, running, past⟩) d using 1
      · simp [account, List.countP_cons]
      · simp [enter, account]
    refine .head henter ?_
    rw [take, enter_grant]
    exact leads_grant
  | resume d =>
    refine Account.leads_of_eq ?_
    have hfirst : (running.map (·.number) ++ (bus.held.map (·.2.number) ++
        d.number :: bus.agenda.flatMap Agendum.goesOn)).Perm
        (d.number :: (running.map (·.number) ++ (bus.held.map (·.2.number) ++
          bus.agenda.flatMap Agendum.goesOn))) :=
      (List.perm_middle.append_left _).trans List.perm_middle
    simpa [take, account] using hfirst
  | retire number =>
    refine .single ?_
    convert Account.Step.retire (account ⟨bus, running, past⟩) number using 1
    · simp [account]
    · simp only [take, Bus.retire]
      split
      · split <;> simp [account, -bne_iff_ne]
      · simp [account, -bne_iff_ne]
  | alert watch turns =>
    cases turns with
    | zero =>
      refine .trans (Account.leads_of_eq ?_) (leads_endWatch ⟨bus, running, past⟩ watch)
      simp [account]
    | succ turns =>
      refine Account.leads_of_eq ?_
      simp [take, account]
  | wake =>
    refine Account.leads_of_eq ?_
    simp [take, account]

theorem step_subscribe (kinds : List EventKind) (flow node execution : Option String)
    (handler : Event → Reaction) :
    Account.Step (account ⟨bus, running, past⟩)
      (subscribed ⟨bus, running, past⟩
        (bus.subscribe kinds flow node execution handler).2).account := by
  convert Account.Step.subscribe (account ⟨bus, running, past⟩)
    ⟨"sub_" ++ toString (bus.subscribed + 1), kinds, flow, node, execution, handler⟩ rfl using 1
  simp [account, subscribed, Bus.subscribe]

theorem step_watch (kind : EventKind) (execution node : Option String) (patience : Patience) :
    Account.Step (account ⟨bus, running, past⟩)
      (subscribed ⟨bus, running, past⟩ (bus.watch kind execution node patience).2).account := by
  by_cases h : patience = .spent
  · convert step_subscribe [kind] none node execution (fun _ => .finish) using 1
    simp [account, subscribed, Bus.watch, Bus.subscribe, h]
  · convert step_subscribe [kind] none node execution
      (fun _ => .observe bus.watches.length .finish) using 1
    simp [account, subscribed, Bus.watch, Bus.subscribe, h]

theorem leads_after (stage : Stage) (act : Act) :
    ReflTransGen Account.Step stage.account (stage.after act).account := by
  obtain ⟨bus, running, past⟩ := stage
  cases act with
  | subscribe kinds flow node execution handler => exact .single (step_subscribe ..)
  | unsubscribe id => exact .single (.unsubscribe _ id)
  | publish event => exact .single (step_publish event)
  | openGate gate => exact Account.leads_of_eq (account_openGate gate).symm
  | watch kind execution node patience => exact .single (step_watch ..)
  | await deliveries watch => exact .refl
  | giveUp watch => exact leads_endWatch _ watch
  | take n =>
    simp only [after]
    split
    · exact .refl
    · rename_i entry h
      obtain ⟨hn, rfl⟩ := List.getElem?_eq_some_iff.mp h
      exact .trans (Account.leads_of_eq
        (account_perm (List.getElem_cons_eraseIdx_perm hn).symm (.refl _)))
        (@leads_take { bus with agenda := bus.agenda.eraseIdx n } running past _)
  | go n =>
    simp only [after]
    split
    · exact .refl
    · rename_i d h
      obtain ⟨hn, rfl⟩ := List.getElem?_eq_some_iff.mp h
      exact .trans (Account.leads_of_eq
        (account_perm (.refl _) (List.getElem_cons_eraseIdx_perm hn).symm)) (leads_go _ _)
  | turn n rest =>
    simp only [after]
    split
    · exact .refl
    · rename_i d h
      obtain ⟨hn, rfl⟩ := List.getElem?_eq_some_iff.mp h
      have h : account ⟨bus, running, past⟩ =
          account ⟨bus, running[n] :: running.eraseIdx n, past⟩ :=
        account_perm (.refl _) (List.getElem_cons_eraseIdx_perm hn).symm
      exact Account.leads_of_eq h

theorem leads_run (stage : Stage) (acts : List Act) :
    ReflTransGen Account.Step stage.account (stage.run acts).account := by
  induction acts generalizing stage with
  | nil => exact .refl
  | cons act acts ih => exact (leads_after stage act).trans (ih _)

end Stage

end FlowEngine
