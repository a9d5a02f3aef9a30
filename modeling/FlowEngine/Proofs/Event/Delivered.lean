import FlowEngine.Proofs.Event.Sent
import FlowEngine.Proofs.Event.Stage
import FlowEngine.Proofs.Event.Unfailing

/-!
# Each event is delivered once

What a bus does in one go is a schedule of single acts: each of its operations takes entries from
the front of the agenda and follows the handler it has called until it is held at a gate or is done.
So whatever holds under every schedule holds of a bus that is operated.

Under every schedule a handler is called once for each event that was published while its
subscription lasted and that it wants, and for no other; there are never more handlers inside their
body than slots; and a handler that fails takes nothing from the others.
-/

namespace FlowEngine

namespace Bus

/-- One bus comes of another by some schedule, and no handler stands between two steps. -/
def Becomes (bus bus' : Bus) : Prop :=
  ∀ past, ∃ acts past', Stage.run ⟨bus, [], past⟩ acts = ⟨bus', [], past'⟩

theorem Becomes.refl (bus : Bus) : bus.Becomes bus := fun past => ⟨[], past, rfl⟩

theorem Becomes.trans {bus bus' bus'' : Bus} (h : bus.Becomes bus') (h' : bus'.Becomes bus'') :
    bus.Becomes bus'' := by
  intro past
  obtain ⟨acts, past', hacts⟩ := h past
  obtain ⟨acts', past'', hacts'⟩ := h' past'
  exact ⟨acts ++ acts', past'', by rw [Stage.run_append, hacts, hacts']⟩

theorem Becomes.act {bus bus' : Bus} (act : Stage.Act) (past' : List Happening → List Happening)
    (h : ∀ past, Stage.after ⟨bus, [], past⟩ act = ⟨bus', [], past' past⟩) : bus.Becomes bus' :=
  fun past => ⟨[act], past' past, h past⟩

theorem run_react (d : Delivery) (rest : Reaction) (bus : Bus) (past : List Happening) :
    ∃ acts past',
      Stage.run ⟨bus, [{ d with rest }], past⟩ acts = ⟨react d rest bus, [], past'⟩ := by
  induction rest generalizing bus past with
  | finish => exact ⟨[.go 0], past, rfl⟩
  | fail error => exact ⟨[.go 0], past, rfl⟩
  | hold gate next ih =>
    by_cases h : gate ∈ bus.opened
    · obtain ⟨acts, past', hacts⟩ := ih bus past
      refine ⟨.go 0 :: acts, past', ?_⟩
      simpa [Stage.after, Stage.go, react, h] using hacts
    · refine ⟨[.go 0], past, ?_⟩
      simp [Stage.after, Stage.go, react, h]
  | tell v next ih =>
    obtain ⟨acts, past', hacts⟩ := ih { bus with told := bus.told ++ [v] } past
    exact ⟨.go 0 :: acts, past', hacts⟩
  | publish event next ih =>
    obtain ⟨acts, past', hacts⟩ := ih (bus.publish event) (.published event :: past)
    exact ⟨.go 0 :: acts, past', hacts⟩
  | unsubscribe id next ih =>
    obtain ⟨acts, past', hacts⟩ := ih (bus.unsubscribe id).2 (.ended id :: past)
    exact ⟨.go 0 :: acts, past', hacts⟩
  | observe watch next ih =>
    obtain ⟨acts, past', hacts⟩ := ih (bus.observe watch d.event) past
    exact ⟨.go 0 :: acts, past', hacts⟩

theorem run_endWatch (bus : Bus) (watch : Nat) (past : List Happening) :
    ∃ past', Stage.endWatch ⟨bus, [], past⟩ watch = ⟨bus.endWatch watch, [], past'⟩ := by
  simp only [Stage.endWatch]
  split
  · rename_i h
    exact ⟨past, by simp [endWatch, h]⟩
  · exact ⟨_, rfl⟩

theorem Becomes.carryOut (bus : Bus) (entry : Agendum) {rest : List Agendum}
    (h : bus.agenda = entry :: rest) :
    bus.Becomes ({ bus with agenda := rest }.carryOut entry) := by
  intro past
  have htake : ∀ acts, Stage.run ⟨bus, [], past⟩ (.take 0 :: acts) =
      (Stage.take ⟨{ bus with agenda := rest }, [], past⟩ entry).run acts := by
    intro acts
    simp [Stage.after, h]
  cases entry with
  | begin d =>
    by_cases hadmits : admitsNow { bus with agenda := rest } = true
    · obtain ⟨acts, past', hacts⟩ := run_react d d.rest
        { bus with
          agenda := rest
          free := bus.free - 1
          calls := bus.calls ++ [(d.subscription, d.event)] } past
      refine ⟨.take 0 :: acts, past', ?_⟩
      rw [htake]
      simpa [Stage.take, Stage.enter, Bus.carryOut, invoke, hadmits] using hacts
    · refine ⟨[.take 0], past, ?_⟩
      rw [htake]
      simp [Stage.take, Bus.carryOut, hadmits]
  | granted d =>
    obtain ⟨acts, past', hacts⟩ := run_react d d.rest
      { grant { bus with agenda := rest } with
        calls := (grant { bus with agenda := rest }).calls ++ [(d.subscription, d.event)] } past
    exact ⟨.take 0 :: acts, past', (htake _).trans hacts⟩
  | resume d =>
    obtain ⟨acts, past', hacts⟩ := run_react d d.rest { bus with agenda := rest } past
    exact ⟨.take 0 :: acts, past', (htake _).trans hacts⟩
  | retire number => exact ⟨[.take 0], past, htake []⟩
  | alert watch turns =>
    cases turns with
    | zero =>
      obtain ⟨past', hend⟩ := run_endWatch { bus with agenda := rest } watch past
      exact ⟨[.take 0], past', (htake []).trans hend⟩
    | succ turns => exact ⟨[.take 0], past, htake []⟩
  | wake => exact ⟨[.take 0], past, htake []⟩

theorem Becomes.work (count : Nat) (bus : Bus) : bus.Becomes (bus.work count) := by
  induction count generalizing bus with
  | zero => exact .refl bus
  | succ count ih =>
    cases hagenda : bus.agenda with
    | nil =>
      simp only [Bus.work, hagenda]
      exact .refl bus
    | cons entry rest =>
      simp only [Bus.work, hagenda]
      exact (Becomes.carryOut bus entry hagenda).trans (ih _)

theorem Becomes.workUntilWoken (count : Nat) (bus : Bus) :
    bus.Becomes (bus.workUntilWoken count) := by
  induction count generalizing bus with
  | zero => exact .refl bus
  | succ count ih =>
    unfold Bus.workUntilWoken
    split
    · exact .refl bus
    · rename_i rest hagenda
      exact Becomes.carryOut bus .wake hagenda
    · rename_i entry rest _ hagenda
      exact (Becomes.carryOut bus entry hagenda).trans (ih _)

theorem Becomes.flush (entries rounds : Nat) (bus : Bus) :
    bus.Becomes (bus.flush entries rounds) := by
  induction rounds generalizing bus with
  | zero => exact .refl bus
  | succ rounds ih =>
    unfold Bus.flush
    split
    · exact .refl bus
    · have hawait : bus.Becomes { bus with awaited := bus.pending } :=
        .act (.await bus.pending bus.awaitedWatch) id fun _ => rfl
      exact (hawait.trans (.workUntilWoken entries _)).trans (ih _)

theorem Becomes.endWatch (bus : Bus) (watch : Nat) : bus.Becomes (bus.endWatch watch) := by
  intro past
  obtain ⟨past', hend⟩ := run_endWatch bus watch past
  exact ⟨[.giveUp watch], past', hend⟩

theorem Becomes.awaitWatch (entries : Nat) (bus : Bus) (number : Nat) :
    bus.Becomes (bus.awaitWatch entries number).2 := by
  have hawait (bus : Bus) (watch : Option Nat) : bus.Becomes { bus with awaitedWatch := watch } :=
    .act (.await bus.awaited watch) id fun _ => rfl
  unfold Bus.awaitWatch
  split
  · exact .refl bus
  · split
    · exact .refl bus
    · have hwork := (hawait bus (some number)).trans (.workUntilWoken entries _)
      dsimp only
      split
      · exact hwork
      · exact (hwork.trans (hawait _ none)).trans (.endWatch _ number)

theorem Becomes.subscribe (bus : Bus) (kinds : List EventKind) (flow node execution : Option String)
    (handler : Event → Reaction) :
    bus.Becomes (bus.subscribe kinds flow node execution handler).2 :=
  .act (.subscribe kinds flow node execution handler) _ fun _ => rfl

theorem Becomes.unsubscribe (bus : Bus) (id : String) : bus.Becomes (bus.unsubscribe id).2 :=
  .act (.unsubscribe id) _ fun _ => rfl

theorem Becomes.publish (bus : Bus) (event : Event) : bus.Becomes (bus.publish event) :=
  .act (.publish event) _ fun _ => rfl

theorem Becomes.openGate (bus : Bus) (gate : String) : bus.Becomes (bus.openGate gate) :=
  .act (.openGate gate) _ fun _ => rfl

theorem Becomes.watch (bus : Bus) (kind : EventKind) (execution node : Option String)
    (patience : Patience) : bus.Becomes (bus.watch kind execution node patience).2 :=
  .act (.watch kind execution node patience) _ fun _ => rfl

end Bus

open Relation (ReflTransGen)

/-- The events that the handler of a subscription was called with. -/
def Bus.received (bus : Bus) (id : String) : List Event := (bus.calls.filter (·.1 = id)).map (·.2)

namespace Stage

/-- How many deliveries are inside their handler, those that wait at a gate included. -/
def inBody (stage : Stage) : Nat :=
  stage.running.length + stage.bus.held.length + (stage.bus.agenda.flatMap Agendum.goesOn).length

theorem inBody_unfailing (stage : Stage) : stage.unfailing.inBody = stage.inBody := by
  have hgoes : (stage.bus.agenda.map (·.unfailing)).flatMap Agendum.goesOn =
      stage.bus.agenda.flatMap Agendum.goesOn := by
    rw [List.flatMap_map]
    congr 1
    funext entry
    cases entry <;> rfl
  simp [inBody, unfailing, Bus.unfailing, hgoes]

variable (capacity : Int) (slots : Nat) (acts : List Act)

variable {capacity slots acts} in
/-- What every step on accounts keeps holds along a whole schedule. -/
theorem run_keeps {P : Account → Prop} (hstep : ∀ {a b}, Account.Step a b → P a → P b)
    (hstart : P (start capacity slots).account) : P ((start capacity slots).run acts).account := by
  have hkeeps : ∀ a, ReflTransGen Account.Step (start capacity slots).account a → P a := by
    intro a h
    induction h with
    | refl => exact hstart
    | tail _ h ih => exact hstep h ih
  exact hkeeps _ (leads_run _ acts)

theorem faithful_run : ((start capacity slots).run acts).account.Faithful :=
  run_keeps Account.Step.faithful <| by
    constructor <;> simp [start, Bus.create, account, made, Account.sent]

theorem numbered_run : ((start capacity slots).run acts).account.Numbered :=
  run_keeps Account.Step.numbered <| by
    constructor <;> simp [start, Bus.create, account]

theorem slotted_run : ((start capacity slots).run acts).account.Slotted slots :=
  run_keeps Account.Step.slotted <| by
    simp [Account.Slotted, start, Bus.create, account]

theorem inBody_le : ((start capacity slots).run acts).inBody ≤ slots := by
  have h := slotted_run capacity slots acts
  simp only [Account.Slotted, account, Multiset.card_add, Multiset.coe_card, List.length_map] at h
  unfold inBody
  omega

variable {capacity slots acts}

theorem received_eq (stage : Stage) (id : String) :
    (stage.bus.received id : Multiset Event) = sentTo id stage.account.calls := by
  simp [sentTo, Bus.received, account]

/-- What a handler has been called with and what is still on its way to it is what it is to get. -/
theorem received_add (s : Subscription) (hs : s ∈ made ((start capacity slots).run acts).past) :
    (((start capacity slots).run acts).bus.received s.id : Multiset Event) +
      sentTo s.id (((start capacity slots).run acts).account.waiting.map (·.call)) =
      (heard s.id ((start capacity slots).run acts).past).filter (s.Wants ·) := by
  have h := (faithful_run capacity slots acts).sent s hs
  rw [Account.sent, sentTo_add, ← received_eq] at h
  rw [h]
  congr 1
  exact List.filter_congr fun event _ => by simp [← Subscription.accepts_iff]

theorem waiting_eq_zero (h : ((start capacity slots).run acts).bus.pending = []) :
    ((start capacity slots).run acts).account.waiting = 0 := by
  have hpending := congrArg Multiset.card (numbered_run capacity slots acts).pending
  have hnil : ((start capacity slots).run acts).account.pending = 0 := by
    simp [account, h]
  rw [hnil, Multiset.card_zero, Multiset.card_add, Multiset.card_add, Multiset.card_map] at hpending
  exact Multiset.card_eq_zero.mp (by omega)

theorem received_perm (h : ((start capacity slots).run acts).bus.pending = []) (s : Subscription)
    (hs : s ∈ made ((start capacity slots).run acts).past) :
    (((start capacity slots).run acts).bus.received s.id).Perm
      ((heard s.id ((start capacity slots).run acts).past).filter (s.Wants ·)) := by
  have hreceived := received_add s hs
  rw [waiting_eq_zero h] at hreceived
  exact Multiset.coe_eq_coe.mp (by simpa [sentTo] using hreceived)

/-- A bus that is operated, with its agenda worked off in order, never has more handlers inside
their body than slots, and its subscriptions have different names. -/
theorem inBody_le_of_becomes {bus : Bus} (h : (Bus.create capacity slots).Becomes bus) :
    bus.held.length + (bus.agenda.flatMap Agendum.goesOn).length ≤ slots ∧
      (bus.subscriptions.map (·.id)).Nodup := by
  obtain ⟨acts, past, hacts⟩ := h []
  have hrun : (start capacity slots).run acts = ⟨bus, [], past⟩ := hacts
  have hinside := inBody_le capacity slots acts
  have hlisted := (faithful_run capacity slots acts).listed
  rw [hrun] at hinside hlisted
  exact ⟨by simpa [inBody] using hinside, hlisted⟩

/-- Each event goes to the handlers of those subscriptions that last when it is published and want
it, once to each and to no other, whatever handlers do in the meantime; and where they fail matters
to nothing but the faults. -/
theorem delivers_exactly_once (capacity : Int) (slots : Nat) (acts : List Act) :
    let stage := (start capacity slots).run acts
    ((made stage.past).map (·.id)).Nodup ∧
    (stage.bus.pending = [] → ∀ s ∈ made stage.past,
      (stage.bus.received s.id).Perm ((heard s.id stage.past).filter (s.Wants ·))) ∧
    (∀ s ∈ made stage.past,
      (stage.bus.received s.id).Subperm ((heard s.id stage.past).filter (s.Wants ·))) ∧
    (∀ call ∈ stage.bus.calls, ∃ s ∈ made stage.past, s.id = call.1) ∧
    (∀ d ∈ stage.account.waiting, ∃ s ∈ made stage.past,
      d.subscription = s.id ∧ d.rest = s.handler d.event) ∧
    stage.inBody ≤ slots ∧
    ∀ others : List Act, others.map (·.unfailing) = acts.map (·.unfailing) →
      let other := (start capacity slots).run others
      other.bus.calls = stage.bus.calls ∧ other.bus.pending = stage.bus.pending ∧
        other.bus.history = stage.bus.history ∧ other.inBody = stage.inBody := by
  have hfaithful := faithful_run capacity slots acts
  refine ⟨hfaithful.distinct, ?_, ?_, ?_, hfaithful.handlers, inBody_le capacity slots acts, ?_⟩
  · exact received_perm
  · intro s hs
    refine Multiset.coe_le.mp ?_
    rw [← received_add s hs]
    exact Multiset.le_add_right _ _
  · intro call hcall
    exact hfaithful.known call (Multiset.mem_add.mpr (.inl hcall))
  · intro others hothers
    have h : ((start capacity slots).run others).unfailing =
        ((start capacity slots).run acts).unfailing := by
      rw [unfailing_run, unfailing_run, hothers]
    have hbus := congrArg Stage.bus h
    refine ⟨congrArg (·.calls) hbus, congrArg (·.pending) hbus, congrArg (·.history) hbus, ?_⟩
    rw [← inBody_unfailing, h, inBody_unfailing]

def besideFailure : List Act :=
  [.subscribe [.custom] none none none fun _ => .fail "no",
    .subscribe [.custom] none none none fun _ => .finish,
    .publish ⟨.custom, none, none, none, []⟩,
    .take 0, .take 0, .go 0, .take 1, .take 0, .go 0, .take 0]

theorem delivers_beside_failure :
    ((start 1000 1).run besideFailure).bus.pending = [] ∧
      ∀ s ∈ made ((start 1000 1).run besideFailure).past,
        (((start 1000 1).run besideFailure).bus.received s.id).Perm
          ((heard s.id ((start 1000 1).run besideFailure).past).filter (s.Wants ·)) :=
  have hpending : ((start 1000 1).run besideFailure).bus.pending = [] := by decide
  ⟨hpending, (delivers_exactly_once 1000 1 besideFailure).2.1 hpending⟩

example : ((start 1000 1).run besideFailure).bus.calls.map (·.1) = ["sub_1", "sub_2"] := by
  decide

end Stage

end FlowEngine
