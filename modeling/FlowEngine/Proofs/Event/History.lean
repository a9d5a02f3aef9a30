import Mathlib.Data.List.DropRight
import FlowEngine.Proofs.Event.Sent

/-!
# What the history holds

A bus with room for events holds the last ones that were published, as many as it has room for, under
every schedule of its handlers. So what it is asked for is a part of these, the latest first, and what
it counts are these. A bus without any room holds everything.
-/

namespace FlowEngine

def publishedEvents : List Happening → List Event
  | [] => []
  | .subscribed _ :: earlier => publishedEvents earlier
  | .ended _ :: earlier => publishedEvents earlier
  | .published event :: earlier => publishedEvents earlier ++ [event]

/-- What is asked of a history: a kind of events, and a run unless the filter is empty. -/
structure Event.Matches (kind : Option EventKind) (execution : Option String) (event : Event) :
    Prop where
  kind : ∀ wanted, kind = some wanted → event.kind = wanted
  execution : ∀ wanted, execution = some wanted → wanted ≠ "" → event.executionId = some wanted

theorem Event.matches_iff {kind : Option EventKind} {execution : Option String} {event : Event} :
    ((kind.map (event.kind == ·)).getD true && Subscription.admits execution event.executionId) =
      true ↔ event.Matches kind execution := by
  rw [Bool.and_eq_true, Subscription.admits_iff]
  cases kind with
  | none => exact ⟨fun ⟨_, he⟩ => ⟨nofun, he⟩, fun h => ⟨rfl, h.execution⟩⟩
  | some wanted =>
    rw [Option.map_some, Option.getD_some, beq_iff_eq]
    exact ⟨fun ⟨hk, he⟩ => ⟨fun _ h => Option.some.inj h ▸ hk, he⟩,
      fun h => ⟨h.kind wanted rfl, h.execution⟩⟩

instance (kind : Option EventKind) (execution : Option String) (event : Event) :
    Decidable (event.Matches kind execution) :=
  decidable_of_iff _ Event.matches_iff

namespace Bus

variable {capacity : Nat} {events : List Event}

theorem trimmed_zero (events : List Event) : trimmed 0 events = events := by
  unfold trimmed
  split
  · rfl
  · rfl

theorem trimmed_pos (h : 0 < capacity) (events : List Event) :
    trimmed capacity events = events.rtake capacity := by
  unfold trimmed List.rtake
  split
  · rename_i hfits
    have hnone : events.length - capacity = 0 := by omega
    rw [hnone, List.drop_zero]
  · rw [if_pos (by omega), Int.toNat_natCast]

theorem rtake_rtake_succ {α : Type} (n : Nat) (l : List α) :
    (l.rtake (n + 1)).rtake n = l.rtake n := by
  rw [List.rtake_eq_reverse_take_reverse, List.rtake_eq_reverse_take_reverse l (n + 1),
    List.reverse_reverse, List.take_take, Nat.min_eq_left (Nat.le_succ n),
    ← List.rtake_eq_reverse_take_reverse]

theorem trimmed_snoc (capacity : Nat) (events : List Event) (event : Event) :
    trimmed capacity (trimmed capacity events ++ [event]) = trimmed capacity (events ++ [event]) := by
  cases capacity with
  | zero =>
    rw [Nat.cast_zero, trimmed_zero, trimmed_zero, trimmed_zero]
  | succ n =>
    rw [trimmed_pos n.succ_pos, trimmed_pos n.succ_pos, trimmed_pos n.succ_pos,
      List.rtake_concat_succ, List.rtake_concat_succ, rtake_rtake_succ]

theorem recent_eq (bus : Bus) (kind : Option EventKind) (execution : Option String) (limit : Nat) :
    bus.recent kind execution limit =
      (bus.history.reverse.filter (·.Matches kind execution)).take limit := by
  have hfilter : (bus.history.reverse.filter fun event =>
      (kind.map (event.kind == ·)).getD true &&
        Subscription.admits execution event.executionId) =
      bus.history.reverse.filter (·.Matches kind execution) :=
    List.filter_congr fun event _ => Bool.eq_iff_iff.mpr
      (Event.matches_iff.trans decide_eq_true_iff.symm)
  rw [recent, hfilter, firstOf, if_neg (by omega), Int.toNat_natCast]

def tally (counts : Entries Nat) (event : Event) : Entries Nat :=
  counts.put event.kind.name ((counts.get? event.kind.name).getD 0 + 1)

theorem get?_foldl_tally (events : List Event) (counts : Entries Nat) (name : String) :
    (events.foldl tally counts).get? name =
      if events.countP (·.kind.name = name) = 0 then counts.get? name
      else some ((counts.get? name).getD 0 + events.countP (·.kind.name = name)) := by
  induction events generalizing counts with
  | nil => rfl
  | cons event rest ih =>
    rw [List.foldl_cons, ih, tally, Entries.get?_put]
    by_cases h : event.kind.name = name
    · subst h
      by_cases hrest : rest.countP (·.kind.name = event.kind.name) = 0
      · simp [hrest]
      · simp [hrest]
        omega
    · simp [h]

theorem nodup_foldl_tally (events : List Event) {counts : Entries Nat} (h : counts.keys.Nodup) :
    (events.foldl tally counts).keys.Nodup := by
  induction events generalizing counts with
  | nil => exact h
  | cons event rest ih => exact ih (Entries.nodup_put h _ _)

/-- What the events that a bus holds are counted by: each kind of which there are any, once. -/
theorem counts_eq (bus : Bus) :
    bus.counts.keys.Nodup ∧ ∀ name, bus.counts.get? name =
      if bus.history.countP (·.kind.name = name) = 0 then none
      else some (bus.history.countP (·.kind.name = name)) := by
  refine ⟨nodup_foldl_tally bus.history List.nodup_nil, fun name => ?_⟩
  have hget := get?_foldl_tally bus.history [] name
  rw [Entries.get?_nil, Option.getD_none, Nat.zero_add] at hget
  exact hget

def archive (bus : Bus) : Int × List Event := (bus.capacity, bus.history)

@[simp] theorem archive_grant (bus : Bus) : bus.grant.archive = bus.archive := by
  unfold grant
  split
  · split <;> rfl
  · rfl

@[simp] theorem archive_conclude (bus : Bus) (d : Delivery) :
    (bus.conclude d).archive = bus.archive :=
  archive_grant { bus with free := bus.free + 1 }

@[simp] theorem archive_observe (bus : Bus) (watch : Nat) (event : Event) :
    (bus.observe watch event).archive = bus.archive := by
  unfold observe
  split
  · rfl
  · dsimp only
    split <;> rfl

@[simp] theorem archive_endWatch (bus : Bus) (watch : Nat) :
    (bus.endWatch watch).archive = bus.archive := by
  unfold endWatch
  split
  · rfl
  · dsimp only
    split <;> rfl

@[simp] theorem archive_retire (bus : Bus) (number : Nat) :
    (bus.retire number).archive = bus.archive := by
  unfold retire
  dsimp only
  split <;> rfl

theorem archive_publish (bus : Bus) (event : Event) :
    (bus.publish event).archive =
      (bus.capacity, trimmed bus.capacity (bus.history ++ [event])) := by
  rw [publish_eq]
  rfl

end Bus

namespace Stage

variable {capacity slots : Nat} {stage : Stage}

/-- The history of a stage is what its capacity leaves of the events that were published. -/
def Recorded (capacity : Nat) (stage : Stage) : Prop :=
  stage.bus.archive = ((capacity : Int), Bus.trimmed capacity (publishedEvents stage.past))

theorem Recorded.of_same {stage' : Stage} (h : stage.Recorded capacity)
    (hb : stage'.bus.archive = stage.bus.archive)
    (hp : publishedEvents stage'.past = publishedEvents stage.past) : stage'.Recorded capacity := by
  rw [Recorded, hb, hp]
  exact h

theorem Recorded.publish {bus : Bus} {past : List Happening} {running running' : List Delivery}
    (h : Recorded capacity ⟨bus, running, past⟩) (event : Event) :
    Recorded capacity ⟨bus.publish event, running', .published event :: past⟩ := by
  obtain ⟨hcapacity, hhistory⟩ := Prod.mk.inj h
  rw [Recorded, Bus.archive_publish, hcapacity, hhistory, Bus.trimmed_snoc]
  rfl

theorem recorded_start (capacity slots : Nat) : (start capacity slots).Recorded capacity := by
  cases capacity with
  | zero => rfl
  | succ n => rfl

theorem Recorded.endWatch (h : stage.Recorded capacity) (watch : Nat) :
    (stage.endWatch watch).Recorded capacity := by
  unfold Stage.endWatch
  split
  · exact h
  · exact h.of_same (Bus.archive_endWatch _ _) rfl

theorem Recorded.take (h : stage.Recorded capacity) (entry : Agendum) :
    (stage.take entry).Recorded capacity := by
  cases entry with
  | begin d =>
    unfold Stage.take
    dsimp only
    split
    · exact h
    · exact h
  | granted d => exact h.of_same (Bus.archive_grant _) rfl
  | resume d => exact h
  | retire number => exact h.of_same (Bus.archive_retire _ _) rfl
  | alert watch turns =>
    cases turns with
    | zero => exact h.endWatch watch
    | succ turns => exact h
  | wake => exact h

theorem Recorded.go (h : stage.Recorded capacity) (d : Delivery) (rest : Reaction) :
    (stage.go d rest).Recorded capacity := by
  cases rest with
  | finish => exact h.of_same (Bus.archive_conclude _ _) rfl
  | fail error => exact h.of_same (Bus.archive_conclude _ _) rfl
  | hold gate next =>
    unfold Stage.go
    dsimp only
    split
    · exact h
    · exact h
  | tell v next => exact h
  | publish event next => exact Recorded.publish h event
  | unsubscribe id next => exact h
  | observe watch next => exact h.of_same (Bus.archive_observe _ _ _) rfl

theorem published_subscribed (stage : Stage) (bus : Bus) :
    publishedEvents (stage.subscribed bus).past = publishedEvents stage.past := by
  unfold subscribed
  cases bus.subscriptions.getLast? <;> rfl

theorem Recorded.after (h : stage.Recorded capacity) (act : Act) :
    (stage.after act).Recorded capacity := by
  -- Where no step names a lemma, the act leaves both the archive and the past as they are.
  cases act with
  | subscribe kinds flow node execution handler => exact h.of_same rfl (published_subscribed _ _)
  | unsubscribe id => exact h
  | publish event => exact Recorded.publish h event
  | openGate gate => exact h
  | watch kind execution node patience => exact h.of_same rfl (published_subscribed _ _)
  | await deliveries watch => exact h
  | giveUp watch => exact h.endWatch watch
  | take n =>
    unfold Stage.after
    dsimp only
    split
    · exact h
    · refine Recorded.take ?_ _
      exact h
  | go n =>
    unfold Stage.after
    dsimp only
    split
    · exact h
    · refine Recorded.go ?_ _ _
      exact h
  | turn n rest =>
    unfold Stage.after
    dsimp only
    split
    · exact h
    · exact h

theorem Recorded.run (h : stage.Recorded capacity) (acts : List Act) :
    (stage.run acts).Recorded capacity := by
  induction acts generalizing stage with
  | nil => exact h
  | cons act acts ih => exact ih (h.after act)

theorem history_run (capacity slots : Nat) (acts : List Act) :
    ((start capacity slots).run acts).bus.history =
      Bus.trimmed capacity (publishedEvents ((start capacity slots).run acts).past) :=
  congrArg Prod.snd ((recorded_start capacity slots).run acts)

theorem published_run (stage : Stage) (events : List Event) :
    publishedEvents (stage.run (events.map .publish)).past = publishedEvents stage.past ++ events := by
  induction events generalizing stage with
  | nil => exact (List.append_nil _).symm
  | cons event events ih =>
    rw [List.map_cons, run_cons, ih]
    exact List.append_assoc (publishedEvents stage.past) [event] events

/-- A bus without any room holds everything. -/
theorem history_roomless (slots : Nat) (acts : List Act) :
    ((start (0 : Nat) slots).run acts).bus.history =
      publishedEvents ((start (0 : Nat) slots).run acts).past := by
  rw [history_run, Nat.cast_zero, Bus.trimmed_zero]

/-- A bus with some room holds the last events that were published, as many as there is room for. What
it tells of the past, the latest first, and what it counts are these. -/
theorem history_bounded (capacity slots : Nat) (h : 0 < capacity) (acts : List Act) :
    let stage := (start capacity slots).run acts
    let events := publishedEvents stage.past
    let held := events.rtake capacity
    stage.bus.history = held ∧ held.length = min events.length capacity ∧
    (∀ kind execution (limit : Nat), stage.bus.recent kind execution limit =
      (held.reverse.filter (·.Matches kind execution)).take limit) ∧
    stage.bus.statistics.field? "total_events" = some (.int held.length) ∧
    ∃ byKind : Entries Value, stage.bus.statistics.field? "events_by_type" = some (.object byKind) ∧
      byKind.keys.Nodup ∧
      ∀ name, byKind.get? name =
        if held.countP (·.kind.name = name) = 0 then none
        else some (.int (held.countP (·.kind.name = name))) := by
  intro stage events held
  have hheld : stage.bus.history = held := by
    rw [history_run, Bus.trimmed_pos h]
  refine ⟨hheld, ?_, ?_, ?_, _, rfl, ?_, ?_⟩
  · simp only [held, List.rtake, List.length_drop]
    omega
  · intro kind execution limit
    rw [Bus.recent_eq, hheld]
  · rw [← hheld]
    rfl
  · rw [Entries.keys_mapValues]
    exact (Bus.counts_eq _).1
  · intro name
    rw [Entries.get?_mapValues, (Bus.counts_eq _).2, hheld]
    split <;> rfl

def nodesStarted (ids : List String) : List Event :=
  ids.map fun id => Event.nodeStarted none (some "run") (some id)

/-- Of three events two are held where there is room for two. -/
theorem history_two_of_three :
    0 < 2 ∧
      ((start (2 : Nat) 10).run ((nodesStarted ["a", "b", "c"]).map .publish)).bus.history =
        nodesStarted ["b", "c"] ∧
      ((start (2 : Nat) 10).run ((nodesStarted ["a", "b", "c"]).map .publish)).bus.recent none
        (some "run") (1 : Nat) = nodesStarted ["c"] := by
  obtain ⟨hheld, -, hrecent, -⟩ :=
    history_bounded 2 10 (by decide) ((nodesStarted ["a", "b", "c"]).map .publish)
  rw [published_run] at hheld
  exact ⟨by decide, hheld, hrecent none (some "run") 1⟩

/-- Where there is room for none, the one event that was published is held and told of. -/
theorem history_one_of_none :
    ((start (0 : Nat) 10).run ((nodesStarted ["a"]).map .publish)).bus.history ≠
        (nodesStarted ["a"]).rtake 0 ∧
      ((start (0 : Nat) 10).run ((nodesStarted ["a"]).map .publish)).bus.recent none none
        (100 : Nat) = nodesStarted ["a"] := by
  refine ⟨?_, rfl⟩
  rw [history_roomless, published_run, List.rtake_zero]
  exact List.cons_ne_nil _ _

end Stage

end FlowEngine
