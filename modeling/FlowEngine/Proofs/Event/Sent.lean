import Mathlib.Algebra.Order.Group.Multiset
import Mathlib.Data.List.Range
import Mathlib.Data.Multiset.UnionInter
import Mathlib.Tactic.Abel
import FlowEngine.Proofs.Event.Account

/-!
# What is sent to whom

What a subscription is to get is read off the past: the events that were published while it lasted
and that it wants. An account is sound if what was handed over and what is still under way is that
and nothing else, if the pending deliveries are those that are somewhere, and if every slot is
accounted for. Each step on accounts keeps all of this.
-/

namespace FlowEngine

open Relation (ReflTransGen)

/-- What a subscription asks for: one of its kinds of events, and each filter that is not empty. -/
structure Subscription.Wants (s : Subscription) (event : Event) : Prop where
  kind : event.kind ∈ s.kinds
  flow : ∀ id, s.flow = some id → id ≠ "" → event.flowId = some id
  node : ∀ id, s.node = some id → id ≠ "" → event.nodeId = some id
  execution : ∀ id, s.execution = some id → id ≠ "" → event.executionId = some id

theorem Subscription.admits_iff {filter id : Option String} :
    admits filter id = true ↔ ∀ wanted, filter = some wanted → wanted ≠ "" → id = some wanted := by
  cases filter with
  | none => simp [admits]
  | some wanted =>
    by_cases h : wanted = ""
    · simp [admits, h]
    · simp [admits, h, String.isEmpty_iff]

theorem Subscription.accepts_iff {s : Subscription} {event : Event} :
    s.accepts event = true ↔ s.Wants event := by
  simp only [accepts, Bool.and_eq_true, List.contains_iff_mem, admits_iff]
  exact ⟨fun ⟨⟨⟨hk, hf⟩, hn⟩, he⟩ => ⟨hk, hf, hn, he⟩,
    fun h => ⟨⟨⟨h.kind, h.flow⟩, h.node⟩, h.execution⟩⟩

instance (s : Subscription) (event : Event) : Decidable (s.Wants event) :=
  decidable_of_iff _ Subscription.accepts_iff

def made : List Happening → List Subscription
  | [] => []
  | .subscribed s :: earlier => s :: made earlier
  | .ended _ :: earlier => made earlier
  | .published _ :: earlier => made earlier

/-- Whether a subscription was made and has not been ended since. -/
def lasts (id : String) : List Happening → Bool
  | [] => false
  | .subscribed s :: earlier => s.id == id || lasts id earlier
  | .ended other :: earlier => other != id && lasts id earlier
  | .published _ :: earlier => lasts id earlier

/-- The events that were published while a subscription lasted, the latest first. -/
def heard (id : String) : List Happening → List Event
  | [] => []
  | .subscribed _ :: earlier => heard id earlier
  | .ended _ :: earlier => heard id earlier
  | .published event :: earlier =>
    if lasts id earlier then event :: heard id earlier else heard id earlier

theorem not_lasts {id : String} {past : List Happening} (h : ∀ s ∈ made past, s.id ≠ id) :
    lasts id past = false := by
  induction past with
  | nil => rfl
  | cons happening earlier ih =>
    cases happening with
    | subscribed s =>
      simp only [made, List.forall_mem_cons] at h
      simp [lasts, h.1, ih h.2]
    | ended other => simp [lasts, ih h]
    | published event => exact ih h

theorem heard_eq_nil {id : String} {past : List Happening} (h : ∀ s ∈ made past, s.id ≠ id) :
    heard id past = [] := by
  induction past with
  | nil => rfl
  | cons happening earlier ih =>
    cases happening with
    | subscribed s => exact ih fun t ht => h t (.tail _ ht)
    | ended other => exact ih h
    | published event =>
      have hn : lasts id earlier = false := not_lasts h
      simp [heard, hn, ih h]

def sentTo (id : String) (sent : Multiset (String × Event)) : Multiset Event :=
  (sent.filter (·.1 = id)).map (·.2)

@[simp]
theorem sentTo_add (id : String) (sent sent' : Multiset (String × Event)) :
    sentTo id (sent + sent') = sentTo id sent + sentTo id sent' := by
  simp [sentTo]

theorem sentTo_eq_zero {id : String} {sent : Multiset (String × Event)} (h : ∀ c ∈ sent, c.1 ≠ id) :
    sentTo id sent = 0 := by
  simp [sentTo, Multiset.filter_eq_nil.mpr h]

def Delivery.call (d : Delivery) : String × Event := (d.subscription, d.event)

theorem mem_deliveries {event : Event} {table : List Subscription} {number : Nat} {d : Delivery}
    (h : d ∈ deliveries event table number) :
    ∃ s ∈ table, d.subscription = s.id ∧ d.rest = s.handler d.event := by
  induction table generalizing number with
  | nil => simp [deliveries] at h
  | cons s table ih =>
    simp only [deliveries] at h
    split at h
    · obtain rfl | h := List.mem_cons.mp h
      · exact ⟨s, List.mem_cons_self, rfl, rfl⟩
      · obtain ⟨t, ht, h⟩ := ih h
        exact ⟨t, .tail _ ht, h⟩
    · obtain ⟨t, ht, h⟩ := ih h
      exact ⟨t, .tail _ ht, h⟩

theorem numbers_deliveries (event : Event) (table : List Subscription) (number : Nat) :
    (deliveries event table number).map (·.number) =
      List.range' number (deliveries event table number).length := by
  induction table generalizing number with
  | nil => rfl
  | cons s table ih =>
    simp only [deliveries]
    split
    · simp [List.range'_succ, ih]
    · exact ih number

theorem calls_deliveries (event : Event) (table : List Subscription) (number : Nat) :
    (deliveries event table number).map (·.call) =
      (table.filter (·.accepts event)).map fun s => (s.id, event) := by
  induction table generalizing number with
  | nil => rfl
  | cons s table ih =>
    by_cases h : s.accepts event = true
    · simp [deliveries, h, Delivery.call, ← ih (number + 1)]
    · simp [deliveries, h, ih number]

theorem filter_id {table : List Subscription} {s : Subscription} (hs : s ∈ table)
    (hids : (table.map (·.id)).Nodup) : table.filter (·.id = s.id) = [s] := by
  induction table with
  | nil => cases hs
  | cons t table ih =>
    rw [List.map_cons, List.nodup_cons] at hids
    obtain rfl | hs := List.mem_cons.mp hs
    · have hrest : ∀ t ∈ table, t.id ≠ s.id := fun t ht hid => hids.1 (hid ▸ List.mem_map_of_mem ht)
      simpa [List.filter_eq_nil_iff] using hrest
    · have hne : t.id ≠ s.id := fun hid => hids.1 (hid ▸ List.mem_map_of_mem hs)
      simpa [hne] using ih hs hids.2

theorem sentTo_deliveries {event : Event} {table : List Subscription} {s : Subscription}
    (number : Nat) (hs : s ∈ table) (hids : (table.map (·.id)).Nodup) :
    sentTo s.id ((deliveries event table number : Multiset Delivery).map (·.call)) =
      if s.accepts event then {event} else 0 := by
  have hself : (table.filter (·.accepts event)).filter (·.id = s.id) =
      [s].filter (·.accepts event) := by
    rw [List.filter_filter, ← filter_id hs hids, List.filter_filter]
    exact List.filter_congr fun t _ => Bool.and_comm _ _
  have hlist : (((deliveries event table number).map (·.call)).filter (·.1 = s.id)).map (·.2) =
      ((table.filter (·.accepts event)).filter (·.id = s.id)).map fun _ => event := by
    rw [calls_deliveries, List.filter_map, List.map_map]
    rfl
  rw [sentTo, Multiset.map_coe, Multiset.filter_coe, Multiset.map_coe, hlist, hself]
  by_cases h : s.accepts event = true <;> simp [h]

theorem sentTo_deliveries_of_not_mem {event : Event} {table : List Subscription} {id : String}
    (number : Nat) (h : ∀ s ∈ table, s.id ≠ id) :
    sentTo id ((deliveries event table number : Multiset Delivery).map (·.call)) = 0 := by
  refine sentTo_eq_zero fun c hc => ?_
  rw [Multiset.map_coe, calls_deliveries] at hc
  obtain ⟨s, hs, rfl⟩ := List.mem_map.mp hc
  exact h s (List.mem_of_mem_filter hs)

namespace Account

/-- What was handed over, or is under way to its handler. -/
def sent (a : Account) : Multiset (String × Event) := a.calls + a.waiting.map (·.call)

/-- The table agrees with the past, and so does what was sent. -/
structure Faithful (a : Account) : Prop where
  names : ∀ s ∈ made a.past, ∃ k ≤ a.subscribed, s.id = "sub_" ++ toString k
  distinct : ((made a.past).map (·.id)).Nodup
  table : ∀ s, s ∈ a.table ↔ s ∈ made a.past ∧ lasts s.id a.past = true
  listed : (a.table.map (·.id)).Nodup
  sent : ∀ s ∈ made a.past, sentTo s.id a.sent = (heard s.id a.past).filter s.accepts
  known : ∀ c ∈ a.sent, ∃ s ∈ made a.past, s.id = c.1
  handlers : ∀ d ∈ a.waiting, ∃ s ∈ made a.past, d.subscription = s.id ∧ d.rest = s.handler d.event

/-- Each number stands for one delivery, which is pending until it is retired. -/
structure Numbered (a : Account) : Prop where
  pending : a.pending = a.waiting.map (·.number) + a.inside + a.leaving
  nodup : a.pending.Nodup
  lt : ∀ n ∈ a.pending, n < a.dispatched

/-- Each slot is free, or given to a delivery that is on its way in, or taken. -/
def Slotted (slots : Nat) (a : Account) : Prop := a.free + a.granted + a.inside.card = slots

variable {a b : Account}

theorem Step.slotted {slots : Nat} (h : Step a b) (ha : Slotted slots a) : Slotted slots b := by
  cases h <;> simp only [Slotted, Multiset.card_cons] at * <;> omega

theorem Numbered.publish (ha : Numbered a) (event : Event) :
    Numbered { a with
      waiting := a.waiting + a.due event
      pending := a.pending + (a.due event).map (·.number)
      dispatched := a.dispatched + (a.due event).card
      past := .published event :: a.past } := by
  have hnumbers : (a.due event).map (·.number) =
      List.range' a.dispatched (a.due event).card := by
    rw [due, Multiset.map_coe, numbers_deliveries, Multiset.coe_card]
  have hnew : ∀ n ∈ (a.due event).map (·.number),
      a.dispatched ≤ n ∧ n < a.dispatched + (a.due event).card := by
    intro n hn
    rw [hnumbers, Multiset.mem_coe] at hn
    exact List.mem_range'_1.mp hn
  refine ⟨?_, ?_, ?_⟩
  · simp only [ha.pending, Multiset.map_add]
    abel
  · rw [Multiset.nodup_add]
    refine ⟨ha.nodup, ?_, ?_⟩
    · rw [hnumbers]
      exact List.nodup_range'
    · refine Multiset.disjoint_left.mpr fun hn hn' => ?_
      have := ha.lt _ hn
      have := hnew _ hn'
      omega
  · intro n hn
    obtain hn | hn := Multiset.mem_add.mp hn
    · exact Nat.lt_add_right _ (ha.lt n hn)
    · exact (hnew n hn).2

theorem Numbered.retire {number : Nat} (ha : Numbered { a with leaving := number ::ₘ a.leaving }) :
    Numbered { a with pending := a.pending.filter (· != number) } := by
  obtain ⟨hpending, hnodup, hlt⟩ := ha
  refine ⟨?_, hnodup.filter _, fun n hn => hlt n (Multiset.mem_of_mem_filter hn)⟩
  simp only [Multiset.add_cons] at hpending
  rw [hpending, Multiset.nodup_cons] at hnodup
  simp only [hpending]
  rw [Multiset.filter_cons_of_neg _ (by simp), Multiset.filter_eq_self]
  intro n hn
  exact bne_iff_ne.mpr fun h => hnodup.1 (h ▸ hn)

theorem Step.numbered (h : Step a b) (ha : Numbered a) : Numbered b := by
  cases h with
  | publish _ event => exact ha.publish event
  | retire a number => exact ha.retire
  | subscribe _ s hid => exact ⟨ha.pending, ha.nodup, ha.lt⟩
  | unsubscribe _ id => exact ⟨ha.pending, ha.nodup, ha.lt⟩
  | grant a => exact ⟨ha.pending, ha.nodup, ha.lt⟩
  | begin a d =>
    exact ⟨by simpa [Multiset.cons_add, Multiset.add_cons] using ha.pending, ha.nodup, ha.lt⟩
  | enter a d =>
    exact ⟨by simpa [Multiset.cons_add, Multiset.add_cons] using ha.pending, ha.nodup, ha.lt⟩
  | leave a number =>
    exact ⟨by simpa [Multiset.cons_add, Multiset.add_cons] using ha.pending, ha.nodup, ha.lt⟩

/-- A delivery that only comes nearer to its handler, or moves on behind it, changes nothing in what
was sent. -/
theorem Faithful.of_same (ha : Faithful a) (htable : b.table = a.table)
    (hsubscribed : b.subscribed = a.subscribed) (hpast : b.past = a.past) (hsent : b.sent = a.sent)
    (hwaiting : ∀ d ∈ b.waiting, d ∈ a.waiting) : Faithful b where
  names := by rw [hpast, hsubscribed]; exact ha.names
  distinct := by rw [hpast]; exact ha.distinct
  table := by rw [hpast, htable]; exact ha.table
  listed := by rw [htable]; exact ha.listed
  sent := by rw [hpast, hsent]; exact ha.sent
  known := by rw [hpast, hsent]; exact ha.known
  handlers := by rw [hpast]; exact fun d hd => ha.handlers d (hwaiting d hd)

theorem eq_of_name_eq {i j : Nat} (h : "sub_" ++ toString i = "sub_" ++ toString j) : i = j := by
  have hdigits := congrArg (fun name => Nat.ofDigitChars 10 name.toList 0)
    ((String.append_right_inj "sub_").mp h)
  simpa using hdigits

theorem Faithful.fresh (ha : Faithful a) {s : Subscription}
    (hs : s.id = "sub_" ++ toString (a.subscribed + 1)) : ∀ t ∈ made a.past, t.id ≠ s.id := by
  intro t ht hid
  obtain ⟨k, hk, htid⟩ := ha.names t ht
  have := eq_of_name_eq (htid ▸ hid.trans hs)
  omega

theorem Faithful.subscribe (ha : Faithful a) {s : Subscription}
    (hs : s.id = "sub_" ++ toString (a.subscribed + 1)) :
    Faithful { a with
      table := a.table ++ [s]
      subscribed := a.subscribed + 1
      past := .subscribed s :: a.past } where
  names := by
    rintro t (_ | ⟨_, ht⟩)
    · exact ⟨a.subscribed + 1, le_rfl, hs⟩
    · obtain ⟨k, hk, hid⟩ := ha.names t ht
      exact ⟨k, by simp only; omega, hid⟩
  distinct := by
    refine List.nodup_cons.mpr ⟨?_, ha.distinct⟩
    rw [List.mem_map]
    rintro ⟨t, ht, hid⟩
    exact ha.fresh hs t ht hid
  table := by
    intro t
    rw [List.mem_append, List.mem_singleton, ha.table, made, List.mem_cons, lasts, Bool.or_eq_true,
      beq_iff_eq]
    constructor
    · rintro (⟨ht, hl⟩ | rfl)
      · exact ⟨.inr ht, .inr hl⟩
      · exact ⟨.inl rfl, .inl rfl⟩
    · rintro ⟨rfl | ht, hl⟩
      · exact .inr rfl
      · exact .inl ⟨ht, hl.resolve_left fun hid => ha.fresh hs t ht hid.symm⟩
  listed := by
    rw [List.map_append, List.nodup_append]
    refine ⟨ha.listed, List.nodup_singleton _, ?_⟩
    simp only [List.map_cons, List.map_nil, List.mem_singleton, List.mem_map, ne_eq]
    rintro _ ⟨t, ht, rfl⟩ _ rfl
    exact ha.fresh hs t ((ha.table t).mp ht).1
  sent := by
    rintro t (_ | ⟨_, ht⟩)
    · rw [heard, heard_eq_nil (ha.fresh hs)]
      refine sentTo_eq_zero fun c hc hcid => ?_
      obtain ⟨t, ht, hid⟩ := ha.known c hc
      exact ha.fresh hs t ht (hid.trans hcid)
    · exact ha.sent t ht
  known := fun c hc =>
    have ⟨t, ht, hid⟩ := ha.known c hc
    ⟨t, .tail _ ht, hid⟩
  handlers := fun d hd =>
    have ⟨t, ht, h⟩ := ha.handlers d hd
    ⟨t, .tail _ ht, h⟩

theorem Faithful.unsubscribe (ha : Faithful a) (id : String) :
    Faithful { a with table := a.table.filter (·.id != id), past := .ended id :: a.past } where
  names := ha.names
  distinct := ha.distinct
  table := by
    intro s
    rw [List.mem_filter, ha.table, lasts, Bool.and_eq_true, bne_comm, made]
    tauto
  listed := ha.listed.sublist (List.filter_sublist.map _)
  sent := ha.sent
  known := ha.known
  handlers := ha.handlers

theorem Faithful.publish (ha : Faithful a) (event : Event) :
    Faithful { a with
      waiting := a.waiting + a.due event
      pending := a.pending + (a.due event).map (·.number)
      dispatched := a.dispatched + (a.due event).card
      past := .published event :: a.past } where
  names := ha.names
  distinct := ha.distinct
  table := ha.table
  listed := ha.listed
  sent := by
    intro s hs
    have hadds : sentTo s.id ((a.due event).map (·.call)) =
        if lasts s.id a.past && s.accepts event then {event} else 0 := by
      unfold due
      by_cases hl : lasts s.id a.past = true
      · simpa [hl] using sentTo_deliveries a.dispatched ((ha.table s).mpr ⟨hs, hl⟩) ha.listed
      · simpa [hl] using sentTo_deliveries_of_not_mem a.dispatched fun t ht hid =>
          hl (by rw [← hid]; exact ((ha.table t).mp ht).2)
    have hsent := ha.sent s hs
    simp only [Account.sent, Multiset.map_add, ← add_assoc] at hsent ⊢
    rw [sentTo_add, hsent, hadds, heard]
    by_cases hl : lasts s.id a.past = true
    · by_cases haccepts : s.accepts event = true
      · simp only [hl, haccepts, Bool.and_self, if_true, List.filter_cons_of_pos]
        rw [add_comm, Multiset.singleton_add, Multiset.cons_coe]
      · simp [hl, haccepts]
    · simp [hl]
  known := by
    intro c hc
    simp only [Account.sent, Multiset.map_add, ← add_assoc] at hc
    obtain hc | hc := Multiset.mem_add.mp hc
    · exact ha.known c hc
    · obtain ⟨d, hd, rfl⟩ := Multiset.mem_map.mp hc
      obtain ⟨s, hs, hid, -⟩ := mem_deliveries (Multiset.mem_coe.mp hd)
      exact ⟨s, ((ha.table s).mp hs).1, hid.symm⟩
  handlers := by
    intro d hd
    obtain hd | hd := Multiset.mem_add.mp hd
    · exact ha.handlers d hd
    · obtain ⟨s, hs, h⟩ := mem_deliveries (Multiset.mem_coe.mp hd)
      exact ⟨s, ((ha.table s).mp hs).1, h⟩

theorem Step.faithful (h : Step a b) (ha : Faithful a) : Faithful b := by
  cases h with
  | subscribe _ s hid => exact ha.subscribe hid
  | unsubscribe _ id => exact ha.unsubscribe id
  | publish _ event => exact ha.publish event
  | begin a d =>
    refine ha.of_same rfl rfl rfl ?_ fun _ => Multiset.mem_cons_of_mem
    simp [sent, Delivery.call]
  | enter a d =>
    refine ha.of_same rfl rfl rfl ?_ fun _ => Multiset.mem_cons_of_mem
    simp [sent, Delivery.call]
  | grant a => exact ha.of_same rfl rfl rfl rfl fun _ => id
  | leave a number => exact ha.of_same rfl rfl rfl rfl fun _ => id
  | retire a number => exact ha.of_same rfl rfl rfl rfl fun _ => id

end Account

end FlowEngine
