import FlowEngine.Data.Entries
import Mathlib.Data.List.Induction

/-!
# The latest entry under a key

A map that is written item by item, in the order of a list, has under each key what the last item
with an entry there has.
-/

namespace FlowEngine

variable {α β : Type}

/-- What the last item with an entry under a key has there. -/
def Latest (entry : α → String → β → Prop) (items : List α) (key : String) (value : β) : Prop :=
  ∃ front item back, items = front ++ item :: back ∧ entry item key value ∧
    ∀ later ∈ back, ∀ other, ¬ entry later key other

section Latest

variable {entry : α → String → β → Prop} {items : List α} {item : α} {key : String} {value : β}

theorem not_latest_nil : ¬ Latest entry [] key value := by
  rintro ⟨front, item, back, h, -⟩
  simp at h

theorem latest_snoc :
    Latest entry (items ++ [item]) key value ↔
      entry item key value ∨ (∀ other, ¬ entry item key other) ∧ Latest entry items key value := by
  constructor
  · rintro ⟨front, found, back, h, he, hl⟩
    rcases List.eq_nil_or_concat back with rfl | ⟨back, last, rfl⟩
    · obtain ⟨rfl, hlast⟩ := List.append_inj' h rfl
      cases hlast
      exact Or.inl he
    · rw [List.concat_eq_append, ← List.cons_append, ← List.append_assoc] at h
      obtain ⟨rfl, hlast⟩ := List.append_inj' h rfl
      cases hlast
      refine Or.inr ⟨hl item (by simp), front, found, back, rfl, he, ?_⟩
      exact fun later hm => hl later (by simp [hm])
  · rintro (he | ⟨hn, front, found, back, rfl, he, hl⟩)
    · exact ⟨items, item, [], rfl, he, by simp⟩
    · refine ⟨front, found, back ++ [item], by simp, he, ?_⟩
      intro later hm
      rcases List.mem_append.mp hm with hb | hi
      · exact hl later hb
      · exact List.mem_singleton.mp hi ▸ hn

theorem exists_latest_iff : (∃ value, Latest entry items key value) ↔
    ∃ item ∈ items, ∃ value, entry item key value := by
  constructor
  · rintro ⟨value, front, item, back, rfl, he, -⟩
    exact ⟨item, by simp, value, he⟩
  · induction items using List.reverseRecOn with
    | nil => simp
    | append_singleton items item ih =>
      rintro ⟨found, hm, value, he⟩
      by_cases hi : ∃ value, entry item key value
      · exact hi.imp fun value he => latest_snoc.mpr (Or.inl he)
      · have hn : ∀ other, ¬ entry item key other := not_exists.mp hi
        rcases List.mem_append.mp hm with hb | hs
        · obtain ⟨value, hl⟩ := ih ⟨found, hb, value, he⟩
          exact ⟨value, latest_snoc.mpr (Or.inr ⟨hn, hl⟩)⟩
        · cases List.mem_singleton.mp hs
          exact absurd he (hn value)

theorem latest_filter (p : α → Bool)
    (h : ∀ item ∈ items, p item = false → ∀ other, ¬ entry item key other) :
    Latest entry (items.filter p) key value ↔ Latest entry items key value := by
  induction items using List.reverseRecOn with
  | nil => rfl
  | append_singleton items item ih =>
    have hfront := ih fun item hm => h item (List.mem_append_left _ hm)
    rw [List.filter_append, latest_snoc]
    cases hp : p item with
    | true => rw [List.filter_cons_of_pos hp, List.filter_nil, latest_snoc, hfront]
    | false =>
      have hn := h item (by simp) hp
      simp [hp, hfront, hn]

theorem latest_congr {entry' : α → String → β → Prop}
    (h : ∀ item ∈ items, ∀ value, entry item key value ↔ entry' item key value) (value : β) :
    Latest entry items key value ↔ Latest entry' items key value := by
  induction items using List.reverseRecOn with
  | nil => exact iff_of_false not_latest_nil not_latest_nil
  | append_singleton items last ih =>
    have hlast := h last (by simp)
    rw [latest_snoc, latest_snoc, ih fun item hm => h item (List.mem_append_left _ hm), hlast value]
    simp only [hlast]

theorem latest_cons (h : ∀ other, ¬ entry item key other) :
    Latest entry (item :: items) key value ↔ Latest entry items key value := by
  induction items using List.reverseRecOn with
  | nil =>
    rw [← List.nil_append [item], latest_snoc]
    simp [h]
  | append_singleton items last ih => rw [← List.cons_append, latest_snoc, latest_snoc, ih]

end Latest

/-- A map that has under each key what the last item with an entry there has. -/
def Entries.Shows (entries : Entries β) (entry : α → String → β → Prop) (items : List α) : Prop :=
  ∀ key value, entries.get? key = some value ↔ Latest entry items key value

namespace Entries

variable {entries : Entries β} {entry : α → String → β → Prop} {items : List α} {item : α}

theorem Shows.mem_keys_iff (h : entries.Shows entry items) {key : String} :
    key ∈ entries.keys ↔ ∃ item ∈ items, ∃ value, entry item key value := by
  rw [← get?_isSome_iff, Option.isSome_iff_exists]
  exact (exists_congr fun value => h key value).trans exists_latest_iff

theorem shows_nil : Shows [] entry [] :=
  fun _ _ => iff_of_false (by simp) not_latest_nil

theorem Shows.put {key : String} {value : β} (h : entries.Shows entry items)
    (he : ∀ key' value', entry item key' value' ↔ key = key' ∧ value = value') :
    (entries.put key value).Shows entry (items ++ [item]) := by
  intro key' value'
  rw [get?_put, latest_snoc, he, ← h key' value']
  by_cases hk : key = key'
  · simp [hk, he]
  · simp [hk, he]

theorem Shows.skip (h : entries.Shows entry items) (he : ∀ key value, ¬ entry item key value) :
    entries.Shows entry (items ++ [item]) := by
  intro key value
  rw [latest_snoc, ← h key value]
  simp [he]

end Entries

end FlowEngine
