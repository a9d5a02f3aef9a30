/-!
# Maps that keep the order of their keys

A map is a list of pairs in the order in which its keys were first written. Writing a key again
changes its value and leaves its place. The lemmas say what a write does to every look-up and to the
keys.
-/

namespace FlowEngine

/-- Pairs of key and value, in the order in which the keys were first written. -/
abbrev Entries (α : Type) := List (String × α)

namespace Entries

variable {α β : Type}

def get? : Entries α → String → Option α
  | [], _ => none
  | (k, v) :: rest, key => if k = key then some v else get? rest key

/-- Writes a key: in its place when it is there, at the end otherwise. -/
def put : Entries α → String → α → Entries α
  | [], key, value => [(key, value)]
  | (k, v) :: rest, key, value =>
    if k = key then (k, value) :: rest else (k, v) :: put rest key value

def putAll (entries : Entries α) (more : List (String × α)) : Entries α :=
  more.foldl (fun acc (k, v) => acc.put k v) entries

def ofPairs (pairs : List (String × α)) : Entries α := putAll [] pairs

def erase (entries : Entries α) (key : String) : Entries α := entries.filter (·.1 ≠ key)

def keys (entries : Entries α) : List String := entries.map (·.1)

def has (entries : Entries α) (key : String) : Bool := (entries.get? key).isSome

def mapValues (f : α → β) (entries : Entries α) : Entries β := entries.map fun (k, v) => (k, f v)

@[simp] theorem get?_nil (key : String) : get? ([] : Entries α) key = none := rfl

theorem get?_put (entries : Entries α) (key : String) (value : α) (other : String) :
    (entries.put key value).get? other = if key = other then some value else entries.get? other := by
  induction entries with
  | nil => simp [put, get?]
  | cons pair rest ih =>
    obtain ⟨k, v⟩ := pair
    by_cases h : k = key
    · by_cases h' : key = other <;> simp [put, get?, h, h']
    · by_cases h' : k = other
      · subst h'
        simp [put, get?, h, Ne.symm h]
      · simp [put, get?, h, h', ih]

@[simp] theorem get?_put_self (entries : Entries α) (key : String) (value : α) :
    (entries.put key value).get? key = some value := by
  simp [get?_put]

theorem put_put (entries : Entries α) (key : String) (first second : α) :
    (entries.put key first).put key second = entries.put key second := by
  induction entries with
  | nil => simp [put]
  | cons pair rest ih =>
    obtain ⟨k, v⟩ := pair
    by_cases h : k = key
    · simp [put, h]
    · simp [put, h, ih]

theorem keys_put (entries : Entries α) (key : String) (value : α) :
    (entries.put key value).keys =
      if key ∈ entries.keys then entries.keys else entries.keys ++ [key] := by
  induction entries with
  | nil => simp [put, keys]
  | cons pair rest ih =>
    obtain ⟨k, v⟩ := pair
    by_cases h : k = key
    · simp [put, keys, h]
    · have h' : ¬ key = k := fun e => h e.symm
      simp only [keys] at ih
      by_cases hm : key ∈ List.map (fun x => x.1) rest
      · simp [put, keys, h, ih, hm]
      · simp [put, keys, h, ih, hm, h']

theorem put_of_not_mem {entries : Entries α} {key : String} (h : key ∉ entries.keys) (value : α) :
    entries.put key value = entries ++ [(key, value)] := by
  induction entries with
  | nil => rfl
  | cons pair rest ih =>
    obtain ⟨k, v⟩ := pair
    simp only [keys, List.map_cons, List.mem_cons, not_or] at h
    simp [put, Ne.symm h.1, ih h.2]

theorem get?_isSome_iff (entries : Entries α) (key : String) :
    (entries.get? key).isSome = true ↔ key ∈ entries.keys := by
  induction entries with
  | nil => simp [keys]
  | cons pair rest ih =>
    obtain ⟨k, v⟩ := pair
    by_cases h : k = key
    · simp [get?, keys, h]
    · have h' : ¬ key = k := fun e => h e.symm
      simp only [keys] at ih
      simp [get?, keys, h, h', ih]

theorem putAll_eq_append {entries more : Entries α} (h : more.keys.Nodup)
    (hnew : ∀ key ∈ more.keys, key ∉ entries.keys) : entries.putAll more = entries ++ more := by
  induction more generalizing entries with
  | nil => simp [putAll]
  | cons pair rest ih =>
    obtain ⟨k, v⟩ := pair
    obtain ⟨hk, hrest⟩ := List.nodup_cons.mp h
    have hput : entries.put k v = entries ++ [(k, v)] :=
      put_of_not_mem (hnew k List.mem_cons_self) v
    have hall : putAll entries ((k, v) :: rest) = putAll (entries.put k v) rest := rfl
    rw [hall, hput, ih hrest, List.append_assoc, List.singleton_append]
    intro key hkey hm
    simp only [keys, List.map_append, List.mem_append, List.map_cons, List.map_nil,
      List.mem_singleton] at hm
    rcases hm with hm | rfl
    · exact hnew key (List.mem_cons_of_mem _ hkey) hm
    · exact hk hkey

theorem get?_putAll (entries : Entries α) (more : List (String × α)) (key : String) :
    (entries.putAll more).get? key =
      ((more.reverse.find? fun pair => pair.1 = key).map (·.2)).or (entries.get? key) := by
  induction more generalizing entries with
  | nil => simp [putAll]
  | cons pair rest ih =>
    obtain ⟨k, v⟩ := pair
    have hput : putAll entries ((k, v) :: rest) = putAll (entries.put k v) rest := rfl
    rw [hput, ih, get?_put, List.reverse_cons, List.find?_append]
    by_cases h : k = key
    · cases rest.reverse.find? fun pair => pair.1 = key <;> simp [h]
    · simp [h]

theorem get?_putAll_of_not_mem {more : Entries α} {key : String} (h : key ∉ more.keys)
    (entries : Entries α) : (entries.putAll more).get? key = entries.get? key := by
  have hnone : (more.reverse.find? fun pair => pair.1 = key) = none := by
    rw [List.find?_eq_none]
    intro pair hp he
    exact h (List.mem_map.mpr ⟨pair, List.mem_reverse.mp hp, of_decide_eq_true he⟩)
  rw [get?_putAll, hnone]
  rfl

theorem get?_putAll_map (entries : Entries α) (f : String → α) {ids : List String} {id : String}
    (h : id ∈ ids) : (entries.putAll (ids.map fun id => (id, f id))).get? id = some (f id) := by
  have hsome : ((ids.map fun id => (id, f id)).reverse.find? fun pair => pair.1 = id).isSome = true :=
    List.find?_isSome.mpr ⟨(id, f id), List.mem_reverse.mpr (List.mem_map_of_mem h), by simp⟩
  obtain ⟨pair, hp⟩ := Option.isSome_iff_exists.mp hsome
  have hm := List.mem_of_find?_eq_some hp
  have hk := List.find?_some hp
  simp only [List.mem_reverse, List.mem_map] at hm
  obtain ⟨other, -, rfl⟩ := hm
  have he : other = id := by simpa using hk
  rw [get?_putAll, hp, he]
  rfl

theorem get?_mapValues (f : α → β) (entries : Entries α) (key : String) :
    (entries.mapValues f).get? key = (entries.get? key).map f := by
  induction entries with
  | nil => rfl
  | cons pair rest ih =>
    obtain ⟨k, v⟩ := pair
    by_cases h : k = key
    · simp [mapValues, get?, h]
    · simpa [mapValues, get?, h] using ih

theorem keys_mapValues (f : α → β) (entries : Entries α) :
    (entries.mapValues f).keys = entries.keys := by
  simp [keys, mapValues, Function.comp_def]

theorem put_map {name : String → String} (hname : ∀ k l, name k = name l → k = l) (f : α → β)
    (entries : Entries α) (key : String) (value : α) :
    (entries.put key value).map (fun pair => (name pair.1, f pair.2)) =
      put (entries.map fun pair => (name pair.1, f pair.2)) (name key) (f value) := by
  induction entries with
  | nil => rfl
  | cons pair rest ih =>
    obtain ⟨k, v⟩ := pair
    by_cases h : k = key
    · simp [put, h]
    · have hne : name k ≠ name key := fun heq => h (hname k key heq)
      simpa [put, h, hne] using ih

theorem get?_map {name : String → String} (hname : ∀ k l, name k = name l → k = l) (f : α → β)
    (entries : Entries α) (key : String) :
    get? (entries.map fun pair => (name pair.1, f pair.2)) (name key) = (entries.get? key).map f := by
  induction entries with
  | nil => rfl
  | cons pair rest ih =>
    obtain ⟨k, v⟩ := pair
    by_cases h : k = key
    · simp [get?, h]
    · have hne : name k ≠ name key := fun heq => h (hname k key heq)
      simpa [get?, h, hne] using ih

theorem mem_put {entries : Entries α} {key : String} {value : α} {pair : String × α}
    (h : pair ∈ entries.put key value) : pair = (key, value) ∨ pair ∈ entries := by
  induction entries with
  | nil => exact Or.inl (List.mem_singleton.mp h)
  | cons first rest ih =>
    obtain ⟨k, v⟩ := first
    by_cases hk : k = key
    · rw [put, if_pos hk, hk] at h
      exact (List.mem_cons.mp h).imp_right (List.mem_cons_of_mem _)
    · rw [put, if_neg hk] at h
      obtain rfl | h := List.mem_cons.mp h
      · exact Or.inr List.mem_cons_self
      · exact (ih h).imp_right (List.mem_cons_of_mem _)

theorem mem_of_get? {entries : Entries α} {key : String} {value : α}
    (h : entries.get? key = some value) : (key, value) ∈ entries := by
  induction entries with
  | nil => cases h
  | cons first rest ih =>
    obtain ⟨k, v⟩ := first
    by_cases hk : k = key
    · rw [get?, if_pos hk] at h
      cases h
      exact hk ▸ List.mem_cons_self
    · rw [get?, if_neg hk] at h
      exact List.mem_cons_of_mem _ (ih h)

theorem get?_of_mem {entries : Entries α} (hd : entries.keys.Nodup) {pair : String × α}
    (h : pair ∈ entries) : entries.get? pair.1 = some pair.2 := by
  induction entries with
  | nil => cases h
  | cons first rest ih =>
    obtain ⟨k, v⟩ := first
    obtain ⟨hk, hrest⟩ := List.nodup_cons.mp hd
    obtain rfl | h := List.mem_cons.mp h
    · simp [get?]
    · have hm : pair.1 ∈ keys rest := List.mem_map_of_mem h
      have hne : k ≠ pair.1 := fun he => hk (he ▸ hm)
      rw [get?, if_neg hne, ih hrest h]

theorem nodup_put {entries : Entries α} (h : entries.keys.Nodup) (key : String) (value : α) :
    (entries.put key value).keys.Nodup := by
  rw [keys_put]
  split
  · exact h
  · rename_i hm
    rw [List.nodup_append]
    refine ⟨h, by simp, ?_⟩
    intro other ho last hl hsame
    rw [List.mem_singleton.mp hl] at hsame
    exact hm (hsame ▸ ho)

theorem nodup_keys_putAll {entries : Entries α} (h : entries.keys.Nodup)
    (pairs : List (String × α)) :
    (entries.putAll pairs).keys.Nodup := by
  induction pairs generalizing entries with
  | nil => exact h
  | cons pair rest ih => exact ih (nodup_put h pair.1 pair.2)

theorem nodup_keys_ofPairs (pairs : List (String × α)) : (ofPairs pairs).keys.Nodup :=
  @nodup_keys_putAll α [] List.nodup_nil pairs

theorem get?_ofPairs (pairs : List (String × α)) (key : String) :
    (ofPairs pairs).get? key = ((pairs.filter fun pair => pair.1 = key).getLast?).map (·.2) := by
  rw [ofPairs, get?_putAll, get?_nil, Option.or_none, ← List.head?_filter, List.filter_reverse,
    List.head?_reverse]

theorem mem_keys_ofPairs {pairs : List (String × α)} {key : String} :
    key ∈ (ofPairs pairs).keys ↔ ∃ pair ∈ pairs, pair.1 = key := by
  rw [← get?_isSome_iff, get?_ofPairs, Option.isSome_map, List.getLast?_isSome,
    Ne, List.filter_eq_nil_iff]
  simp

theorem filter_key {entries : Entries α} (h : entries.keys.Nodup) (key : String) :
    (entries.filter fun pair => pair.1 = key).map (·.2) = (entries.get? key).toList := by
  induction entries with
  | nil => rfl
  | cons pair rest ih =>
    obtain ⟨k, v⟩ := pair
    obtain ⟨hk, hrest⟩ := List.nodup_cons.mp h
    by_cases hkey : k = key
    · subst hkey
      have hnone : get? rest k = none := by
        rw [← Option.not_isSome_iff_eq_none, get?_isSome_iff]
        exact hk
      rw [List.filter_cons_of_pos (by simp), List.map_cons, ih hrest, hnone, get?, if_pos rfl]
      rfl
    · rw [List.filter_cons_of_neg (by simpa using hkey), ih hrest, get?, if_neg hkey]

theorem get?_putAll_of_nodup {entries more : Entries α} (h : more.keys.Nodup) (key : String) :
    (entries.putAll more).get? key = (more.get? key).or (entries.get? key) := by
  induction more generalizing entries with
  | nil => rfl
  | cons pair rest ih =>
    obtain ⟨k, v⟩ := pair
    obtain ⟨hk, hrest⟩ := List.nodup_cons.mp h
    have hput : putAll entries ((k, v) :: rest) = putAll (entries.put k v) rest := rfl
    rw [hput, ih hrest, get?_put]
    by_cases hkey : k = key
    · have hnone : get? rest key = none := by
        rw [Option.eq_none_iff_forall_ne_some]
        intro value hv
        have hm : key ∈ keys rest := by
          rw [← get?_isSome_iff, hv]
          rfl
        exact hk (hkey ▸ hm)
      simp [get?, hkey, hnone]
    · simp [get?, hkey]

end Entries

end FlowEngine
