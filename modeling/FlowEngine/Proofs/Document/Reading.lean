import Mathlib.Data.List.Basic
import Mathlib.Data.List.Forall2
import FlowEngine.Document.Checked
import FlowEngine.Document.Written

/-!
# What it takes to fit

What can stand in a JSON text is plain: no instants, no double that is no number, and no key twice in
an object. A plain document is its own written form.

A record fits exactly when all of its fields do, and a list when all of its items do. A document whose
first keys are the first names of the fields, followed by keys that are no such name, is read field by
field under these names, and what follows them is left over.
-/

namespace FlowEngine.Value

mutual

/-- Whether a value can stand in a JSON text as it is. -/
def isPlain : Value → Bool
  | .instant _ => false
  | .double d => d.isFinite
  | .list items => arePlain items
  | .object fields => decide (Entries.keys fields).Nodup && fieldsPlain fields
  | _ => true

def arePlain : List Value → Bool
  | [] => true
  | v :: rest => v.isPlain && arePlain rest

def fieldsPlain : List (String × Value) → Bool
  | [] => true
  | (_, v) :: rest => v.isPlain && fieldsPlain rest

end

variable {v : Value} {items : List Value} {fields : Entries Value} {key : String}

theorem arePlain_iff : arePlain items = true ↔ ∀ v ∈ items, v.isPlain = true := by
  induction items with
  | nil => simp [arePlain]
  | cons v rest ih => simp [arePlain, ih]

theorem fieldsPlain_iff : fieldsPlain fields = true ↔ ∀ pair ∈ fields, pair.2.isPlain = true := by
  induction fields with
  | nil => simp [fieldsPlain]
  | cons pair rest ih => simp [fieldsPlain, ih]

theorem isPlain_object :
    (Value.object fields).isPlain = true ↔ fields.keys.Nodup ∧ ∀ pair ∈ fields, pair.2.isPlain = true := by
  simp [isPlain, fieldsPlain_iff]

theorem ofText?_isPlain (s : Option String) : (ofText? s).isPlain = true := by
  cases s <;> rfl

theorem isPlain_of_get? (h : ∀ pair ∈ fields, pair.2.isPlain = true) (hv : fields.get? key = some v) :
    v.isPlain = true :=
  h _ (Entries.mem_of_get? hv)

end FlowEngine.Value

namespace FlowEngine.Document

open Value

mutual

theorem form_of_isPlain : {v : Value} → v.isPlain = true → form v = v
  | .null, _ | .bool _, _ | .int _, _ | .text _, _ => rfl
  | .double _, h => by simp only [isPlain] at h; simp [form, scalarForm, h]
  | .instant _, h => by simp [isPlain] at h
  | .list items, h => by
    simp only [isPlain] at h
    rw [form, formItems_of_arePlain h]
  | .object fields, h => by
    simp only [isPlain, Bool.and_eq_true] at h
    rw [form, formFields_of_fieldsPlain h.2]

theorem formItems_of_arePlain : {items : List Value} → arePlain items = true → formItems items = items
  | [], _ => rfl
  | v :: rest, h => by
    simp only [arePlain, Bool.and_eq_true] at h
    rw [formItems, form_of_isPlain h.1, formItems_of_arePlain h.2]

theorem formFields_of_fieldsPlain : {fields : List (String × Value)} → fieldsPlain fields = true →
    formFields fields = fields
  | [], _ => rfl
  | (k, v) :: rest, h => by
    simp only [fieldsPlain, Bool.and_eq_true] at h
    rw [formFields, form_of_isPlain h.1, formFields_of_fieldsPlain h.2]

end

theorem form_object {fields : Entries Value} (h : ∀ pair ∈ fields, pair.2.isPlain = true) :
    form (.object fields) = .object fields := by
  rw [form, formFields_of_fieldsPlain (fieldsPlain_iff.mpr h)]

end FlowEngine.Document

namespace FlowEngine.Document

variable {α β : Type} {names : List String} {doc base more : Entries Value} {name : String} {v : Value}
variable {fields : List (List String)} {read : Value → Checked α} {fallback a : α}

namespace Checked

@[simp] theorem map_eq_fits {f : α → β} {x : Checked α} {b : β} :
    f <$> x = .fits b ↔ ∃ a, x = .fits a ∧ f a = b := by
  cases x <;> simp [Functor.map, map]

@[simp] theorem seq_eq_fits {f : Checked (α → β)} {x : Checked α} {b : β} :
    f <*> x = .fits b ↔ ∃ g, f = .fits g ∧ ∃ a, x = .fits a ∧ g a = b := by
  cases f <;> cases x <;> simp [Seq.seq, app]

@[simp] theorem under_eq_fits {step : Step} {x : Checked α} {a : α} :
    x.under step = .fits a ↔ x = .fits a := by
  cases x <;> simp [under]

@[simp] theorem fail_ne_fits {misfit : Misfit} {a : α} : (fail misfit : Checked α) ≠ .fits a := by
  simp [fail]

theorem all_eq_fits {xs : List (Checked α)} {as : List α} :
    all xs = .fits as ↔ List.Forall₂ (fun x a => x = .fits a) xs as := by
  induction xs generalizing as with
  | nil => cases as <;> simp [all]
  | cons x rest ih =>
    have hcons : all (x :: rest) = ((List.cons <$> x : Checked _) <*> all rest) := rfl
    rw [hcons, seq_eq_fits]
    constructor
    · intro h
      obtain ⟨g, hg, rest', hrest, rfl⟩ := h
      obtain ⟨a, ha, rfl⟩ := map_eq_fits.mp hg
      exact .cons ha (ih.mp hrest)
    · intro h
      cases h with
      | cons ha hrest => exact ⟨_, map_eq_fits.mpr ⟨_, ha, rfl⟩, _, ih.mpr hrest, rfl⟩

end Checked

theorem listOf_eq_fits {items : List Value} {as : List α} :
    listOf read (.list items) = .fits as ↔ List.Forall₂ (fun v a => read v = .fits a) items as := by
  rw [listOf, Checked.all_eq_fits, List.forall₂_iff_get, List.forall₂_iff_get]
  simp

theorem listOf_fits_cases {as : List α} (h : listOf read v = .fits as) :
    ∃ items, v = .list items ∧ ∀ a ∈ as, ∃ item ∈ items, read item = .fits a := by
  cases v with
  | list items =>
    refine ⟨items, rfl, ?_⟩
    have hitems := listOf_eq_fits.mp h
    clear h
    induction hitems with
    | nil => simp
    | cons hread _ ih =>
      intro a ha
      rcases List.mem_cons.mp ha with rfl | ha
      · exact ⟨_, List.mem_cons_self, hread⟩
      · obtain ⟨item, hm, hitem⟩ := ih a ha
        exact ⟨item, List.mem_cons_of_mem _ hm, hitem⟩
  | _ => simp [listOf] at h

theorem record_fits_cases {read : Entries Value → Checked α} (h : record read v = .fits a) :
    ∃ fields, v = .object fields ∧ read fields = .fits a := by
  cases v with
  | object fields => exact ⟨fields, rfl, h⟩
  | _ => simp [record] at h

theorem object_fits_cases {fields : Entries Value} (h : object v = .fits fields) : v = .object fields := by
  cases v with
  | object fields => exact congrArg Value.object (Checked.fits.inj h)
  | _ => simp [object] at h

theorem nullable_ofText? (s : Option String) : nullable text (Value.ofText? s) = .fits s := by
  cases s <;> rfl

theorem find?_of_get? (h : doc.get? name = some v) : find? (name :: names) doc = some (name, v) := by
  simp [find?, h]

theorem find?_mem (h : find? names doc = some (name, v)) : name ∈ names ∧ doc.get? name = some v := by
  obtain ⟨other, hm, hother⟩ := List.exists_of_findSome?_eq_some h
  obtain ⟨w, hw, he⟩ := Option.map_eq_some_iff.mp hother
  cases he
  exact ⟨hm, hw⟩

theorem required_of_get? (h : doc.get? name = some v) :
    required (name :: names) read doc = .fits a ↔ read v = .fits a := by
  simp [required, find?_of_get? h]

theorem optional_of_get? (h : doc.get? name = some v) :
    optional (name :: names) fallback read doc = .fits a ↔ read v = .fits a := by
  simp [optional, find?_of_get? h]

theorem optional_fits_cases (h : optional names fallback read doc = .fits a) :
    a = fallback ∨ ∃ name v, find? names doc = some (name, v) ∧ read v = .fits a := by
  cases hfind : find? names doc with
  | none =>
    simp only [optional, hfind, Checked.fits.injEq] at h
    exact .inl h.symm
  | some found => exact .inr ⟨found.1, found.2, rfl, by simpa [optional, hfind] using h⟩

theorem extras_sublist : (extras fields doc).Sublist doc := List.filter_sublist

theorem mem_extras_keys {key : String} :
    key ∈ (extras fields doc).keys ↔
      key ∈ doc.keys ∧ ∀ names ∈ fields, ∀ v, find? names doc ≠ some (key, v) := by
  simp only [extras, Entries.keys, List.mem_map, List.mem_filter, Bool.not_eq_true',
    List.contains_eq_mem, decide_eq_false_iff_not, List.mem_filterMap, Option.map_eq_some_iff]
  constructor
  · intro h
    obtain ⟨pair, ⟨hm, hfree⟩, rfl⟩ := h
    exact ⟨⟨pair, hm, rfl⟩, fun names hn v hv => hfree ⟨names, hn, (pair.1, v), hv, rfl⟩⟩
  · intro h
    obtain ⟨⟨pair, hm, rfl⟩, hfree⟩ := h
    refine ⟨pair, ⟨hm, ?_⟩, rfl⟩
    rintro ⟨names, hn, found, hfound, hkey⟩
    exact hfree names hn found.2 (by rw [hfound, ← hkey])

/-- What is left over is under no first name of a field: a field takes its first name whenever the
document has it. -/
theorem head_not_mem_extras (h : name :: names ∈ fields) : name ∉ (extras fields doc).keys := by
  intro hm
  obtain ⟨hkey, hfree⟩ := mem_extras_keys.mp hm
  obtain ⟨v, hv⟩ := Option.isSome_iff_exists.mp ((Entries.get?_isSome_iff doc name).mpr hkey)
  exact hfree _ h v (find?_of_get? hv)

/-- The keys of a map are the first names of the fields of a record. -/
structure Heads (fields : List (List String)) (base : Entries Value) : Prop where
  written : ∀ names ∈ fields, ∃ name rest, names = name :: rest ∧ name ∈ base.keys
  named : ∀ key ∈ base.keys, ∃ rest, key :: rest ∈ fields

theorem Heads.not_mem_extras {key : String} (h : Heads fields base)
    (hkey : key ∈ (extras fields doc).keys) : key ∉ base.keys := by
  intro hm
  obtain ⟨rest, hrest⟩ := h.named key hm
  exact head_not_mem_extras hrest hkey

theorem Heads.putAll_extras (h : Heads fields base) (hdoc : doc.keys.Nodup) :
    base.putAll (extras fields doc) = base ++ extras fields doc :=
  Entries.putAll_eq_append (hdoc.sublist (extras_sublist.map _)) fun _ => h.not_mem_extras

theorem Heads.extras_append (h : Heads fields base) (hmore : ∀ key ∈ more.keys, key ∉ base.keys) :
    extras fields (base ++ more) = more := by
  have hget : ∀ key ∈ base.keys, ∃ v, Entries.get? (base ++ more) key = some v := by
    intro key hkey
    rw [← Option.isSome_iff_exists, Entries.get?_isSome_iff]
    simp only [Entries.keys, List.map_append, List.mem_append]
    exact .inl hkey
  have htaken : ∀ key, ((fields.filterMap fun names => (find? names (base ++ more)).map (·.1)).contains
      key) = true ↔ key ∈ base.keys := by
    intro key
    simp only [List.contains_eq_mem, decide_eq_true_eq, List.mem_filterMap, Option.map_eq_some_iff]
    constructor
    · intro hm
      obtain ⟨names, hn, found, hfound, rfl⟩ := hm
      obtain ⟨name, rest, rfl, hname⟩ := h.written names hn
      obtain ⟨v, hv⟩ := hget name hname
      rw [find?_of_get? hv] at hfound
      cases hfound
      exact hname
    · intro hm
      obtain ⟨rest, hrest⟩ := h.named key hm
      obtain ⟨v, hv⟩ := hget key hm
      exact ⟨_, hrest, (key, v), find?_of_get? hv, rfl⟩
  have hnone : ∀ pair ∈ base, ¬ pair.1 ∉ base.keys := by
    intro pair hp hnot
    exact hnot (List.mem_map_of_mem hp)
  have hall : ∀ pair ∈ more, pair.1 ∉ base.keys := fun pair hp => hmore _ (List.mem_map_of_mem hp)
  have hextras : extras fields (base ++ more) =
      (base ++ more).filter fun pair => decide (pair.1 ∉ base.keys) := by
    refine List.filter_congr ?_
    intro pair _
    rw [Bool.eq_iff_iff, Bool.not_eq_true', ← Bool.not_eq_true, htaken]
    simp
  rw [hextras, List.filter_append, List.filter_eq_nil_iff.mpr (by simpa using hnone),
    List.filter_eq_self.mpr (by simpa using hall), List.nil_append]

theorem Heads.extras_again (h : Heads fields base) :
    extras fields (base ++ extras fields doc) = extras fields doc :=
  h.extras_append fun _ => h.not_mem_extras

end FlowEngine.Document
