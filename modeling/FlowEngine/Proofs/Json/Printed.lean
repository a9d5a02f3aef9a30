import FlowEngine.Json.Printer
import FlowEngine.Proofs.Json.Complete

/-!
# Text that is printed

The text of a value without doubles and instants denotes that value, if its integers have not too many
digits and no object has a key twice. So it is read back, whatever follows it. What is read where a
list or an object begins is a list or an object.
-/

namespace FlowEngine

inductive Value.IsCollection : Value → Prop where
  | list (items : List Value) : IsCollection (.list items)
  | object (fields : Entries Value) : IsCollection (.object fields)

/-- What JSON text holds exactly: integers up to the limit of digits, and objects without a key
twice. -/
inductive Value.Printable : Value → Prop where
  | null : Printable .null
  | bool (b : Bool) : Printable (.bool b)
  | int {n : Int} (h : n.natAbs < 10 ^ digitLimit) : Printable (.int n)
  | text (s : String) : Printable (.text s)
  | list {items : List Value} (h : ∀ v ∈ items, Printable v) : Printable (.list items)
  | object {fields : Entries Value} (hkeys : fields.keys.Nodup)
      (h : ∀ entry ∈ fields, Printable entry.2) : Printable (.object fields)

namespace Json

theorem isSpaces_nil : IsSpaces [] := nofun

theorem isSpaces_space : IsSpaces [' '] := by
  intro c hc
  rw [List.mem_singleton.mp hc]
  rfl

section Quote

variable {s t : List Char} {n : Nat}

theorem hexValue?_digitChar {d : Nat} (h : d < 16) : hexValue? (Nat.digitChar d) = some d := by
  have hall : ∀ d < 16, hexValue? (Nat.digitChar d) = some d := by decide
  exact hall d h

theorem hex4?_hex4 (h : n < 0x10000) :
    hex4? (Nat.digitChar (n / 4096 % 16)) (Nat.digitChar (n / 256 % 16))
      (Nat.digitChar (n / 16 % 16)) (Nat.digitChar (n % 16)) = some n := by
  have hdigit (m : Nat) : hexValue? (Nat.digitChar (m % 16)) = some (m % 16) :=
    hexValue?_digitChar (Nat.mod_lt m (by decide))
  rw [hex4?, hdigit, hdigit, hdigit, hdigit]
  simp only [Option.bind_eq_bind, Option.bind_some, Option.some.injEq]
  omega

theorem Spells.unitEscape (h : Spells s t) {c : Char} (hc : c.toNat < 0x10000) :
    Spells (unitEscape c.toNat ++ s) (c :: t) := by
  have hvalid : c.toNat < 0xD800 ∨ 0xDFFF < c.toNat ∧ c.toNat < 0x110000 := c.valid
  have hunit := Spells.unit (hex4?_hex4 hc) (by simp [isHighUnit]; omega)
    (by simp [isLowUnit]; omega) h
  rwa [Char.ofNat_toNat] at hunit

theorem Spells.pairEscape (h : Spells s t) {c : Char} (hc : 0x10000 ≤ c.toNat) :
    Spells (Json.unitEscape (0xD800 + (c.toNat - 0x10000) / 0x400) ++
      (Json.unitEscape (0xDC00 + (c.toNat - 0x10000) % 0x400) ++ s)) (c :: t) := by
  have hvalid : c.toNat < 0xD800 ∨ 0xDFFF < c.toNat ∧ c.toNat < 0x110000 := c.valid
  have hpair := Spells.pair
    (hex4?_hex4 (n := 0xD800 + (c.toNat - 0x10000) / 0x400) (by omega))
    (hex4?_hex4 (n := 0xDC00 + (c.toNat - 0x10000) % 0x400) (by omega))
    (by simp [isHighUnit]; omega) (by simp [isLowUnit]; omega) h
  have hback : 0x10000 + (0xD800 + (c.toNat - 0x10000) / 0x400 - 0xD800) * 0x400 +
      (0xDC00 + (c.toNat - 0x10000) % 0x400 - 0xDC00) = c.toNat := by omega
  rwa [hback, Char.ofNat_toNat] at hpair

theorem Spells.escapeChar (h : Spells s t) (c : Char) : Spells (escapeChar c ++ s) (c :: t) := by
  unfold Json.escapeChar
  split_ifs with hquote hslash hfeed hreturn htab hback hform
  · exact beq_iff_eq.mp hquote ▸ .escape '"' '"' (by decide) h
  · exact beq_iff_eq.mp hslash ▸ .escape '\\' '\\' (by decide) h
  · exact beq_iff_eq.mp hfeed ▸ .escape 'n' '\n' (by decide) h
  · exact beq_iff_eq.mp hreturn ▸ .escape 'r' '\r' (by decide) h
  · exact beq_iff_eq.mp htab ▸ .escape 't' '\t' (by decide) h
  · exact beq_iff_eq.mp hback ▸ .escape 'b' '\x08' (by decide) h
  · exact beq_iff_eq.mp hform ▸ .escape 'f' '\x0c' (by decide) h
  · dsimp only
    split_ifs with hplain hbasic
    · simp only [Bool.and_eq_true, decide_eq_true_eq] at hplain
      exact .raw c hplain.1 (by simpa using hquote) (by simpa using hslash) h
    · exact h.unitEscape hbasic
    · rw [List.append_assoc]
      exact h.pairEscape (Nat.le_of_not_lt hbasic)

theorem spells_escaped (t : List Char) : Spells (t.flatMap escapeChar) t := by
  induction t with
  | nil => exact .nil
  | cons c t ih =>
    rw [List.flatMap_cons]
    exact ih.escapeChar c

end Quote

section Digits

theorem toDigits_leading (n : Nat) (h : (Nat.toDigits 10 n).head? = some '0') :
    Nat.toDigits 10 n = ['0'] := by
  induction n using Nat.strongRecOn with
  | ind n ih =>
    by_cases hsmall : n < 10
    · have hzero : ∀ n < 10, (Nat.toDigits 10 n).head? = some '0' → Nat.toDigits 10 n = ['0'] := by
        decide
      exact hzero n hsmall h
    · have hsplit := Nat.toDigits_of_base_le (b := 10) (n := n) (by decide) (by omega)
      obtain ⟨c, more, hfront⟩ : ∃ c more, Nat.toDigits 10 (n / 10) = c :: more :=
        List.exists_cons_of_ne_nil Nat.toDigits_ne_nil
      rw [hsplit, hfront] at h
      have hzero := ih (n / 10) (by omega) (by rw [hfront]; exact h)
      have hvalue : Nat.ofDigitChars 10 (Nat.toDigits 10 (n / 10)) 0 = n / 10 :=
        Nat.ofDigitChars_ten_toDigits
      rw [hzero] at hvalue
      have hnone : (0 : Nat) = n / 10 := hvalue
      omega

theorem isWhole_toDigits (n : Nat) : IsWhole (Nat.toDigits 10 n) where
  ne_nil := Nat.toDigits_ne_nil
  digits := fun _ hc => Nat.isDigit_of_mem_toDigits (by decide) (by decide) hc
  leading := toDigits_leading n

theorem denotes_intChars {n : Int} (h : n.natAbs < 10 ^ digitLimit) :
    Denotes (intChars n) (.value (.int n)) := by
  have hlength : (Nat.toDigits 10 n.natAbs).length ≤ digitLimit :=
    (Nat.length_toDigits_le_iff (by decide) (by decide)).mpr h
  have hvalue : Numeral.natOfDigits (Nat.toDigits 10 n.natAbs) = n.natAbs :=
    Nat.ofDigitChars_ten_toDigits
  have hdenotes := Denotes.integer (decide (n < 0)) (isWhole_toDigits n.natAbs) hlength
  rw [hvalue] at hdenotes
  unfold intChars
  by_cases hn : n < 0
  · have hback : -(n.natAbs : Int) = n := by omega
    rw [decide_eq_true hn, if_pos rfl, hback] at hdenotes
    rw [if_pos hn]
    exact hdenotes
  · have hback : (n.natAbs : Int) = n := by omega
    rw [decide_eq_false hn, if_neg (by decide), hback] at hdenotes
    rw [if_neg hn]
    exact hdenotes

end Digits

variable {v : Value} {items : List Value} {fields : Entries Value}

theorem denotes_itemChars (hne : items ≠ []) (h : ∀ v ∈ items, Denotes (chars v) (.value v)) :
    Denotes (itemChars items ++ [']']) (.items items) := by
  induction items with
  | nil => exact absurd rfl hne
  | cons v rest ih =>
    obtain ⟨hv, hrest⟩ := List.forall_mem_cons.mp h
    cases rest with
    | nil => exact .lastItem hv isSpaces_nil
    | cons w rest =>
      have hmore := ih (List.cons_ne_nil _ _) hrest
      have hitem := Denotes.item hv isSpaces_nil isSpaces_space hmore
      simpa [itemChars] using hitem

theorem denotes_fieldChars (hne : fields ≠ [])
    (h : ∀ entry ∈ fields, Denotes (chars entry.2) (.value entry.2)) :
    Denotes (fieldChars fields ++ ['\x7d']) (.fields fields) := by
  induction fields with
  | nil => exact absurd rfl hne
  | cons entry rest ih =>
    obtain ⟨key, v⟩ := entry
    obtain ⟨hv, hrest⟩ := List.forall_mem_cons.mp h
    have hfield := Denotes.field (spells_escaped key.toList) isSpaces_nil isSpaces_space hv
    rw [String.ofList_toList] at hfield
    cases rest with
    | nil => simpa [fieldChars, quote] using Denotes.lastField hfield isSpaces_nil
    | cons other rest =>
      have hmore := ih (List.cons_ne_nil _ _) hrest
      have hfields := Denotes.moreFields hfield isSpaces_nil isSpaces_space hmore
      simpa [fieldChars, quote] using hfields

theorem denotes_chars (h : v.Printable) : Denotes (chars v) (.value v) := by
  induction h with
  | null => exact .null
  | bool b =>
    cases b with
    | false => exact .no
    | true => exact .yes
  | int h => exact denotes_intChars h
  | text s =>
    have htext := Denotes.text (spells_escaped s.toList)
    rwa [String.ofList_toList] at htext
  | @list items h ih =>
    by_cases hne : items = []
    · subst hne
      exact .emptyList isSpaces_nil
    · exact Denotes.list (w := []) isSpaces_nil (denotes_itemChars hne ih)
  | @object fields hkeys h ih =>
    have hkept : Entries.ofPairs fields = fields :=
      Entries.putAll_eq_append hkeys (by simp [Entries.keys])
    by_cases hne : fields = []
    · subst hne
      exact .emptyObject isSpaces_nil
    · have hobject := Denotes.object (w := []) isSpaces_nil (denotes_fieldChars hne ih)
      rwa [hkept] at hobject

section Collections

variable {s rest : List Char} {m : Meaning} {rules : Rules} {steps room : Nat} {c : Char}

def openings : List Char := ['[', '\x7b']

def closings : List Char := [']', '\x7d']

theorem Denotes.closes (h : Denotes s m) :
    (∃ vs, m = .items vs) ∨ (∃ fs, m = .fields fs) → ∃ init, ∃ c ∈ closings, s = init ++ [c] := by
  induction h with
  | lastItem h hw => exact fun _ => ⟨_, ']', by decide, (List.append_assoc _ _ _).symm⟩
  | lastField h hw => exact fun _ => ⟨_, '\x7d', by decide, (List.append_assoc _ _ _).symm⟩
  | @item s w w' s' v vs h hw hw' h' ih ih' =>
    intro _
    obtain ⟨init, c, hc, rfl⟩ := ih' (.inl ⟨vs, rfl⟩)
    exact ⟨s ++ (w ++ ',' :: (w' ++ init)), c, hc, by simp⟩
  | @moreFields s w w' s' name v fs h hw hw' h' ih ih' =>
    intro _
    obtain ⟨init, c, hc, rfl⟩ := ih' (.inr ⟨fs, rfl⟩)
    exact ⟨s ++ (w ++ ',' :: (w' ++ init)), c, hc, by simp⟩
  | _ => rintro (⟨_, ⟨⟩⟩ | ⟨_, ⟨⟩⟩)

theorem Denotes.enclosed (h : Denotes s (.value v)) (hv : v.IsCollection) :
    ∃ a ∈ openings, ∃ inner, ∃ c ∈ closings, s = a :: (inner ++ [c]) := by
  cases h with
  | emptyList hw => exact ⟨'[', by decide, _, ']', by decide, rfl⟩
  | emptyObject hw => exact ⟨'\x7b', by decide, _, '\x7d', by decide, rfl⟩
  | @list w s vs hw h =>
    obtain ⟨init, c, hc, rfl⟩ := h.closes (.inl ⟨vs, rfl⟩)
    exact ⟨'[', by decide, w ++ init, c, hc, by simp⟩
  | @object w s fs hw h =>
    obtain ⟨init, c, hc, rfl⟩ := h.closes (.inr ⟨fs, rfl⟩)
    exact ⟨'\x7b', by decide, w ++ init, c, hc, by simp⟩
  | _ => cases hv

/-- A list or an object is read whatever follows it. -/
theorem Denotes.readFront (h : Denotes s (.value v)) (hv : v.IsCollection) (rest : List Char) :
    readFront .lenient (s ++ rest) = .ok (v, rest) := by
  unfold Json.readFront
  cases h with
  | @emptyList w hw =>
    have hend : Json.skipSpace (w ++ [']'] ++ rest) = ']' :: rest := by
      rw [List.append_assoc]
      exact hw.skipSpace_mark (by decide) rest
    exact value_emptyList hend
  | @emptyObject w hw =>
    have hend : Json.skipSpace (w ++ ['\x7d'] ++ rest) = '\x7d' :: rest := by
      rw [List.append_assoc]
      exact hw.skipSpace_mark (by decide) rest
    exact value_emptyObject hend
  | @list w s vs hw h =>
    have hspace : Json.skipSpace (w ++ s ++ rest) = s ++ rest := by
      rw [List.append_assoc]
      exact h.skipSpace hw rest
    have hreads := h.reads ('[' :: (w ++ s) ++ rest).length ('[' :: (w ++ s) ++ rest).length rest
      (by simp; omega) (by simp; omega)
    obtain ⟨c, more, rfl, -, hc⟩ := h.starts
    exact (value_list hspace (ne_of_mem_of_not_mem (by decide) hc).symm).trans
      (congrArg (Except.map fun read => (Value.list read.1, read.2)) hreads)
  | @object w s fs hw h =>
    have hspace : Json.skipSpace (w ++ s ++ rest) = s ++ rest := by
      rw [List.append_assoc]
      exact h.skipSpace hw rest
    have hreads := h.reads ('\x7b' :: (w ++ s) ++ rest).length
      ('\x7b' :: (w ++ s) ++ rest).length rest (by simp; omega) (by simp; omega)
    obtain ⟨c, more, rfl, -, hc⟩ := h.starts
    exact (value_object hspace (ne_of_mem_of_not_mem (by decide) hc).symm).trans
      (congrArg (Except.map fun read => (Value.object (Entries.ofPairs read.1), read.2)) hreads)
  | _ => cases hv

theorem isCollection_of_value (hc : c ∈ openings)
    (h : value rules (steps + 1) room (c :: s) = .ok (v, rest)) : v.IsCollection := by
  obtain rfl | rfl : c = '[' ∨ c = '\x7b' := by simpa [openings] using hc
  · unfold value at h
    simp only at h
    split at h
    · cases h
      exact .list []
    · cases h
    · rename_i room _
      cases hitems : items rules steps room (skipSpace s) with
      | error e => rw [hitems] at h; cases h
      | ok read => rw [hitems] at h; cases h; exact .list _
  · unfold value at h
    simp only at h
    split at h
    · cases h
      exact .object []
    · cases h
    · rename_i room _
      cases hfields : fields rules steps room (skipSpace s) with
      | error e => rw [hfields] at h; cases h
      | ok read => rw [hfields] at h; cases h; exact .object _

theorem isCollection_of_readFront (hc : c ∈ openings)
    (h : readFront rules (c :: s) = .ok (v, rest)) : v.IsCollection :=
  isCollection_of_value hc h

end Collections

end Json

end FlowEngine
