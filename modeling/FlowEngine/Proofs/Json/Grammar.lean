import FlowEngine.Proofs.Json.Overlong

/-!
# JSON text

What a text denotes is said by a grammar, form by form, without any reader: white space between the
values, escapes and raw characters in texts, integers up to the limit of digits. A text that denotes a
value is read as that value, whatever follows it, and is outside of quotes at its end.
-/

namespace FlowEngine.Json

def IsSpaces (s : List Char) : Prop := ∀ c ∈ s, isSpace c = true

/-- The letters that stand behind a backslash, and what they stand for. -/
def escapes : List (Char × Char) :=
  [('"', '"'), ('\\', '\\'), ('/', '/'), ('b', '\x08'), ('f', '\x0c'), ('n', '\n'), ('r', '\r'),
    ('t', '\t')]

/-- What may stand between quotes, and the characters it stands for. A character beyond the basic plane
stands there raw or as a pair of units. -/
inductive Spells : List Char → List Char → Prop where
  | nil : Spells [] []
  | raw {s t : List Char} (c : Char) (hc : 32 ≤ c.toNat) (hq : c ≠ '"') (hb : c ≠ '\\')
      (h : Spells s t) : Spells (c :: s) (c :: t)
  | escape {s t : List Char} (c d : Char) (hc : (c, d) ∈ escapes) (h : Spells s t) :
      Spells ('\\' :: c :: s) (d :: t)
  | unit {s t : List Char} {a b c d : Char} {n : Nat} (hn : hex4? a b c d = some n)
      (hh : isHighUnit n = false) (hl : isLowUnit n = false) (h : Spells s t) :
      Spells ('\\' :: 'u' :: a :: b :: c :: d :: s) (Char.ofNat n :: t)
  | pair {s t : List Char} {a b c d a' b' c' d' : Char} {n m : Nat} (hn : hex4? a b c d = some n)
      (hm : hex4? a' b' c' d' = some m) (hh : isHighUnit n = true) (hl : isLowUnit m = true)
      (h : Spells s t) :
      Spells ('\\' :: 'u' :: a :: b :: c :: d :: '\\' :: 'u' :: a' :: b' :: c' :: d' :: s)
        (Char.ofNat (0x10000 + (n - 0xD800) * 0x400 + (m - 0xDC00)) :: t)

/-- Digits of which the first is a zero only if it is the only one. -/
structure IsWhole (s : List Char) : Prop where
  ne_nil : s ≠ []
  digits : ∀ c ∈ s, c.isDigit = true
  leading : s.head? = some '0' → s = ['0']

inductive IsFraction : List Char → Prop where
  | absent : IsFraction []
  | present {digits : List Char} (hne : digits ≠ []) (hd : ∀ c ∈ digits, c.isDigit = true) :
      IsFraction ('.' :: digits)

/-- A letter with digits, before which a sign may stand, or nothing. -/
inductive IsExponent : List Char → Prop where
  | absent : IsExponent []
  | present {letter : Char} {sign digits : List Char} (hl : letter = 'e' ∨ letter = 'E')
      (hs : sign = [] ∨ sign = ['+'] ∨ sign = ['-']) (hne : digits ≠ [])
      (hd : ∀ c ∈ digits, c.isDigit = true) : IsExponent (letter :: (sign ++ digits))

def signed (negative : Bool) (s : List Char) : List Char := if negative then '-' :: s else s

/-- What a piece of text can stand for. -/
inductive Meaning where
  | value (v : Value)
  /-- The items of a list, up to its end. -/
  | items (vs : List Value)
  | field (name : String) (v : Value)
  | fields (fs : List (String × Value))

/-- What a text denotes. Of equal names in an object the last one counts. -/
inductive Denotes : List Char → Meaning → Prop where
  | null : Denotes ['n', 'u', 'l', 'l'] (.value .null)
  | yes : Denotes ['t', 'r', 'u', 'e'] (.value (.bool true))
  | no : Denotes ['f', 'a', 'l', 's', 'e'] (.value (.bool false))
  | nan : Denotes ['N', 'a', 'N'] (.value (.double .nan))
  | infinity (negative : Bool) :
      Denotes (signed negative ['I', 'n', 'f', 'i', 'n', 'i', 't', 'y'])
        (.value (.double (.infinite negative)))
  | integer {whole : List Char} (negative : Bool) (hw : IsWhole whole)
      (hl : whole.length ≤ digitLimit) :
      Denotes (signed negative whole)
        (.value (.int (if negative then -(Numeral.natOfDigits whole : Int)
          else Numeral.natOfDigits whole)))
  | decimal {whole fraction exponent : List Char} {d : Double} (negative : Bool) (hw : IsWhole whole)
      (hf : IsFraction fraction) (he : IsExponent exponent) (hne : fraction ++ exponent ≠ [])
      (hd : Numeral.double? (signed negative (whole ++ (fraction ++ exponent))) = some d) :
      Denotes (signed negative (whole ++ (fraction ++ exponent))) (.value (.double d))
  | text {s t : List Char} (h : Spells s t) :
      Denotes ('"' :: (s ++ ['"'])) (.value (.text (String.ofList t)))
  | emptyList {w : List Char} (hw : IsSpaces w) : Denotes ('[' :: (w ++ [']'])) (.value (.list []))
  | list {w s : List Char} {vs : List Value} (hw : IsSpaces w) (h : Denotes s (.items vs)) :
      Denotes ('[' :: (w ++ s)) (.value (.list vs))
  | emptyObject {w : List Char} (hw : IsSpaces w) :
      Denotes ('\x7b' :: (w ++ ['\x7d'])) (.value (.object []))
  | object {w s : List Char} {fs : List (String × Value)} (hw : IsSpaces w)
      (h : Denotes s (.fields fs)) :
      Denotes ('\x7b' :: (w ++ s)) (.value (.object (Entries.ofPairs fs)))
  | lastItem {s w : List Char} {v : Value} (h : Denotes s (.value v)) (hw : IsSpaces w) :
      Denotes (s ++ (w ++ [']'])) (.items [v])
  | item {s w w' s' : List Char} {v : Value} {vs : List Value} (h : Denotes s (.value v))
      (hw : IsSpaces w) (hw' : IsSpaces w') (h' : Denotes s' (.items vs)) :
      Denotes (s ++ (w ++ ',' :: (w' ++ s'))) (.items (v :: vs))
  | field {k t w w' s : List Char} {v : Value} (hk : Spells k t) (hw : IsSpaces w)
      (hw' : IsSpaces w') (h : Denotes s (.value v)) :
      Denotes ('"' :: (k ++ '"' :: (w ++ ':' :: (w' ++ s)))) (.field (String.ofList t) v)
  | lastField {s w : List Char} {name : String} {v : Value} (h : Denotes s (.field name v))
      (hw : IsSpaces w) : Denotes (s ++ (w ++ ['\x7d'])) (.fields [(name, v)])
  | moreFields {s w w' s' : List Char} {name : String} {v : Value} {fs : List (String × Value)}
      (h : Denotes s (.field name v)) (hw : IsSpaces w) (hw' : IsSpaces w')
      (h' : Denotes s' (.fields fs)) :
      Denotes (s ++ (w ++ ',' :: (w' ++ s'))) (.fields ((name, v) :: fs))

/-- A text of one value, with white space around it. -/
def IsText (s : List Char) (v : Value) : Prop :=
  ∃ w body w', s = w ++ (body ++ w') ∧ IsSpaces w ∧ IsSpaces w' ∧ Denotes body (.value v)

section Quoting

variable {s t w : List Char} {m : Meaning}

theorem IsSpaces.after (h : IsSpaces w) : Quoting.outside.after w = .outside :=
  Quoting.after_bare fun c hc => bare_of_isSpace (h c hc)

theorem after_digits (h : ∀ c ∈ s, c.isDigit = true) : Quoting.outside.after s = .outside :=
  Quoting.after_bare fun c hc => bare_of_isDigit (h c hc)

theorem after_signed (negative : Bool) (s : List Char) :
    Quoting.outside.after (signed negative s) = Quoting.outside.after s := by
  cases negative <;> rfl

theorem IsFraction.after (h : IsFraction s) : Quoting.outside.after s = .outside := by
  cases h with
  | absent => rfl
  | present hne hd =>
    rw [Quoting.after_cons]
    exact after_digits hd

theorem IsExponent.after (h : IsExponent s) : Quoting.outside.after s = .outside := by
  cases h with
  | absent => rfl
  | present hl hs hne hd =>
    rw [Quoting.after_cons, Quoting.after_append]
    obtain rfl | rfl := hl <;> obtain rfl | rfl | rfl := hs <;> exact after_digits hd

theorem Spells.after (h : Spells s t) : Quoting.inside.after s = .inside := by
  have hhex {a b c d : Char} {n : Nat} (hn : hex4? a b c d = some n) (s : List Char) :
      Quoting.inside.after ('\\' :: 'u' :: a :: b :: c :: d :: s) = Quoting.inside.after s := by
    obtain ⟨front, hfront, hafter⟩ := hex4?_passes hn s
    rw [hfront, Quoting.after_append, hafter]
  induction h with
  | nil => rfl
  | raw c hc hq hb h ih => simpa [Quoting.next, hq, hb] using ih
  | escape c d hc h ih => exact ih
  | unit hn hh hl h ih => rw [hhex hn, ih]
  | pair hn hm hh hl h ih => rw [hhex hn, hhex hm, ih]

theorem Spells.after_quoted (h : Spells s t) (rest : List Char) :
    Quoting.outside.after ('"' :: (s ++ '"' :: rest)) = Quoting.outside.after rest := by
  have hquote : Quoting.outside.next '"' = .inside := rfl
  rw [Quoting.after_cons, hquote, Quoting.after_append, h.after]
  rfl

theorem after_mark {c : Char} (hc : c ∈ ['[', ']', '\x7b', '\x7d', ',', ':']) (s : List Char) :
    Quoting.outside.after (c :: s) = Quoting.outside.after s := by
  have hnext : ∀ c ∈ ['[', ']', '\x7b', '\x7d', ',', ':'], Quoting.outside.next c = .outside :=
    List.all_iff_forall_prop.mp (by decide)
  rw [Quoting.after_cons, hnext c hc]

/-- Text that denotes something is outside of quotes at its end. -/
theorem Denotes.after (h : Denotes s m) : Quoting.outside.after s = .outside := by
  induction h with
  | null => decide
  | yes => decide
  | no => decide
  | nan => decide
  | infinity negative => cases negative <;> decide
  | integer negative hw hl => rw [after_signed, after_digits hw.digits]
  | decimal negative hw hf he hne hd =>
    rw [after_signed, Quoting.after_append, after_digits hw.digits, Quoting.after_append, hf.after,
      he.after]
  | text h => exact h.after_quoted []
  | emptyList hw =>
    rw [after_mark (by decide), Quoting.after_append, hw.after]
    exact after_mark (by decide) []
  | list hw h ih => rw [after_mark (by decide), Quoting.after_append, hw.after, ih]
  | emptyObject hw =>
    rw [after_mark (by decide), Quoting.after_append, hw.after]
    exact after_mark (by decide) []
  | object hw h ih => rw [after_mark (by decide), Quoting.after_append, hw.after, ih]
  | lastItem h hw ih =>
    rw [Quoting.after_append, ih, Quoting.after_append, hw.after]
    exact after_mark (by decide) []
  | item h hw hw' h' ih ih' =>
    rw [Quoting.after_append, ih, Quoting.after_append, hw.after, after_mark (by decide),
      Quoting.after_append, hw'.after, ih']
  | field hk hw hw' h ih =>
    rw [hk.after_quoted, Quoting.after_append, hw.after, after_mark (by decide),
      Quoting.after_append, hw'.after, ih]
  | lastField h hw ih =>
    rw [Quoting.after_append, ih, Quoting.after_append, hw.after]
    exact after_mark (by decide) []
  | moreFields h hw hw' h' ih ih' =>
    rw [Quoting.after_append, ih, Quoting.after_append, hw.after, after_mark (by decide),
      Quoting.after_append, hw'.after, ih']

end Quoting

section Printed

variable {s t w whole fraction exponent : List Char} {c : Char} {m : Meaning} {v : Value}

def IsNumeric (c : Char) : Prop := c.isDigit = true ∨ c ∈ ['.', 'e', 'E', '+', '-']

theorem isNumeric_number (hw : IsWhole whole) (hf : IsFraction fraction)
    (he : IsExponent exponent) : ∀ c ∈ whole ++ (fraction ++ exponent), IsNumeric c := by
  intro c hc
  rcases List.mem_append.mp hc with hc | hc
  · exact .inl (hw.digits c hc)
  rcases List.mem_append.mp hc with hc | hc
  · cases hf with
    | absent => cases hc
    | present hne hd =>
      rcases List.mem_cons.mp hc with rfl | hc
      · exact .inr (by decide)
      · exact .inl (hd c hc)
  · cases he with
    | absent => cases hc
    | present hl hs hne hd =>
      rcases List.mem_cons.mp hc with rfl | hc
      · exact .inr (by obtain rfl | rfl := hl <;> decide)
      rcases List.mem_append.mp hc with hc | hc
      · refine .inr ?_
        obtain rfl | rfl | rfl := hs
        · cases hc
        · rw [List.mem_singleton.mp hc]
          decide
        · rw [List.mem_singleton.mp hc]
          decide
      · exact .inl (hd c hc)

/-- A text without control characters, except for white space between values. -/
def IsPrinted (s : List Char) : Prop := ∀ c ∈ s, 32 ≤ c.toNat ∨ isSpace c = true

theorem IsPrinted.cons (hc : 32 ≤ c.toNat) (h : IsPrinted s) : IsPrinted (c :: s) :=
  List.forall_mem_cons.mpr ⟨.inl hc, h⟩

theorem IsPrinted.append (hs : IsPrinted s) (ht : IsPrinted t) : IsPrinted (s ++ t) :=
  List.forall_mem_append.mpr ⟨hs, ht⟩

theorem isPrinted_nil : IsPrinted [] := nofun

theorem IsSpaces.isPrinted (h : IsSpaces w) : IsPrinted w := fun c hc => .inr (h c hc)

theorem le_toNat_of_isDigit (h : c.isDigit = true) : 32 ≤ c.toNat := by
  simp only [Char.isDigit, Bool.and_eq_true, decide_eq_true_eq, ge_iff_le] at h
  exact Nat.le_trans (by decide) h.1

theorem IsNumeric.le_toNat (h : IsNumeric c) : 32 ≤ c.toNat := by
  rcases h with h | h
  · exact le_toNat_of_isDigit h
  · have hmarks : ∀ c ∈ ['.', 'e', 'E', '+', '-'], 32 ≤ c.toNat :=
      List.all_iff_forall_prop.mp (by decide)
    exact hmarks c h

theorem isPrinted_signed (negative : Bool) (h : ∀ c ∈ s, IsNumeric c) :
    IsPrinted (signed negative s) := by
  have hs : IsPrinted s := fun c hc => .inl (h c hc).le_toNat
  cases negative with
  | false => exact hs
  | true => exact hs.cons (by decide)

theorem le_toNat_of_hexValue? {n : Nat} (h : hexValue? c = some n) : 32 ≤ c.toNat := by
  unfold hexValue? at h
  split at h
  · rename_i hd
    exact le_toNat_of_isDigit hd
  · simp only [Bool.and_eq_true, decide_eq_true_eq] at h
    split at h
    · rename_i hsmall
      exact Nat.le_trans (by decide) hsmall.1
    · split at h
      · rename_i hcapital
        exact Nat.le_trans (by decide) hcapital.1
      · cases h

theorem Spells.isPrinted (h : Spells s t) : IsPrinted s := by
  have hhex {a b c d : Char} {n : Nat} {s : List Char} (hn : hex4? a b c d = some n)
      (hs : IsPrinted s) : IsPrinted ('\\' :: 'u' :: a :: b :: c :: d :: s) := by
    unfold hex4? at hn
    simp only [Option.bind_eq_bind, Option.bind_eq_some_iff] at hn
    obtain ⟨_, ha, _, hb, _, hc, _, hd, -⟩ := hn
    exact ((((((hs.cons (le_toNat_of_hexValue? hd)).cons (le_toNat_of_hexValue? hc)).cons
      (le_toNat_of_hexValue? hb)).cons (le_toNat_of_hexValue? ha)).cons (by decide)).cons
      (by decide))
  have hletter : ∀ entry ∈ escapes, 32 ≤ entry.1.toNat := by decide
  induction h with
  | nil => exact isPrinted_nil
  | raw c hc hq hb h ih => exact ih.cons hc
  | escape c d hc h ih => exact (ih.cons (hletter _ hc)).cons (by decide)
  | unit hn hh hl h ih => exact hhex hn ih
  | pair hn hm hh hl h ih => exact hhex hn (hhex hm ih)

theorem Spells.isPrinted_quoted (h : Spells s t) (hw : IsPrinted w) :
    IsPrinted ('"' :: (s ++ '"' :: w)) :=
  (h.isPrinted.append (hw.cons (by decide))).cons (by decide)

theorem Denotes.isPrinted (h : Denotes s m) : IsPrinted s := by
  induction h with
  | null => exact List.all_iff_forall_prop.mp (by decide)
  | yes => exact List.all_iff_forall_prop.mp (by decide)
  | no => exact List.all_iff_forall_prop.mp (by decide)
  | nan => exact List.all_iff_forall_prop.mp (by decide)
  | infinity negative => cases negative <;> exact List.all_iff_forall_prop.mp (by decide)
  | integer negative hw hl => exact isPrinted_signed negative fun c hc => .inl (hw.digits c hc)
  | decimal negative hw hf he hne hd => exact isPrinted_signed negative (isNumeric_number hw hf he)
  | text h => exact h.isPrinted_quoted isPrinted_nil
  | emptyList hw => exact (hw.isPrinted.append (isPrinted_nil.cons (by decide))).cons (by decide)
  | list hw h ih => exact (hw.isPrinted.append ih).cons (by decide)
  | emptyObject hw => exact (hw.isPrinted.append (isPrinted_nil.cons (by decide))).cons (by decide)
  | object hw h ih => exact (hw.isPrinted.append ih).cons (by decide)
  | lastItem h hw ih => exact ih.append (hw.isPrinted.append (isPrinted_nil.cons (by decide)))
  | item h hw hw' h' ih ih' =>
    exact ih.append (hw.isPrinted.append ((hw'.isPrinted.append ih').cons (by decide)))
  | field hk hw hw' h ih =>
    exact hk.isPrinted_quoted (hw.isPrinted.append ((hw'.isPrinted.append ih).cons (by decide)))
  | lastField h hw ih => exact ih.append (hw.isPrinted.append (isPrinted_nil.cons (by decide)))
  | moreFields h hw hw' h' ih ih' =>
    exact ih.append (hw.isPrinted.append ((hw'.isPrinted.append ih').cons (by decide)))

theorem IsText.isPrinted (h : IsText s v) : IsPrinted s := by
  obtain ⟨w, body, w', rfl, hw, hw', hbody⟩ := h
  exact hw.isPrinted.append (hbody.isPrinted.append hw'.isPrinted)

end Printed

end FlowEngine.Json
