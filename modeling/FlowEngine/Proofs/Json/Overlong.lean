import Mathlib.Data.List.TakeWhile
import FlowEngine.Proofs.Json.Quoting

/-!
# Integers of too many digits

Reading gives up at an integer that has more digits than are turned into one. The digits stand in the
text, one after the other. Whatever is read otherwise is outside of quotes at its end.
-/

namespace FlowEngine.Json

/-- Somewhere in a text more digits stand in a row than are turned into an integer. -/
def HasLongRow (s : List Char) : Prop :=
  ∃ row, row <:+: s ∧ (∀ c ∈ row, c.isDigit = true) ∧ digitLimit < row.length

theorem HasLongRow.mono {s t : List Char} (h : HasLongRow s) (hs : s <:+ t) : HasLongRow t := by
  obtain ⟨row, hrow, hdigits, hlong⟩ := h
  exact ⟨row, hrow.trans hs.isInfix, hdigits, hlong⟩

theorem not_hasLongRow_of_length_le {s : List Char} (h : s.length ≤ digitLimit) : ¬ HasLongRow s := by
  rintro ⟨row, hrow, -, hlong⟩
  exact Nat.not_le.mpr hlong (hrow.length_le.trans h)

variable {α β : Type} {q r : Quoting} {s t : List Char}

/-- A reader of the front of a text, which begins inside or outside of quotes, is outside of them at
its end, and gives up over digits only where there are too many. -/
def ReadsFront (q : Quoting) (s : List Char) : Except ReadError (α × List Char) → Prop
  | .ok (_, rest) => Passes q .outside s rest
  | .error .malformed => True
  | .error (.tooManyDigits _) => HasLongRow s

theorem ReadsFront.mono {x : Except ReadError (α × List Char)} (h : ReadsFront r s x)
    (hs : Passes q r t s) : ReadsFront q t x := by
  match x, h with
  | .ok (_, _), h => exact hs.trans h
  | .error .malformed, _ => trivial
  | .error (.tooManyDigits _), h => exact HasLongRow.mono h hs.suffix

theorem ReadsFront.map {x : Except ReadError (α × List Char)} (h : ReadsFront q s x) (f : α → β) :
    ReadsFront q s (x.map fun (a, rest) => (f a, rest)) := by
  match x, h with
  | .ok (_, _), h => exact h
  | .error .malformed, _ => trivial
  | .error (.tooManyDigits _), h => exact h

theorem ReadsFront.error {x : Except ReadError (α × List Char)} {e : ReadError}
    (h : ReadsFront q s x) (hx : x = .error e) :
    ReadsFront r s (.error e : Except ReadError (β × _)) := by
  subst hx
  cases e with
  | malformed => trivial
  | tooManyDigits count => exact h

theorem skipSpace_passes (s : List Char) : Passes .outside .outside s (skipSpace s) :=
  ⟨s.takeWhile isSpace, List.takeWhile_append_dropWhile.symm,
    Quoting.after_bare fun _ hc => bare_of_isSpace (List.mem_takeWhile_imp hc)⟩

theorem passes_of_skipSpace {c : Char} {rest : List Char} (h : skipSpace s = c :: rest)
    (hq : c ≠ '"') (hc : isBare c = true) : Passes .outside .outside s rest :=
  (h ▸ skipSpace_passes s).trans (.cons (Quoting.next_bare hq hc) rest)

theorem digits_passes (s : List Char) :
    Passes .outside .outside s (s.dropWhile Char.isDigit) :=
  ⟨s.takeWhile Char.isDigit, List.takeWhile_append_dropWhile.symm,
    Quoting.after_bare fun _ hc => bare_of_isDigit (List.mem_takeWhile_imp hc)⟩

theorem next_inside_of_hexValue? {c : Char} {n : Nat} (h : hexValue? c = some n) :
    Quoting.inside.next c = .inside := by
  have hne {d : Char} (hd : hexValue? d = none) : c ≠ d := by
    rintro rfl
    rw [h] at hd
    cases hd
  simp [Quoting.next, hne (d := '"') (by decide), hne (d := '\\') (by decide)]

theorem hex4?_passes {a b c d : Char} {n : Nat} (h : hex4? a b c d = some n) (rest : List Char) :
    Passes .inside .inside ('\\' :: 'u' :: a :: b :: c :: d :: rest) rest := by
  unfold hex4? at h
  simp only [Option.bind_eq_bind, Option.bind_eq_some_iff] at h
  obtain ⟨_, ha, _, hb, _, hc, _, hd, -⟩ := h
  refine ⟨['\\', 'u', a, b, c, d], rfl, ?_⟩
  have hstart : (Quoting.inside.next '\\').next 'u' = .inside := rfl
  simp only [Quoting.after_cons, Quoting.after_nil, hstart, next_inside_of_hexValue? ha,
    next_inside_of_hexValue? hb, next_inside_of_hexValue? hc, next_inside_of_hexValue? hd]

theorem readsFront_units (s : List Char) : ReadsFront .inside s (units s) := by
  fun_induction units s with
  | case1 => trivial
  | case2 rest => exact .cons rfl rest
  | case3 => trivial
  | case4 a b c d rest n hn ih => exact (ih.map _).mono (hex4?_passes hn rest)
  | case5 => trivial
  | case6 c rest _ n hn ih => exact (ih.map _).mono ⟨['\\', c], rfl, rfl⟩
  | case7 => trivial
  | case8 c rest hquote _ _ hc ih =>
    have hslash : c ≠ '\\' := by
      rintro rfl
      simp at hc
    have hinside : Quoting.inside.next c = .inside := by
      simp [Quoting.next, show c ≠ '"' from hquote, hslash]
    exact (ih.map _).mono (.cons hinside rest)

theorem readsFront_textBody (rules : Rules) (s : List Char) :
    ReadsFront .inside s (textBody rules s) := by
  have hunits := readsFront_units s
  unfold textBody
  split
  · rename_i e he
    exact hunits.error he
  · rename_i us rest he
    rw [he] at hunits
    split
    · trivial
    · exact hunits

theorem wholePart_eq {digits rest : List Char} (h : wholePart s = some (digits, rest)) :
    s = digits ++ rest ∧ ∀ c ∈ digits, c.isDigit = true := by
  unfold wholePart at h
  split at h
  · cases h
    refine ⟨rfl, fun c hc => ?_⟩
    rw [List.mem_singleton.mp hc]
    rfl
  · dsimp only [Numeral.spanDigits] at h
    by_cases hd : (s.takeWhile Char.isDigit).isEmpty = true
    · rw [if_pos hd] at h
      cases h
    · rw [if_neg hd] at h
      cases h
      exact ⟨List.takeWhile_append_dropWhile.symm, fun c hc => List.mem_takeWhile_imp hc⟩

theorem fractionPart_passes (s : List Char) :
    Passes .outside .outside s (fractionPart s).2 := by
  unfold fractionPart
  split
  · rename_i rest
    dsimp only [Numeral.spanDigits]
    cases (rest.takeWhile Char.isDigit).isEmpty with
    | true => exact .refl _ _
    | false => exact (Passes.cons (by decide) rest).trans (digits_passes rest)
  · exact .refl _ _

theorem spanSign_passes (s : List Char) : Passes .outside .outside s (Numeral.spanSign s).2 := by
  unfold Numeral.spanSign
  split
  · exact .cons (by decide) _
  · exact .cons (by decide) _
  · exact .refl _ _

theorem exponentPart_passes (s : List Char) :
    Passes .outside .outside s (exponentPart s).2 := by
  unfold exponentPart
  split
  · rename_i c rest
    dsimp only [Numeral.spanDigits]
    cases hc : c == 'e' || c == 'E' with
    | false => exact .refl _ _
    | true =>
      have hletter : Quoting.outside.next c = .outside := by
        simp only [Bool.or_eq_true, beq_iff_eq] at hc
        obtain rfl | rfl := hc <;> decide
      cases ((Numeral.spanSign rest).2.takeWhile Char.isDigit).isEmpty with
      | true => exact .refl _ _
      | false =>
        exact ((Passes.cons hletter rest).trans (spanSign_passes rest)).trans (digits_passes _)
  · exact .refl _ _

theorem wordValue?_passes {v : Value} {rest : List Char} (h : wordValue? s = some (v, rest)) :
    Passes .outside .outside s rest := by
  obtain ⟨⟨word, w⟩, hmem, hword⟩ := List.exists_of_findSome?_eq_some h
  obtain ⟨rest', hrest, hpair⟩ := Option.map_eq_some_iff.mp hword
  cases hpair
  have hbare : ∀ entry ∈ words, Quoting.outside.after entry.1 = .outside := by decide
  unfold word? at hrest
  split at hrest
  · rename_i hfront
    cases hrest
    refine ⟨word, ?_, hbare _ hmem⟩
    exact (List.prefix_iff_eq_append.mp (List.isPrefixOf_iff_prefix.mp hfront)).symm
  · cases hrest

theorem readsFront_items {rules : Rules} {steps : Nat}
    (hvalue : ∀ room s, ReadsFront .outside s (value rules steps room s))
    (hitems : ∀ room s, ReadsFront .outside s (items rules steps room s)) (room : Nat)
    (s : List Char) : ReadsFront .outside s (items rules (steps + 1) room s) := by
  have hfirst := hvalue room s
  unfold items
  split
  · rename_i e he
    exact hfirst.error he
  · rename_i v rest he
    rw [he] at hfirst
    have hfirst : Passes .outside .outside s rest := hfirst
    split
    · rename_i h
      exact hfirst.trans (passes_of_skipSpace h (by decide) (by decide))
    · rename_i h
      exact ((hitems _ _).map _).mono
        ((hfirst.trans (passes_of_skipSpace h (by decide) (by decide))).trans
          (skipSpace_passes _))
    · trivial

theorem readsFront_fields {rules : Rules} {steps : Nat}
    (hvalue : ∀ room s, ReadsFront .outside s (value rules steps room s))
    (hfields : ∀ room s, ReadsFront .outside s (fields rules steps room s)) (room : Nat)
    (s : List Char) : ReadsFront .outside s (fields rules (steps + 1) room s) := by
  unfold fields
  split
  · rename_i rest
    have hkey := readsFront_textBody rules rest
    have hquote : Passes .outside .inside ('"' :: rest) rest := .cons rfl rest
    split
    · rename_i e he
      exact (hkey.error he : ReadsFront .inside rest _).mono hquote
    · rename_i key after he
      rw [he] at hkey
      have hkey : Passes .inside .outside rest after := hkey
      split
      · rename_i colon h
        have hcolon : Passes .outside .outside ('"' :: rest) (skipSpace colon) :=
          ((hquote.trans hkey).trans (passes_of_skipSpace h (by decide) (by decide))).trans
            (skipSpace_passes colon)
        have hsecond := (hvalue room (skipSpace colon)).mono hcolon
        split
        · rename_i e he
          exact hsecond.error he
        · rename_i v rest' he
          rw [he] at hsecond
          have hsecond : Passes .outside .outside ('"' :: rest) rest' := hsecond
          split
          · rename_i h
            exact hsecond.trans (passes_of_skipSpace h (by decide) (by decide))
          · rename_i h
            exact ((hfields _ _).map _).mono
              ((hsecond.trans (passes_of_skipSpace h (by decide) (by decide))).trans
                (skipSpace_passes _))
          · trivial
      · trivial
  · trivial

section

variable {rules : Rules} (hr : rules.countsMinus = false)

include hr

theorem readsFront_number (negative : Bool) (s : List Char) :
    ReadsFront .outside s (number rules negative s) := by
  unfold number
  split
  · trivial
  · rename_i whole rest hwhole
    obtain ⟨rfl, hdigits⟩ := wholePart_eq hwhole
    dsimp only
    split
    · -- Only the digits of an integer are counted.
      rename_i hlong
      simp only [isOverlong, hr, Bool.or_false, Bool.and_false, Bool.false_eq_true, if_false,
        Nat.add_zero, Bool.and_eq_true, decide_eq_true_eq] at hlong
      exact ⟨whole, (List.prefix_append _ _).isInfix, hdigits, hlong.2⟩
    · have hend : Passes .outside .outside (whole ++ rest)
          (exponentPart (fractionPart rest).2).2 :=
        ((Passes.bare (fun c hc => bare_of_isDigit (hdigits c hc)) rest).trans
          (fractionPart_passes rest)).trans (exponentPart_passes _)
      split
      · exact hend
      · exact hend

theorem readsFront_scalar (s : List Char) : ReadsFront .outside s (scalar rules s) := by
  unfold scalar
  split
  · rename_i answer hword
    exact wordValue?_passes hword
  · split
    · exact (readsFront_number hr true _).mono (.cons (by decide) _)
    · exact readsFront_number hr false _

theorem readsFront_value {steps : Nat}
    (hitems : ∀ room s, ReadsFront .outside s (items rules steps room s))
    (hfields : ∀ room s, ReadsFront .outside s (fields rules steps room s)) (room : Nat)
    (s : List Char) : ReadsFront .outside s (value rules (steps + 1) room s) := by
  have hopen (c : Char) (hc : Quoting.outside.next c = .outside) (s : List Char) :
      Passes .outside .outside (c :: s) (skipSpace s) :=
    (Passes.cons hc s).trans (skipSpace_passes s)
  unfold value
  split
  · exact ((readsFront_textBody rules _).map _).mono (.cons rfl _)
  · split
    · rename_i h
      exact (Passes.cons (by decide) _).trans (passes_of_skipSpace h (by decide) (by decide))
    · trivial
    · exact ((hitems _ _).map _).mono (hopen '[' (by decide) _)
  · split
    · rename_i h
      exact (Passes.cons (by decide) _).trans (passes_of_skipSpace h (by decide) (by decide))
    · trivial
    · exact ((hfields _ _).map fun fs => Value.object (Entries.ofPairs fs)).mono
        (hopen '\x7b' (by decide) _)
  · exact readsFront_scalar hr s

theorem readsFront_steps (steps : Nat) :
    (∀ room s, ReadsFront .outside s (value rules steps room s)) ∧
      (∀ room s, ReadsFront .outside s (items rules steps room s)) ∧
      ∀ room s, ReadsFront .outside s (fields rules steps room s) := by
  induction steps with
  | zero => exact ⟨fun _ _ => trivial, fun _ _ => trivial, fun _ _ => trivial⟩
  | succ steps ih =>
    obtain ⟨hvalue, hitems, hfields⟩ := ih
    exact ⟨readsFront_value hr hitems hfields, readsFront_items hvalue hitems,
      readsFront_fields hvalue hfields⟩

theorem readsFront_readFront (s : List Char) : ReadsFront .outside s (readFront rules s) :=
  (readsFront_steps hr _).1 _ s

end

theorem outside_of_read {text : String} {v : Value} (h : read text = .ok v) :
    Quoting.outside.after text.toList = .outside := by
  have hfront : ReadsFront .outside _ (readFront .lenient (skipSpace text.toList)) :=
    readsFront_readFront rfl _
  unfold read readWith at h
  split at h
  · cases h
  · rename_i w rest he
    rw [he] at hfront
    split at h
    · rename_i hrest
      have hread : Passes .outside .outside (skipSpace text.toList) rest := hfront
      obtain ⟨front, hall, hafter⟩ :=
        ((skipSpace_passes text.toList).trans hread).trans (skipSpace_passes rest)
      rw [hall, List.isEmpty_iff.mp hrest, List.append_nil, hafter]
    · cases h

end FlowEngine.Json
