import FlowEngine.Json.Parser
import FlowEngine.Proofs.Text.Pieces

/-!
# Inside and outside of quotes

A text of values is outside of quotes at its beginning and at its end. Whoever begins to read it inside
quotes takes the inside for the outside, up to the end or up to a backslash, and so does not read a text
of values.
-/

namespace FlowEngine.Json

/-- Where a place in a text is: outside of quotes, inside, behind a backslash inside, or nowhere in a
text of values. -/
inductive Quoting where
  | outside
  | inside
  | escaped
  | nowhere
  deriving DecidableEq, Repr

/-- Whether a character may stand outside of quotes. Of the line ends only those may that are white
space between values. -/
def isBare (c : Char) : Bool := c != '\\' && (isSpace c || !Text.isLineEnd c)

namespace Quoting

def next : Quoting → Char → Quoting
  | .outside, c => if c == '"' then .inside else if isBare c then .outside else .nowhere
  | .inside, c => if c == '"' then .outside else if c == '\\' then .escaped else .inside
  | .escaped, _ => .inside
  | .nowhere, _ => .nowhere

/-- Where a text ends that begins at some place. -/
def after (q : Quoting) (s : List Char) : Quoting := s.foldl next q

variable {q r : Quoting} {c : Char} {s t : List Char}

@[simp] theorem after_nil (q : Quoting) : q.after [] = q := rfl

@[simp] theorem after_cons (q : Quoting) (c : Char) (s : List Char) :
    q.after (c :: s) = (q.next c).after s := rfl

@[simp] theorem after_append (q : Quoting) (s t : List Char) :
    q.after (s ++ t) = (q.after s).after t := List.foldl_append

theorem after_nowhere (s : List Char) : Quoting.nowhere.after s = .nowhere := by
  induction s with
  | nil => rfl
  | cons c s ih => exact ih

theorem next_bare (hq : c ≠ '"') (hc : isBare c = true) : Quoting.outside.next c = .outside := by
  simp [next, hq, hc]

theorem after_bare (h : ∀ c ∈ s, c ≠ '"' ∧ isBare c = true) :
    Quoting.outside.after s = .outside := by
  induction s with
  | nil => rfl
  | cons c s ih =>
    obtain ⟨hq, hc⟩ := h c List.mem_cons_self
    rw [after_cons, next_bare hq hc, ih fun d hd => h d (List.mem_cons_of_mem c hd)]

/-- A line end that does not stand between values is inside of quotes. -/
theorem next_lineEnd (hc : Text.isLineEnd c = true) (hs : isSpace c = false) (q : Quoting) :
    q.next c = .inside ∨ q.next c = .nowhere := by
  have hquote : c ≠ '"' := by
    rintro rfl
    exact absurd hc (by decide)
  have hslash : c ≠ '\\' := by
    rintro rfl
    exact absurd hc (by decide)
  cases q <;> simp [next, isBare, hc, hs, hquote, hslash]

/-- Two readers of which one takes for the inside what the other one takes for the outside, unless one
of them is nowhere. -/
inductive Opposed : Quoting → Quoting → Prop where
  | inside : Opposed .outside .inside
  | outside : Opposed .inside .outside
  | lost (q : Quoting) : Opposed .nowhere q
  | misled (q : Quoting) : Opposed q .nowhere

theorem Opposed.symm (h : Opposed q r) : Opposed r q := by
  cases h with
  | inside => exact .outside
  | outside => exact .inside
  | lost => exact .misled _
  | misled => exact .lost _

/-- A quote takes both to the other side, and a backslash is nowhere outside of quotes. -/
theorem Opposed.next_inside (c : Char) :
    Opposed (Quoting.outside.next c) (Quoting.inside.next c) := by
  by_cases hq : c = '"'
  · subst hq
    exact .outside
  · by_cases hs : c = '\\'
    · subst hs
      exact .lost _
    · have hinside : Quoting.inside.next c = .inside := by simp [Quoting.next, hq, hs]
      rw [hinside]
      cases hc : isBare c with
      | true =>
        rw [next_bare hq hc]
        exact .inside
      | false =>
        have hout : Quoting.outside.next c = .nowhere := by simp [Quoting.next, hq, hc]
        rw [hout]
        exact .lost _

theorem Opposed.next (h : Opposed q r) (c : Char) : Opposed (q.next c) (r.next c) := by
  cases h with
  | inside => exact next_inside c
  | outside => exact (next_inside c).symm
  | lost => exact .lost _
  | misled => exact .misled _

theorem Opposed.after (h : Opposed q r) (s : List Char) : Opposed (q.after s) (r.after s) := by
  induction s generalizing q r with
  | nil => exact h
  | cons c s ih => exact ih (h.next c)

/-- What follows a line end inside of quotes is no text that begins and ends outside of them. -/
theorem after_behind_lineEnd (h : Quoting.outside.after (s ++ c :: t) = .outside)
    (hc : Text.isLineEnd c = true) (hs : isSpace c = false) :
    Quoting.outside.after t ≠ .outside := by
  intro ht
  rw [after_append, after_cons] at h
  rcases next_lineEnd hc hs (Quoting.outside.after s) with hn | hn
  · rw [hn] at h
    have hboth := Opposed.inside.after t
    rw [h, ht] at hboth
    cases hboth
  · rw [hn, after_nowhere] at h
    cases h

end Quoting

/-- A text without its front, which leads from one place to another. -/
def Passes (q r : Quoting) (s rest : List Char) : Prop :=
  ∃ front, s = front ++ rest ∧ q.after front = r

section Passes

variable {q r p : Quoting} {s t rest : List Char} {c : Char}

theorem Passes.refl (q : Quoting) (s : List Char) : Passes q q s s := ⟨[], rfl, rfl⟩

theorem Passes.trans (h : Passes q r s t) (ht : Passes r p t rest) : Passes q p s rest := by
  obtain ⟨front, rfl, hf⟩ := h
  obtain ⟨more, rfl, hm⟩ := ht
  exact ⟨front ++ more, (List.append_assoc _ _ _).symm, by rw [Quoting.after_append, hf, hm]⟩

theorem Passes.suffix (h : Passes q r s rest) : rest <:+ s := by
  obtain ⟨front, rfl, -⟩ := h
  exact List.suffix_append _ _

theorem Passes.cons (h : q.next c = r) (s : List Char) : Passes q r (c :: s) s := ⟨[c], rfl, h⟩

theorem Passes.bare {front : List Char} (h : ∀ c ∈ front, c ≠ '"' ∧ isBare c = true)
    (rest : List Char) : Passes .outside .outside (front ++ rest) rest :=
  ⟨front, rfl, Quoting.after_bare h⟩

end Passes

theorem isBlank_of_isSpace {c : Char} (h : isSpace c = true) : Text.isBlank c = true := by
  simp only [isSpace, Bool.or_eq_true, beq_iff_eq] at h
  obtain ((rfl | rfl) | rfl) | rfl := h <;> decide

theorem not_isSpace_of_isDigit {c : Char} (h : c.isDigit = true) : isSpace c = false := by
  cases hs : isSpace c with
  | false => rfl
  | true =>
    have hblank := isBlank_of_isSpace hs
    rw [Text.not_isBlank_of_isDigit h] at hblank
    cases hblank

theorem bare_of_isSpace {c : Char} (h : isSpace c = true) : c ≠ '"' ∧ isBare c = true := by
  simp only [isSpace, Bool.or_eq_true, beq_iff_eq] at h
  obtain ((rfl | rfl) | rfl) | rfl := h <;> decide

theorem bare_of_not_isBlank {c : Char} (h : Text.isBlank c = false) (hs : c ≠ '\\') :
    isBare c = true := by
  have hend : Text.isLineEnd c = false := by
    cases he : Text.isLineEnd c with
    | false => rfl
    | true => rw [Text.isBlank_of_isLineEnd he] at h; cases h
  simp [isBare, hs, hend]

theorem bare_of_isDigit {c : Char} (h : c.isDigit = true) : c ≠ '"' ∧ isBare c = true := by
  have hslash : c ≠ '\\' := Text.ne_of_isDigit h (by decide)
  exact ⟨Text.ne_of_isDigit h (by decide),
    bare_of_not_isBlank (Text.not_isBlank_of_isDigit h) hslash⟩

end FlowEngine.Json
