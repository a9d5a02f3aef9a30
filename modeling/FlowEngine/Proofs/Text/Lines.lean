import Mathlib.Data.List.DropRight
import Mathlib.Data.List.TakeWhile
import FlowEngine.Text.Blank

/-!
# Trimming and lines

White space behind a text is trimmed off, and white space inside it stays. What stands behind the last
line end of a text is its last line.
-/

namespace FlowEngine.Text

variable {s : List Char}

theorem trimBack_append_blank {w : List Char} (hw : ∀ c ∈ w, isBlank c = true) :
    trimBack (s ++ w) = trimBack s := by
  have hdrop : w.reverse.dropWhile isBlank = [] := by
    simpa [List.dropWhile_eq_nil_iff] using hw
  simp [trimBack, List.dropWhile_append, hdrop]

theorem trimChars_append_blank {w : List Char} (hw : ∀ c ∈ w, isBlank c = true) :
    trimChars (s ++ w) = trimChars s := by
  have hdrop : w.dropWhile isBlank = [] := by
    simpa [List.dropWhile_eq_nil_iff] using hw
  rw [trimChars, trimChars, trimFront, trimFront, List.dropWhile_append]
  split
  · rename_i hempty
    rw [hdrop, List.isEmpty_iff.mp hempty]
  · exact trimBack_append_blank hw

theorem trimChars_trimFront (s : List Char) : trimChars (trimFront s) = trimChars s := by
  simp [trimChars, trimFront, List.dropWhile_idempotent]

theorem trimBack_append (s : List Char) :
    ∃ w, s = trimBack s ++ w ∧ ∀ c ∈ w, isBlank c = true := by
  refine ⟨(s.reverse.takeWhile isBlank).reverse, ?_, ?_⟩
  · rw [trimBack, ← List.reverse_append, List.takeWhile_append_dropWhile, List.reverse_reverse]
  · intro c hc
    exact List.mem_takeWhile_imp (List.mem_reverse.mp hc)

theorem splitLines_of_forall {s : List Char} (hs : s ≠ [])
    (h : ∀ c ∈ s, isLineEnd c = false) : splitLines s = [s] := by
  induction s with
  | nil => exact absurd rfl hs
  | cons c rest ih =>
    have hc := h c List.mem_cons_self
    have hrest := fun d hd => h d (List.mem_cons_of_mem _ hd)
    unfold splitLines
    split
    · rename_i heq
      cases heq
    · rename_i heq
      cases heq
      exact absurd hc (by decide)
    · rename_i heq
      cases heq
      rw [if_neg (by simp [hc])]
      by_cases hnil : rest = []
      · subst hnil
        rfl
      · rw [ih hnil hrest]

theorem trimBack_concat {c : Char} (hc : isBlank c = false) : trimBack (s ++ [c]) = s ++ [c] := by
  rw [trimBack, List.reverse_append, List.reverse_singleton, List.singleton_append,
    List.dropWhile_cons_of_neg (by simp [hc]), List.reverse_cons, List.reverse_reverse]

theorem trimChars_append (hs : s ≠ []) (hf : ∀ c, s.head? = some c → isBlank c = false)
    (hb : ∀ c, s.getLast? = some c → isBlank c = false) (front : List Char) :
    trimChars (front ++ s) = trimFront front ++ s := by
  have hfront : trimFront (front ++ s) = trimFront front ++ s := by
    obtain ⟨c, rest, rfl⟩ := List.exists_cons_of_ne_nil hs
    have hc : (c :: rest).dropWhile isBlank = c :: rest :=
      List.dropWhile_cons_of_neg (by simp [hf c rfl])
    rw [trimFront, trimFront, List.dropWhile_append, hc]
    split
    · rename_i hempty
      rw [List.isEmpty_iff.mp hempty, List.nil_append]
    · rfl
  obtain ⟨init, c, rfl⟩ := (List.eq_nil_or_concat' s).resolve_left hs
  rw [trimChars, hfront, ← List.append_assoc, trimBack_concat (hb c (by simp))]

/-- Text that ends with a line end, if there is any text. -/
def EndsLine (s : List Char) : Prop := ∀ c, s.getLast? = some c → isLineEnd c = true

theorem EndsLine.of_suffix {t : List Char} (h : EndsLine t) (hs : s <:+ t) : EndsLine s := by
  obtain ⟨front, rfl⟩ := hs
  intro c hc
  exact h c (by simp [List.getLast?_append, hc])

theorem EndsLine.tail {c : Char} (h : EndsLine (c :: s)) : EndsLine s :=
  h.of_suffix (List.suffix_cons c s)

theorem endsLine_nil : EndsLine [] := fun _ h => absurd h (by simp)

theorem endsLine_concat {c : Char} (hc : isLineEnd c = true) : EndsLine (s ++ [c]) := by
  intro d hd
  rw [List.getLast?_concat] at hd
  cases hd
  exact hc

theorem splitLines_cons {c : Char} (hpair : ∀ rest, c = '\r' → s = '\n' :: rest → False) :
    splitLines (c :: s) =
      if isLineEnd c then [c] :: splitLines s
      else
        match splitLines s with
        | [] => [[c]]
        | line :: lines => (c :: line) :: lines := by
  rw [splitLines.eq_def]
  split
  · rename_i h
    cases h
  · rename_i rest h
    obtain ⟨rfl, rfl⟩ := List.cons.inj h
    exact absurd rfl (hpair rest rfl)
  · rename_i h
    obtain ⟨rfl, rfl⟩ := List.cons.inj h
    rfl

theorem exists_last_lineEnd (h : ∃ c ∈ s, isLineEnd c = true) :
    ∃ front c back, s = front ++ c :: back ∧ isLineEnd c = true ∧
      ∀ d ∈ back, isLineEnd d = false := by
  induction s with
  | nil =>
    obtain ⟨c, hc, -⟩ := h
    cases hc
  | cons d s ih =>
    by_cases hs : ∃ c ∈ s, isLineEnd c = true
    · obtain ⟨front, c, back, rfl, hc, hback⟩ := ih hs
      exact ⟨d :: front, c, back, rfl, hc, hback⟩
    · have hline : ∀ c ∈ s, isLineEnd c = false := by simpa using hs
      obtain ⟨c, hmem, hc⟩ := h
      obtain rfl | hmem := List.mem_cons.mp hmem
      · exact ⟨[], c, s, rfl, hc, hline⟩
      · rw [hline c hmem] at hc
        cases hc

/-- What is left when white space is trimmed off in front still ends with a line, and with a part of
what stood behind that line. -/
theorem exists_trimFront_append {w : List Char} (hs : EndsLine s) :
    ∃ front back, trimFront (s ++ w) = front ++ back ∧ EndsLine front ∧ back <:+ w := by
  rw [trimFront, List.dropWhile_append]
  split
  · exact ⟨[], _, rfl, endsLine_nil, List.dropWhile_suffix _⟩
  · exact ⟨s.dropWhile isBlank, w, rfl, hs.of_suffix (List.dropWhile_suffix _), List.suffix_rfl⟩

theorem exists_splitLines_append {a b : List Char} (ha : a ≠ []) (he : EndsLine a) (hb : b ≠ [])
    (hline : ∀ c ∈ b, isLineEnd c = false) :
    ∃ lines, lines ≠ [] ∧ splitLines (a ++ b) = lines ++ [b] := by
  -- Behind a line end either more of the front or the last line follows.
  have hrest {rest : List Char} (ih : rest ≠ [] → EndsLine rest →
      ∃ lines, lines ≠ [] ∧ splitLines (rest ++ b) = lines ++ [b]) (hr : EndsLine rest) :
      ∃ lines, splitLines (rest ++ b) = lines ++ [b] := by
    by_cases hnil : rest = []
    · subst hnil
      exact ⟨[], splitLines_of_forall hb hline⟩
    · obtain ⟨lines, -, hlines⟩ := ih hnil hr
      exact ⟨lines, hlines⟩
  -- The last line does not begin with a line feed, so no pair arises where it begins.
  have hapart {c : Char} {rest : List Char}
      (hpair : ∀ more, c = '\r' → rest = '\n' :: more → False) :
      ∀ more, c = '\r' → rest ++ b = '\n' :: more → False := by
    intro more hc hmore
    cases rest with
    | nil =>
      rw [List.nil_append] at hmore
      exact absurd (hline '\n' (hmore ▸ List.mem_cons_self)) (by decide)
    | cons d rest =>
      obtain ⟨rfl, -⟩ := List.cons.inj hmore
      exact hpair rest hc rfl
  fun_induction splitLines a with
  | case1 => exact absurd rfl ha
  | case2 rest ih =>
    obtain ⟨lines, hlines⟩ := hrest ih he.tail.tail
    refine ⟨['\r', '\n'] :: lines, List.cons_ne_nil _ _, ?_⟩
    rw [List.cons_append, List.cons_append, splitLines, hlines, List.cons_append]
  | case3 c rest hpair hc ih =>
    obtain ⟨lines, hlines⟩ := hrest ih he.tail
    refine ⟨[c] :: lines, List.cons_ne_nil _ _, ?_⟩
    rw [List.cons_append, splitLines_cons (hapart hpair), if_pos hc, hlines, List.cons_append]
  | case4 c rest hpair hc h ih =>
    have hnil : rest = [] := by
      rw [← flatten_splitLines rest, h]
      rfl
    exact absurd (he c (by simp [hnil])) hc
  | case5 c rest hpair hc line lines h ih =>
    have hne : rest ≠ [] := by
      rintro rfl
      cases h
    obtain ⟨lines, hn, hlines⟩ := ih hne he.tail
    obtain ⟨line, lines, rfl⟩ := List.exists_cons_of_ne_nil hn
    refine ⟨(c :: line) :: lines, List.cons_ne_nil _ _, ?_⟩
    rw [List.cons_append, splitLines_cons (hapart hpair), if_neg hc, hlines]
    rfl

end FlowEngine.Text
