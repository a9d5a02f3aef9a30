import Mathlib.Data.Bool.AllAny
import FlowEngine.Text.Blank
import FlowEngine.Text.Case
import FlowEngine.Text.Search

/-!
# Pieces of a text

Cutting, trimming and splitting leave pieces of a text: characters that stand in it one after the
other. A piece stays one in lower case, and a text is searched for a pattern with success when the
pattern is a piece of it.

Digits are no white space, text without white space at its ends is not trimmed, and a pattern whose
first character does not occur in a text is not found in it. A pattern that is found is found at the
same place with more text behind.
-/

namespace FlowEngine.Text

theorem ne_of_isDigit {c d : Char} (hc : c.isDigit = true) (hd : d.isDigit = false) : c ≠ d := by
  rintro rfl
  rw [hc] at hd
  cases hd

theorem not_isBlank_of_isDigit {c : Char} (h : c.isDigit = true) : isBlank c = false := by
  simp only [Char.isDigit, Bool.and_eq_true, decide_eq_true_eq, ge_iff_le] at h
  have h1 : 48 ≤ c.toNat := h.1
  have h2 : c.toNat ≤ 57 := h.2
  simp only [isBlank, isBlankCode, Bool.or_eq_false_iff, Bool.and_eq_false_iff,
    decide_eq_false_iff_not, beq_eq_false_iff_ne]
  omega

theorem trimChars_eq_self {s : List Char} (hf : ∀ c, s.head? = some c → isBlank c = false)
    (hb : ∀ c, s.getLast? = some c → isBlank c = false) : trimChars s = s := by
  have front : ∀ t : List Char, (∀ c, t.head? = some c → isBlank c = false) →
      t.dropWhile isBlank = t := by
    intro t ht
    cases t with
    | nil => rfl
    | cons c rest => rw [List.dropWhile_cons_of_neg (by simp [ht c rfl])]
  rw [trimChars, trimFront, front s hf, trimBack, front s.reverse (by simpa using hb),
    List.reverse_reverse]

theorem trimChars_cons {c : Char} (hc : isBlank c = false) (s : List Char) :
    ∃ rest, trimChars (c :: s) = c :: rest := by
  have hfront : trimFront (c :: s) = c :: s := List.dropWhile_cons_of_neg (by simp [hc])
  have hback : [c].dropWhile isBlank = [c] := List.dropWhile_cons_of_neg (by simp [hc])
  rw [trimChars, hfront, trimBack, List.reverse_cons, List.dropWhile_append]
  split
  · exact ⟨[], by rw [hback, List.reverse_singleton]⟩
  · exact ⟨(s.reverse.dropWhile isBlank).reverse, by rw [List.reverse_append]; rfl⟩

theorem mem_of_mem_trimChars {c : Char} {s : List Char} (h : c ∈ trimChars s) : c ∈ s := by
  rw [trimChars, trimBack, List.mem_reverse] at h
  have hb := List.mem_reverse.mp ((List.dropWhile_sublist _).subset h)
  exact (List.dropWhile_sublist _).subset hb

theorem splitFirst?_eq_none {c : Char} {pattern s : List Char} (h : c ∉ s) :
    splitFirst? (c :: pattern) s = none := by
  induction s with
  | nil => rfl
  | cons d s ih =>
    have hd : c ≠ d := fun e => h (e ▸ List.mem_cons_self)
    have hp : (c :: pattern).isPrefixOf (d :: s) = false := by simp [List.isPrefixOf, hd]
    rw [splitFirst?, if_neg (by simp [hp]), ih fun hm => h (List.mem_cons_of_mem d hm)]
    rfl

variable {pattern s before after first second : List Char} {separator : Char} {rest : List (List Char)}

theorem eq_of_splitFirst? (h : splitFirst? pattern s = some (before, after)) :
    s = before ++ pattern ++ after := by
  induction s generalizing before with
  | nil =>
    rw [splitFirst?] at h
    split at h
    · rename_i hempty
      cases h
      simp [List.isEmpty_iff.mp hempty]
    · cases h
  | cons c s ih =>
    rw [splitFirst?] at h
    split at h
    · rename_i hprefix
      cases h
      exact (List.prefix_iff_eq_append.mp (List.isPrefixOf_iff_prefix.mp hprefix)).symm
    · obtain ⟨⟨front, back⟩, hsplit, hpair⟩ := Option.map_eq_some_iff.mp h
      cases hpair
      rw [ih hsplit]
      rfl

theorem isSome_splitFirst? (h : pattern <:+: s) : (splitFirst? pattern s).isSome = true := by
  induction s with
  | nil => simp [splitFirst?, List.infix_nil.mp h]
  | cons c s ih =>
    rw [splitFirst?]
    split
    · rfl
    · rename_i hprefix
      rcases List.infix_cons_iff.mp h with h | h
      · exact absurd (List.isPrefixOf_iff_prefix.mpr h) hprefix
      · simpa using ih h

section Found

variable {t : List Char} {c : Char}

theorem splitFirst?_none (h : splitFirst? pattern s = none) : ¬ pattern <:+: s := by
  intro hp
  rw [← Option.not_isSome_iff_eq_none] at h
  exact h (isSome_splitFirst? hp)

theorem splitFirst?_of_not_piece (h : ¬ pattern <:+: s) : splitFirst? pattern s = none := by
  rw [Option.eq_none_iff_forall_ne_some]
  rintro ⟨before, after⟩ hs
  rw [eq_of_splitFirst? hs] at h
  exact h (List.infix_append before pattern after)

theorem splitFirst?_pattern (pattern t : List Char) (h : pattern ≠ []) :
    splitFirst? pattern (pattern ++ t) = some ([], t) := by
  cases pattern with
  | nil => exact absurd rfl h
  | cons c pattern =>
    rw [List.cons_append, splitFirst?, ← List.cons_append, if_pos (by simp)]
    simp

theorem splitFirst?_append (h : splitFirst? pattern s = some (before, after)) :
    splitFirst? pattern (s ++ t) = some (before, after ++ t) := by
  induction s generalizing before with
  | nil =>
    rw [splitFirst?] at h
    split at h
    · rename_i hempty
      cases h
      rw [List.isEmpty_iff.mp hempty]
      cases t <;> simp [splitFirst?]
    · cases h
  | cons c s ih =>
    rw [splitFirst?] at h
    rw [List.cons_append, splitFirst?, ← List.cons_append]
    split at h
    · rename_i hp
      cases h
      have hfront := List.isPrefixOf_iff_prefix.mp hp
      rw [if_pos (List.isPrefixOf_iff_prefix.mpr (hfront.trans (List.prefix_append _ _))),
        List.drop_append_of_le_length hfront.length_le]
    · rename_i hp
      obtain ⟨⟨front, back⟩, hs, hpair⟩ := Option.map_eq_some_iff.mp h
      cases hpair
      have hnot : ¬ pattern.isPrefixOf (c :: s ++ t) = true := by
        intro hlong
        -- The pattern fits into the shorter text, so it would begin it as well.
        have hfits : pattern.length ≤ (c :: s).length := by
          rw [List.length_cons, congrArg List.length (eq_of_splitFirst? hs)]
          simp only [List.length_append]
          omega
        have hshort := List.prefix_of_prefix_length_le (List.isPrefixOf_iff_prefix.mp hlong)
          (List.prefix_append (c :: s) t) hfits
        exact hp (List.isPrefixOf_iff_prefix.mpr hshort)
      rw [if_neg hnot, ih hs]
      rfl

theorem splitFirst?_across (hs : splitFirst? pattern s = none) (hc : c ∉ pattern) :
    splitFirst? pattern (s ++ c :: t) =
      (splitFirst? pattern t).map fun (before, after) => (s ++ c :: before, after) := by
  induction s with
  | nil =>
    have hne : pattern ≠ [] := by
      rintro rfl
      cases hs
    have hnot : ¬ pattern.isPrefixOf (c :: t) = true := by
      intro hp
      obtain ⟨d, pattern, rfl⟩ := List.exists_cons_of_ne_nil hne
      obtain ⟨rfl, -⟩ := List.cons_prefix_cons.mp (List.isPrefixOf_iff_prefix.mp hp)
      exact hc List.mem_cons_self
    rw [List.nil_append, splitFirst?, if_neg hnot]
    rfl
  | cons d s ih =>
    have htail : splitFirst? pattern s = none := by
      rw [splitFirst?] at hs
      split at hs
      · cases hs
      · simpa using hs
    have hnot : ¬ pattern.isPrefixOf (d :: (s ++ c :: t)) = true := by
      intro hp
      have hprefix : pattern <+: (d :: s) ++ c :: t := List.isPrefixOf_iff_prefix.mp hp
      rcases Nat.le_total pattern.length (d :: s).length with hle | hle
      · have hshort := List.prefix_of_prefix_length_le hprefix (List.prefix_append _ _) hle
        exact splitFirst?_none hs hshort.isInfix
      · -- A longer pattern would have to hold the character.
        obtain ⟨more, rfl⟩ := List.prefix_of_prefix_length_le (List.prefix_append _ _) hprefix hle
        rw [List.prefix_append_right_inj] at hprefix
        cases more with
        | nil => exact splitFirst?_none hs (by simp)
        | cons e more =>
          obtain ⟨rfl, -⟩ := List.cons_prefix_cons.mp hprefix
          exact hc (by simp)
    rw [List.cons_append, splitFirst?, if_neg hnot, ih htail, Option.map_map]
    rfl

section Trim

variable (hp : pattern ≠ []) (hv : ∀ c ∈ pattern, isBlank c = false)

include hp hv

theorem splitFirst?_blank (hc : isBlank c = true) :
    splitFirst? pattern (c :: s) =
      (splitFirst? pattern s).map fun (before, after) => (c :: before, after) := by
  have hmem : c ∉ pattern := by
    intro hm
    rw [hv c hm] at hc
    cases hc
  have hnil : splitFirst? pattern [] = none := by
    rw [splitFirst?, if_neg (by simpa using hp)]
  exact splitFirst?_across hnil hmem

theorem splitFirst?_trimFront (s : List Char) :
    splitFirst? pattern (trimFront s) =
      (splitFirst? pattern s).map fun (before, after) => (trimFront before, after) := by
  induction s with
  | nil => rw [splitFirst?, if_neg (by simpa using hp)]; simp [trimFront, splitFirst?, hp]
  | cons c s ih =>
    by_cases hc : isBlank c = true
    · have hdrop (s : List Char) : trimFront (c :: s) = trimFront s :=
        List.dropWhile_cons_of_pos hc
      rw [hdrop, ih, splitFirst?_blank hp hv hc, Option.map_map]
      congr 1
      funext cut
      exact Prod.ext (hdrop cut.1).symm rfl
    · have hkeep (s : List Char) : trimFront (c :: s) = c :: s :=
        List.dropWhile_cons_of_neg hc
      rw [hkeep, splitFirst?]
      split
      · rfl
      · rw [Option.map_map]
        congr 1
        funext cut
        exact Prod.ext (hkeep cut.1).symm rfl

theorem splitFirst?_append_blank {w : List Char} (hw : ∀ c ∈ w, isBlank c = true)
    (hs : splitFirst? pattern s = none) : splitFirst? pattern (s ++ w) = none := by
  cases w with
  | nil => rw [List.append_nil, hs]
  | cons c w =>
    have hmem {d : Char} (hd : d ∈ c :: w) : d ∉ pattern := by
      intro hm
      have hblank := hw d hd
      rw [hv d hm] at hblank
      cases hblank
    obtain ⟨d, pattern, rfl⟩ := List.exists_cons_of_ne_nil hp
    have hw' : splitFirst? (d :: pattern) w = none :=
      splitFirst?_eq_none fun hd => hmem (List.mem_cons_of_mem c hd) List.mem_cons_self
    rw [splitFirst?_across hs (hmem List.mem_cons_self), hw']
    rfl

end Trim

end Found

theorem containsText_of_piece {s pattern : String} (h : pattern.toList <:+: s.toList) :
    containsText s pattern = true :=
  isSome_splitFirst? h

theorem trimFront_back (s : List Char) : trimFront s <:+ s := List.dropWhile_suffix isBlank

theorem trimBack_front (s : List Char) : trimBack s <+: s := by
  have h : s.reverse.dropWhile isBlank <:+ s.reverse := List.dropWhile_suffix isBlank
  rw [← List.reverse_prefix, List.reverse_reverse] at h
  exact h

theorem trimChars_piece (s : List Char) : trimChars s <:+: s :=
  (trimBack_front _).isInfix.trans (trimFront_back s).isInfix

theorem trim_piece (s : String) : (trim s).toList <:+: s.toList := by
  rw [trim, String.toList_ofList]
  exact trimChars_piece _

theorem dropFront_piece (front s : String) : (dropFront front s).toList <:+: s.toList := by
  rw [dropFront]
  split
  · rw [String.toList_ofList]
    exact (List.drop_suffix _ _).isInfix
  · exact List.infix_rfl

theorem toList_lower_append (s t : String) :
    (lower (s ++ t)).toList = (lower s).toList ++ (lower t).toList := by
  simp [lower]

theorem lower_piece {s t : String} (h : s.toList <:+: t.toList) :
    (lower s).toList <:+: (lower t).toList := by
  obtain ⟨before, after, h⟩ := h
  simp only [lower, String.toList_ofList, ← h, List.flatMap_append]
  exact List.infix_append _ _ _

theorem splitAt_front (h : splitAt separator s = first :: rest) : first <+: s := by
  induction s generalizing first rest with
  | nil =>
    cases h
    exact List.prefix_rfl
  | cons c s ih =>
    rw [splitAt] at h
    split at h
    · cases h
      exact List.nil_prefix
    · split at h
      · rename_i hnil
        exact absurd hnil (splitAt_ne_nil separator s)
      · rename_i part parts hs
        cases h
        exact (List.prefix_cons_inj c).mpr (ih hs)

theorem splitAt_front_two (h : splitAt separator s = first :: second :: rest) :
    first ++ separator :: second <+: s := by
  induction s generalizing first with
  | nil => cases h
  | cons c s ih =>
    rw [splitAt] at h
    split at h
    · rename_i hc
      obtain ⟨rfl, hs⟩ := List.cons.inj h
      rw [beq_iff_eq.mp hc, List.nil_append]
      exact (List.prefix_cons_inj separator).mpr (splitAt_front hs)
    · split at h
      · cases h
      · rename_i part parts hs
        obtain ⟨rfl, rfl⟩ := List.cons.inj h
        exact (List.prefix_cons_inj c).mpr (ih hs)

theorem splitAt_eq_singleton (h : separator ∉ s) : splitAt separator s = [s] := by
  induction s with
  | nil => rfl
  | cons d s ih =>
    have hd : (d == separator) = false := by
      simpa using fun e : d = separator => h (e ▸ List.mem_cons_self)
    rw [splitAt, hd, ih fun hm => h (List.mem_cons_of_mem d hm)]
    rfl

theorem splitAt_append_cons (separator : Char) (front back : List Char) :
    splitAt separator (front ++ separator :: back) =
      splitAt separator front ++ splitAt separator back := by
  induction front with
  | nil => simp [splitAt]
  | cons c front ih =>
    obtain ⟨part, parts, hparts⟩ := List.exists_cons_of_ne_nil (splitAt_ne_nil separator front)
    rw [List.cons_append, splitAt, splitAt, ih, hparts]
    split <;> rfl

theorem dottedParts_append (p q : String) :
    dottedParts (p ++ "." ++ q) = dottedParts p ++ dottedParts q := by
  have hchars : (p ++ "." ++ q).toList = p.toList ++ '.' :: q.toList := by simp
  rw [dottedParts, hchars, splitAt_append_cons, List.map_append]
  rfl

theorem dottedParts_eq_singleton {p : String} (h : '.' ∉ p.toList) : dottedParts p = [p] := by
  rw [dottedParts, splitAt_eq_singleton h, List.map_singleton, String.ofList_toList]

theorem dottedParts_blank {p : String} (h : isBlankText p = true) : dottedParts p = [p] := by
  refine dottedParts_eq_singleton fun hm => ?_
  have hblank : isBlank '.' = true := List.all_eq_true.mp h '.' hm
  exact absurd hblank (by decide)

end FlowEngine.Text
