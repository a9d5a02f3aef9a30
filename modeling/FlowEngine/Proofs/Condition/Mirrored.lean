import FlowEngine.Proofs.Condition.Coherent
import FlowEngine.Proofs.Number.Written

/-!
# Comparisons read from right to left

A comparison of a loop says the same when its sides change places and its sign is turned round, as long
as both sides are words for truth values or none is. It is the left side alone that decides whether
truth values are compared, so a word and another text are compared in two ways.
-/

namespace FlowEngine

namespace Condition

open Numeral

def truthFronts : List Char := ['t', 'T', 'f', 'F']

section Front

variable {c : Char} (hc : c ∈ truthFronts)

include hc

theorem of_truthFronts (p : Char → Prop) [DecidablePred p]
    (h : (truthFronts.all fun c => p c) = true) : p c :=
  of_decide_eq_true (List.all_eq_true.mp h c hc)

/-- There is no number without a digit or a point in front. -/
theorem magnitude?_front (negative : Bool) (s : List Char) : magnitude? negative (c :: s) = none := by
  have hdigit : ¬ c.isDigit = true := of_truthFronts hc (¬ ·.isDigit = true) (by decide)
  have hpoint : c ≠ '.' := of_truthFronts hc (· ≠ '.') (by decide)
  have hspan : spanDigits (c :: s) = ([], c :: s) := by
    rw [spanDigits, List.takeWhile_cons_of_neg hdigit, List.dropWhile_cons_of_neg hdigit]
  unfold magnitude?
  rw [hspan]
  dsimp only
  split
  · rename_i heq
    cases heq
    exact absurd rfl hpoint
  · rfl

theorem double?_front (s : List Char) : double? (c :: s) = none := by
  have hplain : plainChar c = c := of_truthFronts hc (fun c => plainChar c = c) (by decide)
  have hunder : c ≠ '_' := of_truthFronts hc (· ≠ '_') (by decide)
  -- Leaving out underscores does not change the first character.
  have hfirst (plain : List Char) (h : (if (c :: s).contains '_' then
      dropUnderscores none ((c :: s).map plainChar) else some ((c :: s).map plainChar)) = some plain) :
      ∃ rest, plain = c :: rest := by
    rw [List.map_cons, hplain] at h
    split at h
    · rw [dropUnderscores] at h
      · obtain ⟨rest, -, rfl⟩ := Option.map_eq_some_iff.mp h
        exact ⟨rest, rfl⟩
      · simpa using hunder
    · cases h
      exact ⟨_, rfl⟩
  unfold double?
  split
  · rfl
  · rename_i plain heq
    obtain ⟨rest, rfl⟩ := hfirst plain heq
    have hsign : spanSign (c :: rest) = (false, c :: rest) := by
      unfold spanSign
      split
      · rename_i heq
        cases heq
        exact absurd hc (by decide)
      · rename_i heq
        cases heq
        exact absurd hc (by decide)
      · rfl
    have hword (word : String) (hw : c.toLower ∉ word.toList.head?) :
        (String.ofList ((c :: rest).map Char.toLower) == word) = false := by
      rw [beq_eq_false_iff_ne]
      rintro rfl
      exact hw (by simp)
    simp only [hsign]
    rw [hword _ (of_truthFronts hc (·.toLower ∉ "inf".toList.head?) (by decide)),
      hword _ (of_truthFronts hc (·.toLower ∉ "infinity".toList.head?) (by decide)),
      hword _ (of_truthFronts hc (·.toLower ∉ "nan".toList.head?) (by decide))]
    exact magnitude?_front hc false rest

end Front

theorem mem_truthFronts {c : Char} {s : List Char}
    (h : Text.lowerChar c = 't' :: s ∨ Text.lowerChar c = 'f' :: s) : c ∈ truthFronts := by
  unfold Text.lowerChar at h
  split at h
  · rename_i hascii
    have hall : ∀ n < 128, (Char.ofNat n).toLower = 't' ∨ (Char.ofNat n).toLower = 'f' →
        Char.ofNat n ∈ truthFronts := by decide
    have hc := hall c.toNat hascii
    rw [Char.ofNat_toNat] at hc
    exact hc (h.imp (fun h => (List.cons.inj h).1) fun h => (List.cons.inj h).1)
  · split at h
    · simp at h
    · split at h
      · simp at h
      · rcases h with h | h
        · simp [(List.cons.inj h).1, truthFronts]
        · simp [(List.cons.inj h).1, truthFronts]

theorem lowerChar_ne_nil (c : Char) : Text.lowerChar c ≠ [] := by
  unfold Text.lowerChar
  split
  · simp
  · split
    · simp
    · split <;> simp

theorem place?_of_isTruthWord {s : String} (h : isTruthWord s = true) : place? (some s) = none := by
  have hlower : s.toList.flatMap Text.lowerChar = ['t', 'r', 'u', 'e'] ∨
      s.toList.flatMap Text.lowerChar = ['f', 'a', 'l', 's', 'e'] := by
    rw [isTruthWord, Bool.or_eq_true, beq_iff_eq, beq_iff_eq] at h
    refine h.imp (fun h => ?_) fun h => ?_
    · simpa [Text.lower] using congrArg String.toList h
    · simpa [Text.lower] using congrArg String.toList h
  obtain ⟨c, rest, hs, hc⟩ : ∃ c rest, s.toList = c :: rest ∧ c ∈ truthFronts := by
    cases hs : s.toList with
    | nil => simp [hs] at hlower
    | cons c rest =>
      obtain ⟨d, more, hd⟩ := List.exists_cons_of_ne_nil (lowerChar_ne_nil c)
      rw [hs, List.flatMap_cons, hd, List.cons_append] at hlower
      refine ⟨c, rest, rfl, mem_truthFronts (s := more) (hlower.imp (fun h => ?_) fun h => ?_)⟩
      · rw [hd, (List.cons.inj h).1]
      · rw [hd, (List.cons.inj h).1]
  have hblank : Text.isBlank c = false :=
    of_truthFronts hc (fun c => Text.isBlank c = false) (by decide)
  obtain ⟨kept, htrim⟩ := Text.trimChars_cons hblank rest
  rw [place?, number?, ofText?, hs, htrim, double?_front hc]
  rfl

namespace Sign

/-- The sign that is meant when the sides change places. -/
def mirrored : Sign → Sign
  | .equal => .equal
  | .different => .different
  | .atMost => .atLeast
  | .atLeast => .atMost
  | .less => .greater
  | .greater => .less

def ordering : List Sign := [.atMost, .atLeast, .less, .greater]

theorem mirrored_mirrored (sign : Sign) : sign.mirrored.mirrored = sign := by cases sign <;> rfl

theorem between_mirrored {α : Type} [LinearOrder α] (sign : Sign) (x y : α) :
    sign.mirrored.between y x = sign.between x y := by
  have hsame : decide (y = x) = decide (x = y) := decide_eq_decide.mpr eq_comm
  cases sign <;> simp only [mirrored, between, holds, hsame]

end Sign

variable {left right : String} {sign : Sign}

theorem loopHolds_different (left right : String) :
    loopHolds left .different right = !loopHolds left .equal right := by
  unfold loopHolds
  split
  · rfl
  · split <;> rfl

theorem loopHolds_unworded (hl : isTruthWord left = false) (hr : isTruthWord right = false) :
    loopHolds left sign right = loopHolds right sign.mirrored left := by
  cases hp : place? (some left) with
  | none =>
    rw [loopHolds_texts (.inl hp) hl, loopHolds_texts (.inr hp) hr, Sign.between_mirrored]
  | some p =>
    cases hq : place? (some right) with
    | none =>
      rw [loopHolds_texts (.inr hq) hl, loopHolds_texts (.inl hq) hr, Sign.between_mirrored]
    | some q => rw [loopHolds_places hp hq, loopHolds_places hq hp, Sign.between_mirrored]

section Word

variable (hl : isTruthWord left = true)

include hl

/-- Beside a word for a truth value any text stands for one, true only if it is the word `true`. -/
theorem loopHolds_word_equal : loopHolds left .equal right =
    ((Text.lower left == "true") == (Text.lower right == "true")) := by
  simp only [loopHolds, number?_of_place? (place?_of_isTruthWord hl), hl, if_true]

theorem loopHolds_word_ordering (hs : sign ∈ Sign.ordering) :
    loopHolds left sign right = false := by
  simp only [loopHolds, number?_of_place? (place?_of_isTruthWord hl), hl, if_true]
  cases sign with
  | equal | different => exact absurd hs (by decide)
  | atMost | atLeast | less | greater => rfl

theorem loopHolds_worded (hr : isTruthWord right = true) :
    loopHolds left sign right = loopHolds right sign.mirrored left := by
  have hequal : loopHolds left .equal right = loopHolds right .equal left := by
    rw [loopHolds_word_equal hl, loopHolds_word_equal hr, Bool.beq_comm]
  cases sign with
  | equal => exact hequal
  | different => rw [Sign.mirrored, loopHolds_different, loopHolds_different, hequal]
  | atMost | atLeast | less | greater =>
    rw [loopHolds_word_ordering hl (by decide), loopHolds_word_ordering hr (by decide)]

theorem loopHolds_word_other (hr : isTruthWord right = false) :
    loopHolds left .equal right = (Text.lower left == "false") := by
  have hright : (Text.lower right == "true") = false := (Bool.or_eq_false_iff.mp hr).1
  rw [loopHolds_word_equal hl, hright]
  rcases Bool.or_eq_true_iff.mp hl with h | h
  · rw [h, beq_iff_eq.mp h]
    decide
  · rw [h, beq_iff_eq.mp h]
    decide

theorem loopHolds_before_word (hr : isTruthWord right = false) :
    loopHolds right sign left = sign.between right left :=
  loopHolds_texts (.inr (place?_of_isTruthWord hl)) hr

/-- A word and another text have an order in one direction only. -/
theorem exists_unmirrored (hr : isTruthWord right = false) :
    ∃ sign, loopHolds left sign right ≠ loopHolds right sign.mirrored left := by
  have hne : left ≠ right := by
    rintro rfl
    rw [hl] at hr
    cases hr
  rcases lt_or_gt_of_ne hne with h | h
  · refine ⟨.less, ?_⟩
    rw [loopHolds_word_ordering hl (by decide), loopHolds_before_word hl hr]
    simpa [Sign.mirrored, Sign.between, Sign.holds] using h
  · refine ⟨.greater, ?_⟩
    rw [loopHolds_word_ordering hl (by decide), loopHolds_before_word hl hr]
    simpa [Sign.mirrored, Sign.between, Sign.holds] using h

end Word

/-- The sides of a comparison may change places exactly where both of them are words for truth values
or none is. A word on the left finds the same truth value in a text as in a word and has no order, and
on the right it is compared as a text. -/
theorem loopHolds_mirrored (left right : String) :
    ((∀ sign, loopHolds left sign right = loopHolds right sign.mirrored left) ↔
      isTruthWord left = isTruthWord right) ∧
    loopHolds left .different right = !loopHolds left .equal right ∧
    (isTruthWord left = true → isTruthWord right = false →
      loopHolds left .equal right = (Text.lower left == "false") ∧
      loopHolds right .equal left = false ∧
      (∀ sign ∈ Sign.ordering, loopHolds left sign right = false) ∧
      ∀ sign ∈ Sign.ordering, loopHolds right sign left = sign.between right left) := by
  refine ⟨⟨fun hall => ?_, fun hsame sign => ?_⟩, loopHolds_different left right, fun hl hr => ?_⟩
  · by_contra hdiffer
    cases hl : isTruthWord left with
    | true =>
      have hr : isTruthWord right = false := by simpa [hl] using Ne.symm hdiffer
      obtain ⟨sign, hsign⟩ := exists_unmirrored hl hr
      exact hsign (hall sign)
    | false =>
      have hr : isTruthWord right = true := by simpa [hl] using Ne.symm hdiffer
      obtain ⟨sign, hsign⟩ := exists_unmirrored hr hl
      refine hsign ?_
      rw [hall sign.mirrored, Sign.mirrored_mirrored]
  · cases hl : isTruthWord left with
    | true => exact loopHolds_worded hl (hsame ▸ hl)
    | false => exact loopHolds_unworded hl (hsame ▸ hl)
  · have hne : right ≠ left := by
      rintro rfl
      rw [hl] at hr
      cases hr
    refine ⟨loopHolds_word_other hl hr, ?_, fun sign => loopHolds_word_ordering hl,
      fun sign _ => loopHolds_before_word hl hr⟩
    rw [loopHolds_before_word hl hr]
    exact decide_eq_false hne

/-- The word `false` is the same as a text on its right, and this is not the same as the word. -/
theorem loopHolds_mirrored_false :
    isTruthWord "false" = true ∧ isTruthWord "x" = false ∧ loopHolds "false" .equal "x" = true ∧
      loopHolds "x" .equal "false" = false := by
  have hl : isTruthWord "false" = true := by decide
  have hr : isTruthWord "x" = false := by decide
  obtain ⟨hword, htext, -⟩ := (loopHolds_mirrored "false" "x").2.2 hl hr
  exact ⟨hl, hr, hword.trans (by decide), htext⟩

theorem sides_not_exchangeable :
    ¬ ∀ left right : String, loopHolds left .equal right = loopHolds right .equal left ∧
      loopHolds left .different right = !loopHolds left .equal right ∧
      loopHolds left .less right = loopHolds right .greater left ∧
      loopHolds left .atMost right = loopHolds right .atLeast left := by
  intro hall
  have hsame := (hall "false" "x").1
  revert hsame
  decide

end Condition

end FlowEngine
