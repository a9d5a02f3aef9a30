import FlowEngine.Proofs.Condition.Coherent
import FlowEngine.Proofs.Number.Written

/-!
# Comparing integers

Two integer literals are compared as the doubles to which the integers are rounded. So a comparison is
exact unless different integers are rounded to the same double, and then it takes them as equal. Of
integers up to `2 ^ 53` no two are rounded to the same double.
-/

namespace FlowEngine.Condition

open Double

theorem map_eq_iff {α β : Type} {f : α → β} {x y : α} (h : x = y ∨ f x ≠ f y) :
    f x = f y ↔ x = y := by
  rcases h with rfl | h
  · simp
  · exact iff_of_false h fun he => h (congrArg f he)

section Rounding

variable {α β : Type} [LinearOrder α] [LinearOrder β] {f : α → β} (hf : Monotone f) {x y : α}
  (h : x = y ∨ f x ≠ f y)

include hf h

theorem map_lt_iff : f x < f y ↔ x < y := by
  rcases h with rfl | h
  · simp
  · exact ⟨hf.reflect_lt, fun hlt => lt_of_le_of_ne (hf hlt.le) h⟩

theorem Relation.between_map (r : Relation) : r.between (f x) (f y) = r.between x y := by
  have hback : y = x ∨ f y ≠ f x := h.imp Eq.symm Ne.symm
  cases r <;>
    simp only [between, map_eq_iff h, map_lt_iff hf h, map_lt_iff hf hback, ← not_lt, ne_eq]

theorem Sign.between_map (sign : Sign) : sign.between (f x) (f y) = sign.between x y := by
  have hback : y = x ∨ f y ≠ f x := h.imp Eq.symm Ne.symm
  simp only [Sign.between, map_eq_iff h, map_lt_iff hf h, map_lt_iff hf hback]

end Rounding

theorem place?_literal (l : Literal) : place? (some l.text) = some (nearest l.value) := by
  have hplace := place?_ofRatio l.negative l.magnitude
  have hnan : ¬ (ofRatio l.negative l.magnitude 1).isNan = true := by
    rw [← place?_eq_none_iff, hplace]
    simp
  have hnumber : number? (some l.text) = some (ofRatio l.negative l.magnitude 1) := by
    simp only [number?, l.ofText?_text, if_neg hnan]
  rw [place?, hnumber, Option.bind_some, hplace, Literal.value, nearest_signed]

/-- Integers are compared exactly as long as they are the same or rounded to different doubles, as any
two up to `2 ^ 53` are. Integers that are rounded to the same double are taken as equal. -/
theorem literals_compared (a b : Literal) :
    let same := sameValue (ofInteger a.value) (ofInteger b.value)
    (a.value = b.value ∨ same = false →
      (∀ r : Relation, r.holds (some a.text) (some b.text) = r.between a.value b.value) ∧
      ∀ sign, loopHolds a.text sign b.text = sign.between a.value b.value) ∧
    (same = true →
      (∀ r : Relation, r.holds (some a.text) (some b.text) = r.between a.value a.value) ∧
      ∀ sign, loopHolds a.text sign b.text = sign.between a.value a.value) ∧
    (a.value.natAbs ≤ 2 ^ 53 → b.value.natAbs ≤ 2 ^ 53 → same = true → a.value = b.value) := by
  have hsame : sameValue (ofInteger a.value) (ofInteger b.value) =
      decide (nearest a.value = nearest b.value) :=
    sameValue_eq (place?_ofInteger _) (place?_ofInteger _)
  dsimp only
  simp only [hsame, decide_eq_false_iff_not, decide_eq_true_eq,
    holds_places (place?_literal a) (place?_literal b),
    loopHolds_places (place?_literal a) (place?_literal b)]
  refine ⟨fun h => ⟨fun r => ?_, fun sign => ?_⟩, fun h => ⟨fun r => ?_, fun sign => ?_⟩,
    fun ha hb h => ?_⟩
  · exact Relation.between_map (fun _ _ => nearest_mono) h r
  · exact Sign.between_map (fun _ _ => nearest_mono) h sign
  · rw [← h]
    exact Relation.between_map (fun _ _ => nearest_mono) (.inl rfl) r
  · rw [← h]
    exact Sign.between_map (fun _ _ => nearest_mono) (.inl rfl) sign
  · rw [nearest_of_le ha, nearest_of_le hb] at h
    simpa using h

namespace Neighbours

/-- The last integer up to which all integers are doubles. -/
def last : Literal := ⟨false, "9007199254740992".toList, by decide, List.all_eq_true.mp (by decide)⟩

def before : Literal := ⟨false, "9007199254740991".toList, by decide, List.all_eq_true.mp (by decide)⟩

def behind : Literal := ⟨false, "9007199254740993".toList, by decide, List.all_eq_true.mp (by decide)⟩

theorem literals_compared_before :
    before.value.natAbs ≤ 2 ^ 53 ∧ last.value.natAbs ≤ 2 ^ 53 ∧
      sameValue (ofInteger before.value) (ofInteger last.value) = false ∧
      Relation.holds .less (some "9007199254740991") (some "9007199254740992") = true := by
  have hbefore : before.value.natAbs ≤ 2 ^ 53 := by decide
  have hlast : last.value.natAbs ≤ 2 ^ 53 := by decide
  obtain ⟨hexact, -, hsmall⟩ := literals_compared before last
  have hdiffer : sameValue (ofInteger before.value) (ofInteger last.value) = false := by
    rw [Bool.eq_false_iff]
    exact fun h => absurd (hsmall hbefore hlast h) (by decide)
  exact ⟨hbefore, hlast, hdiffer, ((hexact (.inr hdiffer)).1 .less).trans (by decide)⟩

/-- The integer behind the last one is taken as equal to it. -/
theorem last_equals_behind :
    ¬ ∀ a b : Literal,
      (∀ r : Relation, r.holds (some a.text) (some b.text) = r.between a.value b.value) ∧
        ∀ sign, loopHolds a.text sign b.text = sign.between a.value b.value := by
  intro hall
  have hequal := (hall behind last).1 .equal
  revert hequal
  decide

end Neighbours

end FlowEngine.Condition
