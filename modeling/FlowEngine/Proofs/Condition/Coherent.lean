import Mathlib.Data.String.Basic
import FlowEngine.Condition.Compare
import FlowEngine.Proofs.Number.Rounding

/-!
# How operands are compared

Two operands that are numbers are compared by their places among the doubles. Where one of them is no
number a branch compares texts; a loop does so too, unless the operand on its left is a word for a
truth value.

Two operands of a branch are equal where they stand at the same place or, where one of them is no
number, where their texts are the same. This is one equality for all operands, although it depends on
both of them how they are compared: what is a number never has the text of what is none. On numbers the
other relations are those of the order of doubles, and without two numbers there is no order.
-/

namespace FlowEngine.Condition

open Double

variable {a b c : Option String} {left right : String} {p q : Place} {r : Relation} {sign : Sign}

namespace Relation

def word : Relation → String
  | .greater => "GT"
  | .less => "LT"
  | .atLeast => "GTE"
  | .atMost => "LTE"
  | .equal => "EQ"
  | .different => "NEQ"
  | .contains => "CONTAINS"

/-- Whether a branch finds a relation between two operands. -/
def holds (r : Relation) (a b : Option String) : Bool := branchHolds a (some r.word) b

/-- What a relation says of two members of a linear order. -/
def between {α : Type} [LinearOrder α] (r : Relation) (x y : α) : Bool :=
  match r with
  | .greater => decide (y < x)
  | .less => decide (x < y)
  | .atLeast => decide (y ≤ x)
  | .atMost => decide (x ≤ y)
  | .equal => decide (x = y)
  | .different => decide (x ≠ y)
  | .contains => false

theorem relation?_word (r : Relation) : relation? r.word = some r := by cases r <;> decide

/-- Any other word for the relation, in small letters or with white space around it, does as well. -/
theorem branchHolds_of_relation? {word : String} (h : relation? word = some r) :
    branchHolds a (some word) b = r.holds a b := by
  simp only [holds, branchHolds, Option.getD_some, h, r.relation?_word]

theorem holdsForNumbers_eq {d e : Double} (hp : d.place? = some p) (hq : e.place? = some q) :
    r.holdsForNumbers d e = r.between p q := by
  cases r <;>
    simp only [holdsForNumbers, between, less_eq hp hq, less_eq hq hp, lessOrSame_eq hp hq,
      lessOrSame_eq hq hp, sameValue_eq hp hq, decide_not]

end Relation

def Sign.between {α : Type} [LinearOrder α] (sign : Sign) (x y : α) : Bool :=
  sign.holds (decide (x = y)) (decide (x < y)) (decide (y < x))

/-- The place of an operand that is a number. -/
def place? (operand : Option String) : Option Place := (number? operand).bind Double.place?

theorem not_isNan_of_number? {d : Double} (h : number? a = some d) : d.isNan = false := by
  unfold number? at h
  split at h
  · cases h
  · split at h
    · split at h
      · cases h
      · rename_i hnan
        cases h
        exact Bool.eq_false_iff.mpr hnan
    · cases h

theorem isSome_place? (a : Option String) : (place? a).isSome = (number? a).isSome := by
  cases h : number? a with
  | none =>
    rw [place?, h]
    rfl
  | some d =>
    rw [place?, h, Option.bind_some, Option.isSome_some, Option.isSome_iff_ne_none, ne_eq,
      place?_eq_none_iff, not_isNan_of_number? h]
    exact Bool.false_ne_true

theorem number?_of_place? (h : place? a = none) : number? a = none := by
  rw [← Option.isNone_iff_eq_none, ← Option.not_isSome, ← isSome_place?, h]
  rfl

/-- A missing operand is no number, and neither is the empty text that it counts as. -/
theorem place?_getD (a : Option String) : place? (some (a.getD "")) = place? a := by
  cases a <;> rfl

theorem holds_places (hp : place? a = some p) (hq : place? b = some q) :
    r.holds a b = r.between p q := by
  obtain ⟨d, hd, hdp⟩ := Option.bind_eq_some_iff.mp hp
  obtain ⟨e, he, heq⟩ := Option.bind_eq_some_iff.mp hq
  simp only [Relation.holds, branchHolds, Option.getD_some, r.relation?_word, hd, he]
  exact Relation.holdsForNumbers_eq hdp heq

theorem holds_texts (h : place? a = none ∨ place? b = none) :
    r.holds a b = r.holdsForTexts (a.getD "") (b.getD "") := by
  simp only [Relation.holds, branchHolds, Option.getD_some, r.relation?_word]
  rcases h with h | h
  · rw [number?_of_place? h]
  · rw [number?_of_place? h]
    cases number? a <;> rfl

theorem loopHolds_places (hp : place? (some left) = some p) (hq : place? (some right) = some q) :
    loopHolds left sign right = sign.between p q := by
  obtain ⟨d, hd, hdp⟩ := Option.bind_eq_some_iff.mp hp
  obtain ⟨e, he, heq⟩ := Option.bind_eq_some_iff.mp hq
  simp only [loopHolds, hd, he, Sign.between, sameValue_eq hdp heq, less_eq hdp heq,
    less_eq heq hdp]

theorem loopHolds_texts (h : place? (some left) = none ∨ place? (some right) = none)
    (hw : isTruthWord left = false) : loopHolds left sign right = sign.between left right := by
  have hsame : (left == right) = decide (left = right) := by
    rw [Bool.eq_iff_iff, beq_iff_eq, decide_eq_true_iff]
  rcases h with h | h
  · simp only [loopHolds, number?_of_place? h, hw, Bool.false_eq_true, if_false, Sign.between, hsame]
  · cases hn : number? (some left) <;>
      simp only [loopHolds, number?_of_place? h, hn, hw, Bool.false_eq_true, if_false, Sign.between,
        hsame]

namespace Relation

def ordering : List Relation := [.greater, .less, .atLeast, .atMost]

section Between

variable {α : Type} [LinearOrder α] (x y : α)

theorem between_one :
    [between .less x y, between .equal x y, between .greater x y].count true = 1 := by
  rcases lt_trichotomy x y with h | rfl | h
  · simp [between, h, h.ne, h.not_gt]
  · simp [between]
  · simp [between, h, h.ne', h.not_gt]

theorem between_atMost : between .atMost x y = (between .less x y || between .equal x y) := by
  simp only [between, le_iff_lt_or_eq, Bool.decide_or]

theorem between_atLeast :
    between .atLeast x y = (between .greater x y || between .equal x y) := by
  simp only [between, le_iff_lt_or_eq, Bool.decide_or, eq_comm]

end Between

end Relation

/-- What an operand is told by: its place if it is a number, and its text if not. -/
def mark (a : Option String) : Place ⊕ String :=
  match place? a with
  | some p => .inl p
  | none => .inr (a.getD "")

theorem holds_equal_iff (a b : Option String) :
    Relation.holds .equal a b = true ↔ mark a = mark b := by
  -- Operands of the same text are both numbers or both none.
  have hplace (h : a.getD "" = b.getD "") : place? a = place? b := by
    rw [← place?_getD a, h, place?_getD]
  unfold mark
  cases ha : place? a with
  | some p =>
    cases hb : place? b with
    | some q =>
      rw [holds_places ha hb, Sum.inl.injEq]
      exact decide_eq_true_iff
    | none =>
      rw [holds_texts (.inr hb)]
      refine iff_of_false (fun h => ?_) Sum.inl_ne_inr
      have hboth := hplace (beq_iff_eq.mp h)
      rw [ha, hb] at hboth
      cases hboth
  | none =>
    rw [holds_texts (.inl ha)]
    cases hb : place? b with
    | some q =>
      refine iff_of_false (fun h => ?_) Sum.inr_ne_inl
      have hboth := hplace (beq_iff_eq.mp h)
      rw [ha, hb] at hboth
      cases hboth
    | none =>
      rw [Sum.inr.injEq]
      exact beq_iff_eq

theorem holds_different (a b : Option String) :
    Relation.holds .different a b = !Relation.holds .equal a b := by
  cases ha : place? a with
  | some p =>
    cases hb : place? b with
    | some q =>
      rw [holds_places ha hb, holds_places ha hb]
      exact decide_not
    | none =>
      rw [holds_texts (.inr hb), holds_texts (.inr hb)]
      rfl
  | none =>
    rw [holds_texts (.inl ha), holds_texts (.inl ha)]
    rfl

theorem exists_places (hr : r ∈ Relation.ordering) (h : r.holds a b = true) :
    ∃ p q, place? a = some p ∧ place? b = some q := by
  have hnot (hn : place? a = none ∨ place? b = none) : False := by
    rw [holds_texts hn] at h
    cases r with
    | equal | different | contains => exact absurd hr (by decide)
    | greater | less | atLeast | atMost => cases h
  cases ha : place? a with
  | none => exact (hnot (.inl ha)).elim
  | some p =>
    cases hb : place? b with
    | none => exact (hnot (.inr hb)).elim
    | some q => exact ⟨p, q, rfl, rfl⟩

theorem holds_less_iff (a b : Option String) :
    Relation.holds .less a b = true ↔ ∃ p q, place? a = some p ∧ place? b = some q ∧ p < q := by
  constructor
  · intro h
    obtain ⟨p, q, hp, hq⟩ := exists_places (by decide) h
    rw [holds_places hp hq] at h
    exact ⟨p, q, hp, hq, of_decide_eq_true h⟩
  · rintro ⟨p, q, hp, hq, hlt⟩
    rw [holds_places hp hq]
    exact decide_eq_true hlt

theorem holds_mirrored (a b : Option String) :
    Relation.holds .less a b = Relation.holds .greater b a := by
  cases ha : place? a with
  | none =>
    rw [holds_texts (.inl ha), holds_texts (.inr ha)]
    rfl
  | some p =>
    cases hb : place? b with
    | none =>
      rw [holds_texts (.inr hb), holds_texts (.inl hb)]
      rfl
    | some q =>
      rw [holds_places ha hb, holds_places hb ha]
      rfl

theorem holds_less_trans (hab : Relation.holds .less a b = true)
    (hbc : Relation.holds .less b c = true) : Relation.holds .less a c = true := by
  obtain ⟨p, q, hp, hq, hpq⟩ := (holds_less_iff a b).mp hab
  obtain ⟨q', o, hq', ho, hqo⟩ := (holds_less_iff b c).mp hbc
  rw [hq] at hq'
  cases hq'
  exact (holds_less_iff a c).mpr ⟨p, o, hp, ho, hpq.trans hqo⟩

/-- Whatever relation is asked for, two numbers are compared at the same two places. -/
theorem exists_holds_eq (ha : (number? a).isSome = true) (hb : (number? b).isSome = true) :
    ∃ p q : Place, ∀ r : Relation, r.holds a b = r.between p q := by
  rw [← isSome_place?] at ha hb
  obtain ⟨p, hp⟩ := Option.isSome_iff_exists.mp ha
  obtain ⟨q, hq⟩ := Option.isSome_iff_exists.mp hb
  exact ⟨p, q, fun r => holds_places hp hq⟩

/-- One equality for all operands, and one order for those that are numbers. -/
structure Coherent (holds : Relation → Option String → Option String → Bool)
    (IsNumber : Option String → Prop) : Prop where
  equivalence : Equivalence fun a b => holds .equal a b = true
  different : ∀ a b, holds .different a b = !holds .equal a b
  one : ∀ a b, IsNumber a → IsNumber b →
    [holds .less a b, holds .equal a b, holds .greater a b].count true = 1
  atMost : ∀ a b, IsNumber a → IsNumber b →
    holds .atMost a b = (holds .less a b || holds .equal a b)
  atLeast : ∀ a b, IsNumber a → IsNumber b →
    holds .atLeast a b = (holds .greater a b || holds .equal a b)
  mirrored : ∀ a b, holds .less a b = holds .greater b a
  less_trans : ∀ a b c, holds .less a b = true → holds .less b c = true → holds .less a c = true
  greater_trans : ∀ a b c, holds .greater a b = true → holds .greater b c = true →
    holds .greater a c = true
  unordered : ∀ a b, ¬ (IsNumber a ∧ IsNumber b) → ∀ r ∈ Relation.ordering, holds r a b = false

/-- The relations that a branch finds between operands are coherent, whatever the operands are: they
are equal where they are told by the same mark, and one is less where both are numbers and it stands
before the other. -/
theorem branch_coherent :
    Coherent Relation.holds (fun a => (number? a).isSome = true) ∧
      (∀ a b, Relation.holds .equal a b = true ↔ mark a = mark b) ∧
      ∀ a b, Relation.holds .less a b = true ↔
        ∃ p q, place? a = some p ∧ place? b = some q ∧ p < q := by
  refine ⟨?_, holds_equal_iff, holds_less_iff⟩
  refine {
    equivalence := ⟨fun a => ?_, fun hab => ?_, fun hab hbc => ?_⟩
    different := holds_different
    one := fun a b ha hb => ?_
    atMost := fun a b ha hb => ?_
    atLeast := fun a b ha hb => ?_
    mirrored := holds_mirrored
    less_trans := fun a b c => holds_less_trans
    greater_trans := fun a b c hab hbc => ?_
    unordered := fun a b hnot r hr => ?_ }
  · exact (holds_equal_iff a a).mpr rfl
  · exact (holds_equal_iff _ _).mpr ((holds_equal_iff _ _).mp hab).symm
  · exact (holds_equal_iff _ _).mpr
      (((holds_equal_iff _ _).mp hab).trans ((holds_equal_iff _ _).mp hbc))
  · obtain ⟨p, q, h⟩ := exists_holds_eq ha hb
    simp only [h, Relation.between_one]
  · obtain ⟨p, q, h⟩ := exists_holds_eq ha hb
    simp only [h, Relation.between_atMost]
  · obtain ⟨p, q, h⟩ := exists_holds_eq ha hb
    simp only [h, Relation.between_atLeast]
  · rw [← holds_mirrored] at hab hbc ⊢
    exact holds_less_trans hbc hab
  · rw [Bool.eq_false_iff]
    intro h
    obtain ⟨p, q, hp, hq⟩ := exists_places hr h
    refine hnot ⟨?_, ?_⟩
    · rw [← isSome_place?, hp]
      rfl
    · rw [← isSome_place?, hq]
      rfl

-- A numeral of another script is a number, with white space around it or not; `nan` is none.
example : Relation.holds .equal (some "٣") (some " 3.0") = true ∧
    Relation.holds .equal (some "3") (some "nan") = false := by decide

end FlowEngine.Condition
