import FlowEngine.Data.Path
import FlowEngine.Proofs.Text.Pieces
import Mathlib.Data.List.TakeWhile
import Mathlib.Logic.Basic

/-!
# Following paths

A path behind another one is looked up in what the first one leads to. Blank paths and blank segments
are no exception: they lead to null, and from null all paths lead to null.

A step into a list by a segment of digits reads them as an integer, and an integer is read from so
many digits only. This is the one fault of a path: all other steps lead on or give null.
-/

namespace FlowEngine.Value

variable {v w : Value} {segment : String} {segments : List String} {fault : Fault} {count : Nat}

/-- Segments that lead to a list and there name a place by more digits than an integer is read
from. -/
def Overlong (v : Value) (segments : List String) (count : Nat) : Prop :=
  ∃ front segment back items digits, segments = front ++ segment :: back ∧
    follow v front = .ok (.list items) ∧
    Text.digits? (Text.trim segment).toList = some digits ∧
    digits.length = count ∧ digitLimit < count

theorem follow_cons (v : Value) (segment : String) (rest : List String) :
    follow v (segment :: rest) = stepInto v segment >>= fun w => follow w rest := by
  cases v with
  | null =>
    have hstep : stepInto .null segment = .ok .null := by
      unfold stepInto
      dsimp only
      split <;> rfl
    rw [hstep]
    exact (follow_null rest).symm
  | _ => rfl

theorem stepInto_blank (h : Text.isBlankText segment = true) : stepInto v segment = .ok .null := by
  have hempty : Text.trim segment = "" := by
    have hfront : segment.toList.dropWhile Text.isBlank = [] :=
      List.dropWhile_eq_nil_iff.mpr (List.all_eq_true.mp h)
    rw [Text.trim, Text.trimChars, Text.trimFront, hfront]
    rfl
  simp [stepInto, hempty]

/-- A blank path is one blank segment, so it is no case of its own. -/
theorem at?_eq_follow (v : Value) (path : String) : v.at? path = follow v (Text.dottedParts path) := by
  unfold at?
  split
  · rename_i hblank
    rw [Text.dottedParts_blank hblank, follow_cons, stepInto_blank hblank]
    rfl
  · rfl

theorem at?_append (v : Value) (p q : String) :
    v.at? (p ++ "." ++ q) = v.at? p >>= fun w => w.at? q := by
  simp only [at?_eq_follow, Text.dottedParts_append]
  exact follow_append v _ _

theorem stepInto_eq_error_iff : stepInto v segment = .error fault ↔
    ∃ items digits, v = .list items ∧
      Text.digits? (Text.trim segment).toList = some digits ∧
      digitLimit < digits.length ∧ fault = .tooManyDigits digits.length := by
  cases v with
  | list items =>
    unfold stepInto
    dsimp only
    split
    · -- Nothing is left of a blank segment, so it has no digits at all.
      rename_i he
      have hnil : (Text.trim segment).toList = [] := by
        rw [String.isEmpty_iff.mp he]
        rfl
      rw [hnil]
      constructor
      · intro h
        cases h
      · rintro ⟨_, digits, -, hd, hl, -⟩
        cases hd
        cases hl
    · cases hd : Text.digits? (Text.trim segment).toList with
      | none =>
        constructor
        · intro h
          cases h
        · rintro ⟨_, _, -, ⟨⟩, -⟩
      | some digits =>
        simp only [itemAt]
        constructor
        · intro h
          split at h
          · rename_i hl
            cases h
            exact ⟨items, digits, rfl, rfl, hl, rfl⟩
          · cases h
        · rintro ⟨_, _, -, hsame, hl, rfl⟩
          cases hsame
          rw [if_pos hl]
  | _ =>
    unfold stepInto
    dsimp only
    constructor
    · intro h
      split at h <;> cases h
    · rintro ⟨_, _, ⟨⟩, -⟩

/-- A step by the segment leads nowhere: there is no such key or place. -/
def Lacks (v : Value) (segment : String) : Prop :=
  match v with
  | .object fields => Text.trim segment = "" ∨ Entries.get? fields (Text.trim segment) = none
  | .list items =>
    ∀ digits, Text.digits? (Text.trim segment).toList = some digits →
      digits.length ≤ digitLimit ∧ items.length ≤ Text.digitsValue digits
  | _ => True

theorem Lacks.follow (h : v.Lacks segment) (back : List String) :
    Value.follow v (segment :: back) = .ok .null := by
  have hstep : stepInto v segment = .ok .null := by
    unfold stepInto
    dsimp only
    split
    · rfl
    · rename_i hne
      cases v with
      | object fields =>
        rcases h with h | h
        · rw [h] at hne
          exact absurd rfl hne
        · simp [h, ofOption]
      | list items =>
        dsimp only
        cases hd : Text.digits? (Text.trim segment).toList with
        | none => rfl
        | some digits =>
          obtain ⟨hlimit, hplace⟩ := h digits hd
          have hnone : items[Text.digitsValue digits]? = none := List.getElem?_eq_none hplace
          simp only [itemAt, if_neg (Nat.not_lt.mpr hlimit), List.getD_eq_getElem?_getD, hnone,
            Option.getD_none]
      | _ => rfl
  rw [follow_cons, hstep]
  exact follow_null back

theorem overlong_nil : ¬ Overlong v [] count := by
  rintro ⟨front, segment, back, _, _, h, -⟩
  simp at h

theorem overlong_cons : Overlong v (segment :: segments) count ↔
    stepInto v segment = .error (.tooManyDigits count) ∨
      ∃ w, stepInto v segment = .ok w ∧ Overlong w segments count := by
  constructor
  · rintro ⟨front, place, back, items, digits, hsplit, hfollow, hdigits, hcount, hlimit⟩
    cases front with
    | nil =>
      cases hsplit
      cases hfollow
      have hlong : digitLimit < digits.length := by omega
      exact Or.inl (stepInto_eq_error_iff.mpr ⟨items, digits, rfl, hdigits, hlong, by rw [hcount]⟩)
    | cons head front =>
      rw [List.cons_append] at hsplit
      obtain ⟨rfl, rfl⟩ := List.cons.inj hsplit
      rw [follow_cons] at hfollow
      cases hs : stepInto v segment with
      | error fault =>
        rw [hs] at hfollow
        cases hfollow
      | ok w =>
        rw [hs] at hfollow
        exact Or.inr
          ⟨w, rfl, front, place, back, items, digits, rfl, hfollow, hdigits, hcount, hlimit⟩
  · rintro (h | ⟨w, hs, front, place, back, items, digits, rfl, hfollow, hrest⟩)
    · obtain ⟨items, digits, rfl, hdigits, hlimit, hfault⟩ := stepInto_eq_error_iff.mp h
      cases hfault
      exact ⟨[], segment, segments, items, digits, rfl, rfl, hdigits, rfl, hlimit⟩
    · refine ⟨segment :: front, place, back, items, digits, rfl, ?_, hrest⟩
      rw [follow_cons, hs]
      exact hfollow

/-- A path is followed to its end unless it is overlong, and then the fault tells by how much. -/
theorem follow_eq_error_iff : follow v segments = .error fault ↔
    ∃ count, v.Overlong segments count ∧ fault = .tooManyDigits count := by
  -- By the segments that are left, from any value that has been reached.
  induction segments generalizing v with
  | nil =>
    constructor
    · intro h
      cases h
    · rintro ⟨count, h, -⟩
      exact absurd h overlong_nil
  | cons segment rest ih =>
    rw [follow_cons]
    simp only [overlong_cons]
    cases hs : stepInto v segment with
    | error other =>
      obtain ⟨_, digits, -, -, -, rfl⟩ := stepInto_eq_error_iff.mp hs
      constructor
      · intro h
        cases h
        exact ⟨digits.length, Or.inl rfl, rfl⟩
      · rintro ⟨count, h | ⟨w, ⟨⟩, -⟩, rfl⟩
        exact h
    | ok w =>
      have hrest : follow w rest = .error fault ↔
          ∃ count, w.Overlong rest count ∧ fault = .tooManyDigits count := ih
      apply hrest.trans
      apply exists_congr
      intro count
      apply and_congr_left'
      constructor
      · exact fun h => Or.inr ⟨w, rfl, h⟩
      · rintro (⟨⟨⟩⟩ | ⟨_, hw, h⟩)
        cases hw
        exact h

end FlowEngine.Value
