import FlowEngine.Condition.Compare
import FlowEngine.Proofs.Text.Lines
import FlowEngine.Proofs.Text.Pieces

/-!
# Where a condition is cut

A condition is cut at the first place of the first sign that occurs in it, in the order in which signs
are looked for. White space at its ends makes no difference to that. Text in front of the sign that is
meant draws the cut to itself as soon as it holds that sign or one that is looked for before it.
-/

namespace FlowEngine

namespace Condition

open Text

variable {s t w : List Char} {signs : List Sign} {sign : Sign}

namespace Sign

theorem spelled_ne_nil (sign : Sign) : sign.spelled ≠ [] := by cases sign <;> decide

theorem spelled_visible (sign : Sign) : ∀ c ∈ sign.spelled, isBlank c = false := by
  cases sign <;> exact List.all_iff_forall_prop.mp (by decide)

def letters : List Char := ['<', '>', '=', '!']

theorem mem_letters (sign : Sign) : ∀ c ∈ sign.spelled, c ∈ letters := by
  cases sign <;> exact List.all_iff_forall_prop.mp (by decide)

/-- The signs that are looked for before another one. -/
def before (sign : Sign) : List Sign := all.takeWhile (· != sign)

theorem all_eq (sign : Sign) : ∃ back, all = sign.before ++ sign :: back := by
  cases sign <;> exact ⟨_, rfl⟩

theorem before_trans {first second : Sign} (h : first ∈ second.before) (hs : second ∈ sign.before) :
    first ∈ sign.before :=
  have hsign : sign ∈ all := by cases sign <;> decide
  (by decide : ∀ sign ∈ all, ∀ second ∈ sign.before, ∀ first ∈ second.before, first ∈ sign.before)
    sign hsign second hs first h

theorem splitFirst?_before {other : Sign} (h : other ∈ sign.before) :
    splitFirst? other.spelled sign.spelled = none := by
  cases sign <;> revert other <;> decide

end Sign

theorem cutAtSign_found {front back : List Sign} {left right : List Char}
    (hfront : ∀ other ∈ front, splitFirst? other.spelled s = none)
    (hs : splitFirst? sign.spelled s = some (left, right)) :
    cutAtSign s (front ++ sign :: back) =
      some (String.ofList (trimChars left), sign, String.ofList (trimChars right)) := by
  induction front with
  | nil => rw [List.nil_append, cutAtSign, hs]
  | cons other front ih =>
    rw [List.cons_append, cutAtSign, hfront other List.mem_cons_self]
    exact ih fun o ho => hfront o (List.mem_cons_of_mem _ ho)

theorem cutAtSign_trimFront (s : List Char) : cutAtSign (trimFront s) signs = cutAtSign s signs := by
  induction signs with
  | nil => rfl
  | cons sign signs ih =>
    rw [cutAtSign, cutAtSign, splitFirst?_trimFront sign.spelled_ne_nil sign.spelled_visible, ih]
    cases splitFirst? sign.spelled s with
    | none => rfl
    | some cut => simp [trimChars_trimFront]

theorem cutAtSign_append_blank (hw : ∀ c ∈ w, isBlank c = true) :
    cutAtSign (s ++ w) signs = cutAtSign s signs := by
  induction signs with
  | nil => rfl
  | cons sign signs ih =>
    rw [cutAtSign, cutAtSign, ih]
    cases hs : splitFirst? sign.spelled s with
    | none =>
      rw [splitFirst?_append_blank sign.spelled_ne_nil sign.spelled_visible hw hs]
    | some cut =>
      obtain ⟨left, right⟩ := cut
      simp [splitFirst?_append hs, trimChars_append_blank hw]

theorem splitCondition_trim (condition : String) :
    splitCondition (trim condition) = splitCondition condition := by
  obtain ⟨w, hw, hblank⟩ := trimBack_append (trimFront condition.toList)
  rw [splitCondition, splitCondition, trim, String.toList_ofList, trimChars,
    ← cutAtSign_append_blank hblank, ← hw, cutAtSign_trimFront]

section Data

variable (ht : ∀ c ∈ t, c ∉ Sign.letters)

include ht

/-- A sign is found behind other text, and so is no sign that is looked for before it. -/
theorem splitFirst?_beyond {other : Sign} (hs : splitFirst? other.spelled s = none)
    (ho : other ∈ sign.before) :
    splitFirst? other.spelled (s ++ ' ' :: (sign.spelled ++ ' ' :: t)) = none := by
  have hspace : ' ' ∉ other.spelled := fun hm => by cases other.spelled_visible ' ' hm
  have hright : splitFirst? other.spelled t = none := by
    obtain ⟨c, pattern, hp⟩ := List.exists_cons_of_ne_nil other.spelled_ne_nil
    rw [hp]
    refine splitFirst?_eq_none fun hc => ht c hc (other.mem_letters c ?_)
    rw [hp]
    exact List.mem_cons_self
  rw [splitFirst?_across hs hspace, splitFirst?_across (Sign.splitFirst?_before ho) hspace, hright]
  rfl

/-- Text that holds neither the sign nor one that is looked for before it stays on its side of the
sign. -/
theorem splitCondition_kept (hs : ∀ other ∈ sign.before ++ [sign], ¬ other.spelled <:+: s) :
    splitCondition (String.ofList (s ++ ' ' :: (sign.spelled ++ ' ' :: t))) =
      some (String.ofList (trimChars s), sign, String.ofList (trimChars t)) := by
  obtain ⟨back, hall⟩ := sign.all_eq
  have hnone (other : Sign) (ho : other ∈ sign.before ++ [sign]) :
      splitFirst? other.spelled s = none := splitFirst?_of_not_piece (hs other ho)
  have hspace : ' ' ∉ sign.spelled := fun hm => by cases sign.spelled_visible ' ' hm
  have hfound : splitFirst? sign.spelled (s ++ ' ' :: (sign.spelled ++ ' ' :: t)) =
      some (s ++ [' '], ' ' :: t) := by
    rw [splitFirst?_across (hnone sign (by simp)) hspace,
      splitFirst?_pattern _ _ sign.spelled_ne_nil]
    rfl
  have hblank : ∀ c ∈ [' '], isBlank c = true := List.forall_mem_singleton.mpr (by decide)
  have hright : trimChars (' ' :: t) = trimChars t := by
    rw [← trimChars_trimFront (' ' :: t), ← trimChars_trimFront t]
    rfl
  rw [splitCondition, String.toList_ofList, hall, cutAtSign_found _ hfound,
    trimChars_append_blank hblank, hright]
  intro other ho
  exact splitFirst?_beyond ht (hnone other (by simp [ho])) ho

/-- Text that holds a sign that is looked for in time is cut there, and what follows it goes with what
is on the right. -/
theorem splitCondition_cut {other : Sign} {left right : List Char}
    (ho : other ∈ sign.before ++ [sign])
    (hs : ∀ earlier ∈ other.before, ¬ earlier.spelled <:+: s)
    (hcut : splitFirst? other.spelled s = some (left, right)) :
    splitCondition (String.ofList (s ++ ' ' :: (sign.spelled ++ ' ' :: t))) =
      some (String.ofList (trimChars left), other,
        String.ofList (trimChars (right ++ ' ' :: (sign.spelled ++ ' ' :: t)))) := by
  obtain ⟨back, hall⟩ := other.all_eq
  rw [splitCondition, String.toList_ofList, hall, cutAtSign_found _ (splitFirst?_append hcut)]
  intro earlier he
  refine splitFirst?_beyond ht (splitFirst?_of_not_piece (hs earlier he)) ?_
  rcases List.mem_append.mp ho with ho | ho
  · exact Sign.before_trans he ho
  · rw [← List.mem_singleton.mp ho]
    exact he

end Data

end Condition

end FlowEngine
