import FlowEngine.Proofs.Number.Written
import FlowEngine.Proofs.Reference.Substitution
import FlowEngine.Proofs.Run.Calls
import FlowEngine.Step.Data

/-!
# What a variable node writes

A variable node resolves all of its settings before it writes the first one, but turns text into
numbers while it writes. A whole number of too many digits breaks this off, and what was written in
front of it stays. So a call of the node writes the whole of its map or nothing, unless such a number
stands behind a value that can be written. That goes for each call, and for the attempts at a node
that is tried again.
-/

namespace FlowEngine

open Doing

/-- Text that is an integer literal, with or without white space around it. -/
def Value.IsLiteral (v : Value) (l : Literal) : Prop :=
  ∃ s, v = .text s ∧ Text.trimChars s.toList = Double.signChars l.negative ++ l.row

/-- Text that is an integer literal of more digits than are read. -/
def Value.IsOverlong (v : Value) : Prop :=
  ∃ l : Literal, v.IsLiteral l ∧ digitLimit < l.row.length

namespace Step

variable {v : Value} {settings : Entries Value}

theorem wholeDigits?_literal (l : Literal) :
    wholeDigits? (Double.signChars l.negative ++ l.row) =
      some (l.negative, l.row.filterMap Text.digitValue?) := by
  obtain ⟨negative, row, hne, hdigits⟩ := l
  have hread : (if row.isEmpty then none else (Text.digits? row).map fun ds => (negative, ds)) =
      some (negative, row.filterMap Text.digitValue?) := by
    rw [if_neg (by simpa using hne), Text.digits?_of_forall hdigits]
    rfl
  cases negative with
  | true => exact hread
  | false =>
    unfold wholeDigits?
    split
    · rename_i rest hrow
      -- A minus sign is no digit.
      have hminus : '-' ∈ row := by
        rw [show row = '-' :: rest from hrow]
        exact List.mem_cons_self
      exact absurd (hdigits '-' hminus) (by decide)
    · exact hread

theorem exists_literal {s : List Char} {negative : Bool} {digits : List Nat}
    (h : wholeDigits? s = some (negative, digits)) :
    ∃ l : Literal, s = Double.signChars l.negative ++ l.row := by
  have hrow {row : List Char} {sign : Bool}
      (hr : (if row.isEmpty then none else (Text.digits? row).map fun ds => (sign, ds)) =
        some (negative, digits)) : row ≠ [] ∧ ∀ c ∈ row, Text.isDigit c = true := by
    split at hr
    · cases hr
    · rename_i hne
      obtain ⟨values, hvalues, -⟩ := Option.map_eq_some_iff.mp hr
      exact ⟨fun hnil => hne (List.isEmpty_iff.mpr hnil), Text.isDigit_of_digits? hvalues⟩
  unfold wholeDigits? at h
  split at h
  · obtain ⟨hne, hdigits⟩ := hrow h
    exact ⟨⟨true, _, hne, hdigits⟩, rfl⟩
  · obtain ⟨hne, hdigits⟩ := hrow h
    exact ⟨⟨false, _, hne, hdigits⟩, rfl⟩

theorem normalized_literal {l : Literal} (h : v.IsLiteral l) :
    normalized v = if digitLimit < l.row.length then .error (.tooManyDigits l.row.length)
      else .ok (.int l.value) := by
  obtain ⟨s, rfl, hs⟩ := h
  simp only [normalized, hs, wholeDigits?_literal, List.filterMap_length_eq_length.mpr l.digits]
  rfl

theorem isOverlong_iff : v.IsOverlong ↔ ∃ fault, normalized v = .error fault := by
  constructor
  · rintro ⟨l, hl, hlong⟩
    exact ⟨_, (normalized_literal hl).trans (if_pos hlong)⟩
  · rintro ⟨fault, h⟩
    cases v with
    | text s =>
      cases hw : wholeDigits? (Text.trimChars s.toList) with
      | none =>
        simp only [normalized, hw] at h
        split at h <;> cases h
      | some row =>
        obtain ⟨l, hl⟩ := exists_literal hw
        refine ⟨l, ⟨s, rfl, hl⟩, ?_⟩
        rw [normalized_literal ⟨s, rfl, hl⟩] at h
        split at h
        · assumption
        · cases h
    | _ => cases h

theorem isOverlong_text (l : Literal) :
    (Value.text l.text).IsOverlong ↔ digitLimit < l.row.length := by
  rw [isOverlong_iff, normalized_literal ⟨_, rfl, l.trimChars_text⟩]
  split <;> simp [*]

theorem keys_settings {scope : Scope} {settings resolved : Entries Value}
    (h : scope.settings settings = .ok resolved) : resolved.keys = settings.keys := by
  induction settings generalizing resolved with
  | nil =>
    cases h
    rfl
  | cons entry rest ih =>
    obtain ⟨key, v⟩ := entry
    rw [Scope.settings] at h
    cases hv : scope.setting v with
    | error fault =>
      rw [hv] at h
      cases h
    | ok w =>
      rw [hv] at h
      cases hrest : scope.settings rest with
      | error fault =>
        rw [hrest] at h
        cases h
      | ok others =>
        rw [hrest] at h
        cases h
        exact congrArg (key :: ·) (ih hrest)

/-- The values of settings as they are written, in order, and the fault that breaks this off. -/
def writes : Entries Value → Entries Value × Option Fault
  | [] => ([], none)
  | (key, v) :: rest =>
    match normalized v with
    | .ok w => ((key, w) :: (writes rest).1, (writes rest).2)
    | .error fault => ([], some fault)

theorem keys_writes (settings : Entries Value) : (writes settings).1.keys <+: settings.keys := by
  induction settings with
  | nil => exact List.nil_prefix
  | cons entry rest ih =>
    obtain ⟨key, v⟩ := entry
    cases hv : normalized v with
    | error fault =>
      rw [writes, hv]
      exact List.nil_prefix
    | ok w =>
      rw [writes, hv]
      exact List.prefix_cons_inj key |>.mpr ih

theorem keys_writes_of_none (h : (writes settings).2 = none) :
    (writes settings).1.keys = settings.keys := by
  induction settings with
  | nil => rfl
  | cons entry rest ih =>
    obtain ⟨key, v⟩ := entry
    cases hv : normalized v with
    | error fault =>
      rw [writes, hv] at h
      cases h
    | ok w =>
      rw [writes, hv] at h ⊢
      exact congrArg (key :: ·) (ih h)

theorem writes_overlong {front back : Entries Value} {key : String}
    (hf : ∀ entry ∈ front, ¬ entry.2.IsOverlong) (hv : v.IsOverlong) :
    ∃ fault, writes (front ++ (key, v) :: back) = ((writes front).1, some fault) := by
  induction front with
  | nil =>
    obtain ⟨fault, hfault⟩ := isOverlong_iff.mp hv
    exact ⟨fault, by simp [writes, hfault]⟩
  | cons entry rest ih =>
    obtain ⟨k, u⟩ := entry
    obtain ⟨hu, hrest⟩ := List.forall_mem_cons.mp hf
    obtain ⟨fault, hfault⟩ := ih hrest
    cases hn : normalized u with
    | error fault => exact absurd (isOverlong_iff.mpr ⟨_, hn⟩) hu
    | ok w => exact ⟨fault, by simp [writes, hn, hfault]⟩

/-- Settings that, if one of their values is overlong, begin with one that is. -/
def BreaksAtOnce (settings : Entries Value) : Prop :=
  ∀ entry ∈ settings, entry.2.IsOverlong → ∃ first ∈ settings.head?, first.2.IsOverlong

theorem isOverlong_of_writes {fault : Fault} (h : (writes settings).2 = some fault) :
    ∃ entry ∈ settings, entry.2.IsOverlong := by
  induction settings with
  | nil => cases h
  | cons entry rest ih =>
    obtain ⟨key, v⟩ := entry
    cases hv : normalized v with
    | error fault => exact ⟨_, List.mem_cons_self, isOverlong_iff.mpr ⟨_, hv⟩⟩
    | ok w =>
      rw [writes, hv] at h
      obtain ⟨entry, hm, hlong⟩ := ih h
      exact ⟨entry, List.mem_cons_of_mem _ hm, hlong⟩

theorem BreaksAtOnce.writes_eq_nil (hb : BreaksAtOnce settings) {fault : Fault}
    (h : (writes settings).2 = some fault) : (writes settings).1 = [] := by
  obtain ⟨entry, hm, hlong⟩ := isOverlong_of_writes h
  obtain ⟨⟨key, v⟩, hfirst, hv⟩ := hb entry hm hlong
  obtain ⟨rest, rfl⟩ : ∃ rest, settings = (key, v) :: rest := List.head?_eq_some_iff.mp hfirst
  obtain ⟨fault, hfault⟩ := isOverlong_iff.mp hv
  simp [writes, hfault]

end Step

def Context.withVars (context : Context) (written : Entries Value) : Context :=
  { context with vars := context.vars.putAll written }

namespace Step

variable {v : Value} {settings : Entries Value} {node : Node} {scene : Scene}

/-- Writing variables ends in what `writes` says, whatever comes of it. -/
theorem ensures_assign_iff {post : Except Fault (Entries Value) → Scene → Prop} :
    (assign settings).Ensures scene post ↔
      post (((writes settings).2.map .error).getD (.ok (writes settings).1))
        { scene with context := scene.context.withVars (writes settings).1 } := by
  induction settings generalizing scene post with
  | nil => rfl
  | cons entry rest ih =>
    obtain ⟨key, v⟩ := entry
    refine ensures_bind.trans (ensures_ofExcept.trans ?_)
    cases hv : normalized v with
    | error fault =>
      rw [writes, hv]
      rfl
    | ok w =>
      refine ensures_bind.trans (Work.ensures_change.trans (ensures_bind.trans (ih.trans ?_)))
      rw [writes, hv]
      cases (writes rest).2 with
      | none => rfl
      | some fault => rfl

theorem ensures_setVariables_iff {post : Except Fault Outcome → Scene → Prop}
    (hs : Scope.settings ⟨scene.context, none⟩ (node.mapSetting "variables") = .ok settings) :
    (setVariables node).Ensures scene post ↔
      post (((writes settings).2.map .error).getD
          (.ok (Outcome.plain node .success (writes settings).1)))
        { scene with context := scene.context.withVars (writes settings).1 } := by
  refine ensures_bind.trans (Work.ensures_scope.trans (ensures_bind.trans
    (Work.ensures_resolveAll.trans ?_)))
  rw [hs]
  refine ensures_bind.trans (ensures_assign_iff.trans ?_)
  cases (writes settings).2 with
  | none => exact ensures_bind.trans Work.ensures_note
  | some fault => rfl

end Step

/-- Whatever is overlong among the values that a variable node is about to write, the first of them
is. -/
def Node.WritesAtOnce (node : Node) (context : Context) : Prop :=
  ∀ settings, Scope.settings ⟨context, none⟩ (node.mapSetting "variables") = .ok settings →
    Step.BreaksAtOnce settings

/-- After a success of a variable node its output has all keys of the configured map and stands over
the variables, and after a failure they are as they were. -/
def Context.AllOrNone (before : Context) (node : Node) (outcome : Outcome) (after : Context) : Prop :=
  (outcome.status = .success ∧ ∃ output, outcome.output = some output ∧
    output.keys = (node.mapSetting "variables").keys ∧
    after.vars = before.vars.putAll output) ∨
  (outcome.status = .failure ∧ after.vars = before.vars)

namespace Step

theorem setVariables_all_or_none (hb : node.WritesAtOnce scene.context) :
    (setVariables node).Ensures scene fun result scene' =>
      (∃ output, result = .ok (Outcome.plain node .success output) ∧
        output.keys = (node.mapSetting "variables").keys ∧
        scene'.context = scene.context.withVars output) ∨
      ∃ fault, result = .error fault ∧ scene'.context = scene.context := by
  cases hs : Scope.settings ⟨scene.context, none⟩ (node.mapSetting "variables") with
  | error fault =>
    refine ensures_bind.mpr (Work.ensures_scope.mpr (ensures_bind.mpr
      (Work.ensures_resolveAll.mpr ?_)))
    rw [hs]
    exact .inr ⟨fault, rfl, rfl⟩
  | ok settings =>
    refine (ensures_setVariables_iff hs).mpr ?_
    cases hw : (writes settings).2 with
    | none =>
      exact .inl ⟨_, rfl, (keys_writes_of_none hw).trans (keys_settings hs), rfl⟩
    | some fault =>
      rw [(hb settings hs).writes_eq_nil hw]
      exact .inr ⟨fault, rfl, rfl⟩

/-- If a value that is overlong stands behind others that are not, a call ends in a fault and leaves
those written. -/
theorem setVariables_breaks {front back : Entries Value} {key : String}
    (hs : Scope.settings ⟨scene.context, none⟩ (node.mapSetting "variables") =
      .ok (front ++ (key, v) :: back))
    (hf : ∀ entry ∈ front, ¬ entry.2.IsOverlong) (hv : v.IsOverlong) :
    (setVariables node).Ensures scene fun result scene' =>
      (∃ fault, result = .error fault) ∧
        scene'.context = scene.context.withVars (writes front).1 := by
  obtain ⟨fault, hw⟩ : ∃ fault, writes (front ++ (key, v) :: back) = ((writes front).1, some fault) :=
    writes_overlong hf hv
  refine (ensures_setVariables_iff hs).mpr ?_
  rw [hw]
  exact ⟨⟨fault, rfl⟩, rfl⟩

/-- Of attempts that all but the last ask for another one, those leave the context as it is, so that
the last one finds it as the first one did. -/
theorem all_or_none_of_calls {before : List Outcome} {last : Outcome} {scene' : Scene}
    (hb : node.WritesAtOnce scene.context)
    (hm : ∀ outcome ∈ before, Attempt.callsForMore outcome = true)
    (hc : Attempt.Calls setVariables node scene (before ++ [last]) scene') :
    scene.context.AllOrNone node last scene'.context := by
  induction before generalizing scene with
  | nil =>
    cases hc with
    | call he hc =>
      cases hc
      obtain ⟨output, rfl, hkeys, hcontext⟩ | ⟨fault, rfl, hcontext⟩ :=
        ensures_iff_forall_canEnd.mp (setVariables_all_or_none hb) _ _ he
      · exact .inl ⟨rfl, output, rfl, hkeys, congrArg Context.vars hcontext⟩
      · exact .inr ⟨rfl, congrArg Context.vars hcontext⟩
  | cons outcome rest ih =>
    obtain ⟨hmore, hrest⟩ := List.forall_mem_cons.mp hm
    cases hc with
    | call he hc =>
      obtain ⟨output, rfl, -⟩ | ⟨fault, rfl, hcontext⟩ :=
        ensures_iff_forall_canEnd.mp (setVariables_all_or_none hb) _ _ he
      · cases (Attempt.callsForMore_iff.mp hmore).1
      · rw [← hcontext] at hb ⊢
        exact ih hb hrest hc

/-- A variable node writes the whole of its map or nothing, if no overlong value stands behind one
that can be written: in one call, whether it returns an outcome or ends in a fault that becomes a
failure, and in the attempts that its policy grants. -/
theorem variables_all_or_none (hb : node.WritesAtOnce scene.context) :
    (setVariables node).Ensures scene (fun result scene' =>
      scene.context.AllOrNone node (Attempt.outcomeOf node result) scene'.context) ∧
    (Attempt.run setVariables node).Yields scene fun outcome scene' =>
      scene.context.AllOrNone node outcome scene'.context := by
  constructor
  · refine ensures_iff_forall_canEnd.mpr fun result scene' he => ?_
    exact all_or_none_of_calls hb (by simp) (Attempt.Calls.one he)
  · refine Yields.mono ?_ (Attempt.yields_run_tried setVariables node scene)
    rintro outcome scene' ⟨policy, outcomes, -, ht⟩
    cases ht with
    | ended hm _ hc => exact all_or_none_of_calls hb hm hc
    | cancelled hm _ _ hc text =>
      -- The message of the run is written on top, and the outcome halts; neither is a variable.
      have hlast := all_or_none_of_calls hb hm hc
      exact hlast

namespace HalfWritten

/-- The digit one, once and so many times more. -/
def ones (more : Nat) : Literal where
  negative := false
  row := List.replicate (more + 1) '1'
  nonempty := by simp
  digits := fun c hc => by
    rw [List.eq_of_mem_replicate hc]
    rfl

def node (first second : Literal) : Node where
  id := "vars"
  type := .variable
  label := ""
  config := [("variables", .object [("a", .text first.text), ("b", .text second.text)])]
  extras := []

def scene : Scene := ⟨Context.create "f" "r" ⟨2024, 1, 1, 0, 0, 0, 0, none⟩, .outside⟩

theorem settings_node (first second : Literal) :
    Scope.settings ⟨scene.context, none⟩ ((node first second).mapSetting "variables") =
      .ok ([("a", .text first.text)] ++ ("b", .text second.text) :: []) := by
  have hbrace (l : Literal) : '\x7b' ∉ l.text.toList := by
    intro hm
    rw [Literal.text, String.toList_ofList] at hm
    rcases l.mem_text hm with h | h
    · exact absurd h (by decide)
    · exact absurd h (by decide)
  refine Scope.settings_eq_self _ fun entry he => ?_
  obtain rfl | rfl : entry = ("a", .text first.text) ∨ entry = ("b", .text second.text) :=
    List.mem_pair.mp he
  · exact ⟨_, rfl, hbrace first⟩
  · exact ⟨_, rfl, hbrace second⟩

/-- Two integers that can be read are both written, or none of them. -/
theorem integers_all_or_none :
    (node (ones 0) (ones 1)).WritesAtOnce scene.context ∧
      (setVariables (node (ones 0) (ones 1))).Ensures scene (fun result scene' =>
        scene.context.AllOrNone (node (ones 0) (ones 1))
          (Attempt.outcomeOf (node (ones 0) (ones 1)) result) scene'.context) ∧
      (Attempt.run setVariables (node (ones 0) (ones 1))).Yields scene fun outcome scene' =>
        scene.context.AllOrNone (node (ones 0) (ones 1)) outcome scene'.context := by
  have hb : (node (ones 0) (ones 1)).WritesAtOnce scene.context := by
    intro settings hs entry he hlong
    rw [settings_node] at hs
    cases hs
    obtain rfl | rfl := List.mem_pair.mp he
    · exact absurd ((isOverlong_text _).mp hlong) (by decide)
    · exact absurd ((isOverlong_text _).mp hlong) (by decide)
  exact ⟨hb, variables_all_or_none hb⟩

/-- The first of two integers stays written when the second one has too many digits. -/
theorem first_stays_written :
    (setVariables (node (ones 0) (ones digitLimit))).Ensures scene fun result scene' =>
      (∃ fault, result = .error fault) ∧
        scene.context.vars = [] ∧ scene'.context.vars = [("a", .int 1)] := by
  have hf : ∀ entry ∈ [("a", Value.text (ones 0).text)], ¬ entry.2.IsOverlong := by
    intro entry he hlong
    rw [List.mem_singleton.mp he] at hlong
    exact absurd ((isOverlong_text _).mp hlong) (by decide)
  have hv : (Value.text (ones digitLimit).text).IsOverlong := by
    rw [isOverlong_text, ones, List.length_replicate]
    exact Nat.lt_succ_self digitLimit
  have hone : (writes [("a", .text (ones 0).text)]).1 = [("a", .int 1)] := by decide
  refine Ensures.mono ?_ (setVariables_breaks (settings_node _ _) hf hv)
  rintro result scene' ⟨hfault, hcontext⟩
  refine ⟨hfault, rfl, ?_⟩
  rw [hcontext, hone]
  rfl

end HalfWritten

end Step

end FlowEngine
