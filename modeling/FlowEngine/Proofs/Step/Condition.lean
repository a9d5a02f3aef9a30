import FlowEngine.Proofs.Condition.Cut
import FlowEngine.Proofs.Reference.Saved
import FlowEngine.Proofs.Reference.Woven
import FlowEngine.Proofs.Step.Loop

/-!
# Data in the condition of a loop

The condition of a loop is cut into operands after its references have given way to data, and an
operand that looks like a path is looked up. Data is compared as it is, then, where it holds no sign
that the cut takes before the one that is meant, and does not look like a path that leads somewhere.
-/

namespace FlowEngine

namespace Scope

/-- A name by which a reference reaches a variable. -/
structure Addressed (name : String) : Prop where
  unclosed : '\x7d' ∉ name.toList
  undotted : '.' ∉ name.toList
  plain : ∀ op : Operator, ¬ op.spelled <:+: name.toList
  back : ∀ c, name.toList.getLast? = some c → Text.isBlank c = false

variable {scope : Scope} {name : String}

def variableBody (name : String) : List Char := ("variables." ++ name).toList

theorem variableBody_eq (name : String) :
    variableBody name =
      ['v', 'a', 'r', 'i', 'a', 'b', 'l', 'e', 's'] ++ '.' :: name.toList := by
  simp [variableBody]

theorem Addressed.isBody (h : Addressed name) : Template.IsBody (variableBody name) := by
  rw [variableBody_eq]
  refine ⟨by simp, fun hm => ?_⟩
  rcases List.mem_append.mp hm with hm | hm
  · exact absurd hm (by decide)
  · exact h.unclosed ((List.mem_cons.mp hm).resolve_left (by decide))

theorem Addressed.trim (h : Addressed name) :
    Text.trimChars (variableBody name) = variableBody name := by
  rw [variableBody_eq]
  refine Text.trimChars_eq_self ?_ ?_
  · intro c hc
    cases hc
    decide
  · intro c hc
    rw [List.getLast?_append, List.getLast?_cons] at hc
    cases hc
    cases hl : name.toList.getLast? with
    | none => decide
    | some d => exact h.back d hl

theorem Addressed.splitOperator (h : Addressed name) (ops : List Operator) :
    splitOperator (variableBody name) ops = none := by
  induction ops with
  | nil => rfl
  | cons op ops ih =>
    have hfront : Text.splitFirst? op.spelled ['v', 'a', 'r', 'i', 'a', 'b', 'l', 'e', 's'] =
        none := by cases op <;> decide
    have hdot : '.' ∉ op.spelled := by cases op <;> decide
    have hnone : Text.splitFirst? op.spelled (variableBody name) = none := by
      rw [variableBody_eq, Text.splitFirst?_across hfront hdot,
        Text.splitFirst?_of_not_piece (h.plain op)]
      rfl
    rw [Scope.splitOperator, hnone]
    exact ih

theorem Addressed.reference (h : Addressed name) :
    scope.reference (variableBody name) =
      .ok (Value.ofOption (scope.context.vars.get? name)) := by
  have hinput : withoutInput ("variables." ++ name) = "variables." ++ name := by
    simp [withoutInput, Text.startsWith]
  have hfront : Text.dottedParts ("variables." ++ name) = "variables" :: Text.dottedParts name :=
    Text.dottedParts_append "variables" name
  have hparts : Text.dottedParts ("variables." ++ name) = ["variables", name] := by
    rw [hfront, Text.dottedParts_eq_singleton h.undotted]
  rw [Scope.reference, h.trim, expression, String.toList_ofList, h.splitOperator]
  dsimp only
  rw [variableBody, String.ofList_toList, path_eq_parts, hinput, hparts]
  rfl

theorem resolve_braced_append {body s : List Char} (hb : Template.IsBody body)
    (hs : ¬ ['\x7b', '\x7b'] <:+: s) :
    scope.resolve (String.ofList (Template.braced body ++ s)) =
      (scope.reference body).map fun v => String.ofList (v.inline.toList ++ s) := by
  rw [resolve, String.toList_ofList, Template.pieces_braced hb, Template.pieces_apart hs,
    piecesText, piecesText_map_char]
  cases hr : scope.reference body <;> simp [piece, hr, bind, Except.bind, Except.map]

end Scope

namespace Step.Loop

open Condition

section

variable {node : Node} {state : LoopState} {scene : Scene} {scope : Scope} {name text right : String}
  {sign other : Sign} {v : Value}

def comparing (name : String) (sign : Sign) (right : String) : String :=
  String.ofList (Template.braced (Scope.variableBody name) ++
    ' ' :: (sign.spelled ++ ' ' :: right.toList))

/-- A text that is no path to anything, and so is an operand as it is. -/
def IsData (scope : Scope) (text : String) : Prop :=
  (∃ front ∈ pathFronts, Text.startsWith text front = true) → scope.path text = .ok .null

/-- What a literal on the right may hold: no sign and no reference. -/
structure IsLiteral (right : String) : Prop where
  signless : ∀ c ∈ right.toList, c ∉ Sign.letters
  apart : ¬ ['\x7b', '\x7b'] <:+: right.toList

theorem IsData.operand (h : IsData scope text) : operand scope text = .ok text := by
  unfold Loop.operand
  split
  · rename_i hfront
    rw [h (List.any_eq_true.mp hfront)]
    rfl
  · rfl

theorem apart_append {s t : List Char} (hs : '\x7b' ∉ s) (ht : ¬ ['\x7b', '\x7b'] <:+: t) :
    ¬ ['\x7b', '\x7b'] <:+: s ++ t := by
  induction s with
  | nil => exact ht
  | cons c s ih =>
    rw [List.cons_append, List.infix_cons_iff]
    rintro (hp | hi)
    · obtain ⟨rfl, -⟩ := List.cons_prefix_cons.mp hp
      exact hs List.mem_cons_self
    · exact ih (fun hm => hs (List.mem_cons_of_mem c hm)) hi

theorem IsLiteral.apart_behind (h : IsLiteral right) (sign : Sign) :
    ¬ ['\x7b', '\x7b'] <:+: ' ' :: (sign.spelled ++ ' ' :: right.toList) := by
  have hsign : '\x7b' ∉ ' ' :: (sign.spelled ++ [' ']) := by cases sign <;> decide
  simpa using apart_append hsign h.apart

theorem ensures_holds_resolved {post : Except Fault Bool → Scene → Prop} :
    (holds node state).Ensures scene post ↔
      post ((Scope.mk scene.context (some state)).resolve (condition node) >>= fun resolved =>
        resolvedHolds ⟨scene.context, some state⟩ (Text.trim resolved)) scene := by
  unfold holds
  simp only [Doing.ensures_bind, Work.ensures_context, Work.ensures_resolve]
  generalize (Scope.mk scene.context (some state)).resolve (condition node) = resolved
  cases resolved with
  | error fault => simp only [bind, Except.bind]
  | ok resolved => simp only [bind, Except.bind, Doing.ensures_ofExcept]

/-- Whether a comparison holds whose two sides are still to be looked up. -/
def compared (scope : Scope) (left : String) (sign : Sign) (right : String) : Except Fault Bool := do
  let left ← operand scope left
  let right ← operand scope right
  .ok (loopHolds left sign right)

theorem compared_data (hl : IsData scope text) (hr : IsData scope right) :
    compared scope text sign right = .ok (loopHolds text sign right) := by
  simp [compared, hl.operand, hr.operand, bind, Except.bind]

section Comparing

variable (hc : node.setting "condition" = .text (comparing name sign right))
  (hname : Scope.Addressed name) (hright : IsLiteral right)

include hc hname hright

/-- The text of a variable stands in the place of the reference before the condition is cut. -/
theorem ensures_holds_comparing {post : Except Fault Bool → Scene → Prop} {first second : String}
    (hcut : splitCondition (String.ofList
      ((Value.ofOption (scene.context.vars.get? name)).inline.toList ++
        ' ' :: (sign.spelled ++ ' ' :: right.toList))) = some (first, other, second)) :
    (holds node state).Ensures scene post ↔
      post (compared ⟨scene.context, some state⟩ first other second) scene := by
  have hcondition : condition node = comparing name sign right := by
    rw [condition, hc]
    rfl
  rw [ensures_holds_resolved, hcondition, comparing,
    Scope.resolve_braced_append hname.isBody (hright.apart_behind sign), hname.reference]
  have hresolved (resolved : String) (hr : splitCondition resolved = some (first, other, second)) :
      resolvedHolds ⟨scene.context, some state⟩ (Text.trim resolved) =
        compared ⟨scene.context, some state⟩ first other second := by
    rw [resolvedHolds, splitCondition_trim, hr]
    rfl
  simp only [Except.map, bind, Except.bind, hresolved _ hcut]

end Comparing

/-- Text without the sign that is meant and without those that the cut takes before it. -/
def ClearOf (sign : Sign) (text : String) : Prop :=
  ∀ other ∈ sign.before ++ [sign], ¬ other.spelled <:+: text.toList

/-- A condition that compares a variable with a literal compares the trimmed text of the variable as
it is, if that is clear of signs and no path to anything. A text that is a path to something is looked
up, and a text that holds a sign which the cut takes first is cut there. -/
theorem holds_data (node : Node) (state : LoopState) (scene : Scene) (name : String) (sign : Sign)
    (right : String) (hc : node.setting "condition" = .text (comparing name sign right))
    (hname : Scope.Addressed name) (hright : IsLiteral right) :
    let scope : Scope := ⟨scene.context, some state⟩
    let text := (Value.ofOption (scene.context.vars.get? name)).inline
    (ClearOf sign text → IsData scope (Text.trim text) → IsData scope (Text.trim right) →
      (holds node state).Gives scene fun b scene' =>
        b = loopHolds (Text.trim text) sign (Text.trim right) ∧ scene' = scene) ∧
    (ClearOf sign text →
      (holds node state).Ensures scene fun result scene' =>
        result = compared scope (Text.trim text) sign (Text.trim right) ∧ scene' = scene) ∧
    ∀ other left after, other ∈ sign.before ++ [sign] →
      (∀ earlier ∈ other.before, ¬ earlier.spelled <:+: text.toList) →
      Text.splitFirst? other.spelled text.toList = some (left, after) →
      (holds node state).Ensures scene fun result scene' =>
        result = compared scope (Text.trim (String.ofList left)) other
          (Text.trim (String.ofList (after ++ ' ' :: (sign.spelled ++ ' ' :: right.toList)))) ∧
        scene' = scene := by
  intro scope text
  refine ⟨fun hclear hl hr => ?_, fun hclear => ?_, fun other left after ho he hcut => ?_⟩
  · refine (ensures_holds_comparing hc hname hright
      (splitCondition_kept hright.signless hclear)).mpr ?_
    exact ⟨_, compared_data hl hr, rfl, rfl⟩
  · exact (ensures_holds_comparing hc hname hright
      (splitCondition_kept hright.signless hclear)).mpr ⟨rfl, rfl⟩
  · refine (ensures_holds_comparing hc hname hright
      (splitCondition_cut hright.signless ho he hcut)).mpr ⟨?_, rfl⟩
    simp only [Text.trim, String.toList_ofList]
    rfl

end

namespace Compared

def loop (sign : Sign) (right : String) : Node :=
  ⟨"loop", .loop, "", [("condition", .text (comparing "x" sign right))], []⟩

def state : LoopState := ⟨"loop", 0, [], 100⟩

def scene (text : String) : Scene :=
  ⟨{ Context.create "f" "e" ⟨0, 0, 0, 0, 0, 0, 0, none⟩ with vars := [("x", .text text)] }, .outside⟩

theorem addressed : Scope.Addressed "x" where
  unclosed := by decide
  undotted := by decide
  plain op := by cases op <;> decide
  back c hc := by
    cases hc
    decide

theorem isLiteral {right : String} (hs : right.toList.all (· ∉ Sign.letters) = true)
    (hb : '\x7b' ∉ right.toList) : IsLiteral right where
  signless := List.all_iff_forall_prop.mp hs
  apart hi := hb (hi.subset List.mem_cons_self)

theorem isData {scope : Scope} {text : String}
    (h : (pathFronts.any fun front => Text.startsWith text front) = false) : IsData scope text := by
  intro hf
  rw [List.any_eq_true.mpr hf] at h
  cases h

/-- A sign that is looked for later may stand in the data. -/
theorem holds_data_later :
    (holds (loop .less "b") state).Gives (scene "a>b") fun b _ => b = true := by
  have hclear : ClearOf .less "a>b" := by
    have hnone : ∀ other ∈ Sign.before .less ++ [.less],
        Text.splitFirst? other.spelled "a>b".toList = none := by decide
    exact fun other ho => Text.splitFirst?_none (hnone other ho)
  refine Doing.Gives.mono ?_ ((holds_data (loop .less "b") state (scene "a>b") "x" .less "b" rfl
    addressed (isLiteral (by decide) (by decide))).1 hclear (isData (by decide))
    (isData (by decide)))
  rintro b _ ⟨rfl, -⟩
  decide

/-- A text that holds an equality sign is cut there, and then what is compared is not the text. -/
theorem equality_sign_cut :
    ¬ ∀ (node : Node) (state : LoopState) (scene : Scene) (name : String) (v : Value) (sign : Sign)
      (right : String), node.setting "condition" = .text (comparing name sign right) →
      Scope.Addressed name → scene.context.vars.get? name = some v → v ≠ .null →
      IsLiteral right → (∀ front ∈ pathFronts, Text.startsWith right front = false) →
      (holds node state).Gives scene fun b _ =>
        b = loopHolds (Text.trim v.inline) sign right := by
  intro hall
  have hclaimed := hall (loop .less "zz") state (scene "a==b") "x" (.text "a==b") .less "zz" rfl
    addressed rfl (by simp) (isLiteral (by decide) (by decide)) (by decide)
  have hcut := (holds_data (loop .less "zz") state (scene "a==b") "x" .less "zz" rfl addressed
    (isLiteral (by decide) (by decide))).2.2 .equal ['a'] ['b'] (by decide)
    (fun _ he => absurd he List.not_mem_nil) (by decide)
  obtain ⟨⟨result, scene'⟩, ⟨b, hb, htrue⟩, hresult, -⟩ :=
    Dialogue.Always.exists (hclaimed.and hcut)
  rw [compared_data (isData (by decide)) (isData (by decide))] at hresult
  have hfalse : b = false := by
    refine Except.ok.inj (hb.symm.trans (hresult.trans ?_))
    decide
  rw [htrue] at hfalse
  revert hfalse
  decide

end Compared

end Step.Loop

end FlowEngine
