import FlowEngine.Proofs.Number.Range
import FlowEngine.Proofs.Number.Written
import FlowEngine.Proofs.Reference.Substitution
import FlowEngine.Proofs.Work.Ensures
import FlowEngine.Step.Loop

/-!
# Counting loops

What a visit of a loop does when its condition compares the index with a number: it collects, and
goes on while the index is below the number.
-/

namespace FlowEngine.Step.Loop

/-- The condition that lets a loop go on until its index comes up to a number. -/
def countsTo (k : Nat) : String := "loop.index < " ++ toString k

theorem toList_countsTo (k : Nat) :
    (countsTo k).toList = "loop.index < ".toList ++ Nat.toDigits 10 k := by
  simp [countsTo]

theorem not_mem_toDigits {c : Char} (h : c.isDigit = false) (k : Nat) : c ∉ Nat.toDigits 10 k := by
  intro hm
  rw [Nat.isDigit_of_mem_toDigits (by decide) (by decide) hm] at h
  cases h

theorem not_mem_countsTo {c : Char} (h : c.isDigit = false) (hc : c ∉ "loop.index < ".toList)
    (k : Nat) : c ∉ (countsTo k).toList := by
  rw [toList_countsTo, List.mem_append]
  exact fun hm => hm.elim hc (not_mem_toDigits h k)

theorem trimChars_toDigits (k : Nat) : Text.trimChars (Nat.toDigits 10 k) = Nat.toDigits 10 k := by
  have hb : ∀ c ∈ Nat.toDigits 10 k, Text.isBlank c = false := fun c hc =>
    Text.not_isBlank_of_isDigit (Nat.isDigit_of_mem_toDigits (by decide) (by decide) hc)
  exact Text.trimChars_eq_self (fun c hc => hb c (List.mem_of_head? hc))
    fun c hc => hb c (List.mem_of_getLast? hc)

theorem trim_countsTo (k : Nat) : Text.trim (countsTo k) = countsTo k := by
  have hlast : ∀ c, (countsTo k).toList.getLast? = some c → Text.isBlank c = false := by
    intro c hc
    rw [toList_countsTo, List.getLast?_append] at hc
    cases hl : (Nat.toDigits 10 k).getLast? with
    | none => exact absurd (List.getLast?_eq_none_iff.mp hl) Nat.toDigits_ne_nil
    | some d =>
      rw [hl] at hc
      cases hc
      exact Text.not_isBlank_of_isDigit
        (Nat.isDigit_of_mem_toDigits (by decide) (by decide) (List.mem_of_getLast? hl))
  rw [Text.trim, Text.trimChars_eq_self _ hlast, String.ofList_toList]
  intro c hc
  rw [toList_countsTo] at hc
  cases hc
  decide

theorem splitCondition_countsTo (k : Nat) :
    Condition.splitCondition (countsTo k) = some ("loop.index", .less, toString k) := by
  have hequal : '=' ∉ (countsTo k).toList := not_mem_countsTo (by decide) (by decide) k
  have hbang : '!' ∉ (countsTo k).toList := not_mem_countsTo (by decide) (by decide) k
  have habove : '>' ∉ (countsTo k).toList := not_mem_countsTo (by decide) (by decide) k
  have hbelow : Text.splitFirst? ['<', '='] (countsTo k).toList = none := by
    rw [toList_countsTo]
    have hd : Text.splitFirst? ['<', '='] (Nat.toDigits 10 k) = none :=
      Text.splitFirst?_eq_none (not_mem_toDigits (by decide) k)
    simp [Text.splitFirst?, hd]
  have hfound : Text.splitFirst? ['<'] (countsTo k).toList =
      some ("loop.index ".toList, ' ' :: Nat.toDigits 10 k) := by
    rw [toList_countsTo]
    simp [Text.splitFirst?]
  have hright : Text.trimChars (' ' :: Nat.toDigits 10 k) = Nat.toDigits 10 k := by
    have hfront : Text.trimFront (' ' :: Nat.toDigits 10 k) =
        Text.trimFront (Nat.toDigits 10 k) := rfl
    rw [Text.trimChars, hfront]
    exact trimChars_toDigits k
  simp only [Condition.splitCondition, Condition.Sign.all, Condition.cutAtSign,
    Condition.Sign.spelled, Text.splitFirst?_eq_none hequal, Text.splitFirst?_eq_none hbang,
    Text.splitFirst?_eq_none habove, hbelow, hfound, hright]
  have hleft : String.ofList (Text.trimChars "loop.index ".toList) = "loop.index" := by decide
  rw [hleft]
  rfl

section Operands

variable {context : Context} {state : LoopState} {p k : Nat}

theorem operand_index (hp : state.index = p) :
    operand ⟨context, some state⟩ "loop.index" = .ok (toString p) := by
  have hfront : (pathFronts.any fun front => Text.startsWith "loop.index" front) = true := by decide
  have hinput : Scope.withoutInput "loop.index" = "loop.index" := by decide
  have hblank : Text.isBlankText "loop.index" = false := by decide
  have hparts : Text.dottedParts "loop.index" = ["loop", "index"] := by decide
  rw [operand, if_pos hfront, Scope.path, hinput, hblank, hparts]
  have hfield : Scope.loopField state "index" = .int p := hp ▸ rfl
  simp only [Bool.false_eq_true, if_false, Scope.parts, hfield, Except.map]
  rfl

theorem operand_number (scope : Scope) (k : Nat) :
    operand scope (toString k) = .ok (toString k) := by
  have hfront : (pathFronts.any fun front => Text.startsWith (toString k) front) = false := by
    rw [List.any_eq_false]
    intro front hf
    obtain ⟨c, rest, hc, hn⟩ : ∃ c rest, front.toList = c :: rest ∧ c.isDigit = false := by
      simp only [pathFronts, List.mem_cons, List.not_mem_nil, or_false] at hf
      rcases hf with rfl | rfl | rfl | rfl | rfl
      all_goals exact ⟨_, _, rfl, by decide⟩
    have hk : (toString k).toList = Nat.toDigits 10 k := by simp
    rw [Text.startsWith, hc, hk]
    intro hpre
    exact not_mem_toDigits hn k ((List.isPrefixOf_iff_prefix.mp hpre).subset List.mem_cons_self)
  rw [operand, hfront]
  rfl

theorem number?_toString (hk : k < 2 ^ 53) :
    Condition.number? (some (toString k)) = some (Double.ofNat k) := by
  obtain ⟨shift, hd⟩ := Double.ofNat_is hk
  simp only [Condition.number?, Numeral.ofText?_toString]
  rw [hd]
  rfl

theorem resolvedHolds_countsTo (hp : state.index = p) (hlt : p < 2 ^ 53) (hk : k < 2 ^ 53) :
    resolvedHolds ⟨context, some state⟩ (countsTo k) = .ok (decide (p < k)) := by
  simp only [resolvedHolds, splitCondition_countsTo, operand_index hp, operand_number,
    Condition.loopHolds, number?_toString hlt, number?_toString hk, Condition.Sign.holds,
    Double.less_ofNat hlt hk, bind, Except.bind]

theorem ensures_holds {node : Node} {scene : Scene} {post : Except Fault Bool → Scene → Prop}
    (hc : node.setting "condition" = .text (countsTo k)) (hp : state.index = p)
    (hlt : p < 2 ^ 53) (hk : k < 2 ^ 53) :
    (holds node state).Ensures scene post ↔ post (.ok (decide (p < k))) scene := by
  have hcondition : condition node = countsTo k := by
    rw [condition, hc]
    rfl
  have hplain : '\x7b' ∉ (countsTo k).toList := not_mem_countsTo (by decide) (by decide) k
  rw [holds, hcondition]
  simp only [Doing.ensures_bind, Work.ensures_context, Work.ensures_resolve,
    Scope.resolve_eq_self _ hplain, Doing.ensures_ofExcept, trim_countsTo,
    resolvedHolds_countsTo hp hlt hk]

end Operands

theorem bound_le {setting : Value} {most : Int} (h : bound setting = .ok most) : most ≤ 1000 := by
  simp only [bound, bind, Except.bind] at h
  split at h
  · cases h
  · split at h
    · cases h
      exact min_le_left _ _
    · cases h
      decide

section Collected

variable {context : Context} {state : LoopState} {last : String}

theorem collected_of_index_ne {outcome : Outcome} (hl : context.order.getLast? = some last)
    (hn : last ≠ state.nodeId) (hi : state.index ≠ 0)
    (ho : context.nodes.get? last = some outcome) :
    collected context state =
      [Outcome.optionalObject (outcome.successOutput.or outcome.output)] := by
  simp [collected, Context.lastExecuted?, Context.outcome?, hl, hn, hi, ho]

theorem collected_of_index_eq {body : List String} (hl : context.order.getLast? = some last)
    (hi : state.index = 0) (hb : context.loopBodies.get? state.nodeId = some body)
    (hn : last ∉ body) : collected context state = [] := by
  simp [collected, Context.lastExecuted?, hl, hi, hb, hn]

end Collected

section Visit

variable {node : Node} {scene : Scene} {most : Int} {p k : Nat} {acc : List Value}

def goneOn (node : Node) (p : Nat) : Outcome :=
  Outcome.plain node .continuing [("index", .int (p + 1 : Nat)), ("continuing", .bool true)]

def left (node : Node) (state : LoopState) : Outcome :=
  { Outcome.plain node .success (summary state) with successOutput := some (summary state) }

theorem gives_goOn (state : LoopState) (hs : state.index = p) :
    (goOn node state).Gives scene fun outcome scene' => outcome = goneOn node p ∧
      scene'.context = scene.context.setLoop node.id { state with index := (p + 1 : Nat) } := by
  have hindex : state.index + 1 = ((p + 1 : Nat) : Int) := by rw [hs]; rfl
  rw [Doing.Gives, goOn]
  simp only [hindex, Doing.ensures_bind, Work.ensures_change, Work.ensures_note, Doing.ensures_pure,
    and_true]
  exact ⟨_, rfl, rfl⟩

theorem gives_leave {name : Option String} (hn : node.saveName = .ok name) (state : LoopState) :
    (leave node state).Gives scene fun outcome scene' => outcome = left node state ∧
      ∃ nex, scene'.context = { scene.context with nex } := by
  rw [Doing.Gives, leave]
  simp only [hn, Doing.ensures_bind, Doing.ensures_ofExcept]
  cases name.filter isSaveName with
  | none =>
    simp only [Doing.ensures_bind, Work.ensures_note, Doing.ensures_pure]
    exact ⟨_, rfl, rfl, scene.context.nex, rfl⟩
  | some name =>
    simp only [Doing.ensures_bind, Work.ensures_change, Work.ensures_note, Doing.ensures_pure]
    exact ⟨_, rfl, rfl, _, rfl⟩

/-- A visit of a loop that counts collects, and goes on while its index is below the number. It
writes its own state, and its summary where that is saved. -/
theorem gives_execute (hw : scene.context.loopEdges.get? node.id = some true)
    (hb : bound (node.setting "maxIterations") = .ok most)
    (hc : node.setting "condition" = .text (countsTo k))
    (hs : scene.context.enterLoop node.id most = ⟨node.id, p, acc, most⟩)
    (hp : (p : Int) < most) (hk : (k : Int) < most) {name : Option String}
    (hn : node.saveName = .ok name) :
    (execute node).Gives scene fun outcome scene' =>
      let total := acc ++ collected scene.context ⟨node.id, p, acc, most⟩
      let index := if p < k then p + 1 else p
      outcome = (if p < k then goneOn node p else left node ⟨node.id, p, total, most⟩) ∧
        ∃ loopStates nex, scene'.context = { scene.context with loopStates, nex } ∧
          loopStates.get? node.id = some ⟨node.id, (index : Nat), total, most⟩ := by
  have hmost := bound_le hb
  have hp' : p < 2 ^ 53 := by omega
  have hk' : k < 2 ^ 53 := by omega
  have hstate : ¬ most ≤ (p : Int) := by omega
  rw [Doing.Gives, execute]
  simp only [Doing.ensures_bind, Work.ensures_context, hw, Option.getD_some, if_true, visit, hb,
    Doing.ensures_ofExcept, hs, Work.ensures_change, if_neg hstate]
  refine (ensures_holds hc rfl hp' hk').mpr ?_
  by_cases hlt : p < k
  · simp only [decide_eq_true hlt, if_true, if_pos hlt]
    refine Doing.Gives.mono ?_ (gives_goOn _ rfl)
    rintro outcome scene' ⟨rfl, hcontext⟩
    exact ⟨rfl, _, scene.context.nex, hcontext, Entries.get?_put_self _ _ _⟩
  · simp only [decide_eq_false hlt, Bool.false_eq_true, if_false, if_neg hlt]
    refine Doing.Gives.mono ?_ (gives_leave hn _)
    rintro outcome scene' ⟨rfl, nex, hcontext⟩
    exact ⟨rfl, _, nex, hcontext, Entries.get?_put_self _ _ _⟩

end Visit

end FlowEngine.Step.Loop
