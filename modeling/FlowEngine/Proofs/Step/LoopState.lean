import FlowEngine.Proofs.Run.Retry
import FlowEngine.Proofs.Step.Frame
import FlowEngine.Proofs.Step.Loop

/-!
# What a loop writes

A call at a loop does one of four things. It is refused before any state is touched, it finds the
iterations used up, it collects and stays, or it collects and goes on. Only the last one counts.
-/

namespace FlowEngine

namespace Context

/-- How often a loop has gone on. One that was never visited has not. -/
def loopIndex (context : Context) (id : String) : Int :=
  ((context.loopStates.get? id).map (·.index)).getD 0

def loopItems (context : Context) (id : String) : List Value :=
  ((context.loopStates.get? id).map (·.accumulated)).getD []

/-- Of the states of loops only one was written. -/
def Writes (before after : Context) (id : String) (state : LoopState) : Prop :=
  ∀ other, after.loopStates.get? other =
    if id = other then some state else before.loopStates.get? other

variable {before after : Context} {id other : String} {state : LoopState}

theorem loopIndex_congr (h : after.loopStates = before.loopStates) (id : String) :
    after.loopIndex id = before.loopIndex id := by
  rw [loopIndex, h]
  rfl

theorem loopItems_congr (h : after.loopStates = before.loopStates) (id : String) :
    after.loopItems id = before.loopItems id := by
  rw [loopItems, h]
  rfl

theorem enterLoop_eq (context : Context) (id : String) (most : Int) :
    ∃ nodeId, context.enterLoop id most =
      ⟨nodeId, context.loopIndex id, context.loopItems id, most⟩ := by
  unfold enterLoop loopIndex loopItems
  cases context.loopStates.get? id with
  | none => exact ⟨id, rfl⟩
  | some state => exact ⟨state.nodeId, rfl⟩

theorem writes_setLoop (context : Context) (id : String) (state : LoopState) :
    context.Writes (context.setLoop id state) id state :=
  fun other => Entries.get?_put context.loopStates id state other

theorem Writes.setLoop (h : before.Writes after id state) (state' : LoopState) :
    before.Writes (after.setLoop id state') id state' := by
  intro other
  rw [writes_setLoop after id state' other, h other]
  split <;> rfl

theorem Writes.index (h : before.Writes after id state) (other : String) :
    after.loopIndex other = if id = other then state.index else before.loopIndex other := by
  unfold loopIndex
  rw [h other]
  split <;> rfl

theorem Writes.items (h : before.Writes after id state) (other : String) :
    after.loopItems other = if id = other then state.accumulated else before.loopItems other := by
  unfold loopItems
  rw [h other]
  split <;> rfl

theorem Writes.unmoved (h : before.Writes after id state)
    (hi : state.index = before.loopIndex id) (ha : state.accumulated = before.loopItems id)
    (other : String) :
    after.loopIndex other = before.loopIndex other ∧
      after.loopItems other = before.loopItems other := by
  rw [h.index, h.items]
  by_cases hid : id = other
  · rw [if_pos hid, if_pos hid, hi, ha, hid]
    exact ⟨rfl, rfl⟩
  · rw [if_neg hid, if_neg hid]
    exact ⟨rfl, rfl⟩

end Context

namespace Step.Loop

open Doing

variable {node : Node}

theorem length_collected_le (context : Context) (state : LoopState) :
    (collected context state).length ≤ 1 := by
  unfold collected
  split
  · exact Nat.zero_le 1
  · dsimp only
    split
    · exact Nat.zero_le 1
    · split
      · exact Nat.zero_le 1
      · exact Nat.le_refl 1

/-- What a call at a loop can do. -/
inductive Effect (node : Node) (context : Context) (outcome : Outcome) (context' : Context) :
    Prop where
  | refused (ho : outcome.status = .failure) (hs : context'.loopStates = context.loopStates)
  | usedUp (most : Int) (hb : bound (node.setting "maxIterations") = .ok most)
      (hm : most ≤ context.loopIndex node.id) (ho : outcome.status = .failure)
      (hh : outcome.halts = true)
      (hw : ∃ nodeId, context.Writes context' node.id
        ⟨nodeId, context.loopIndex node.id, context.loopItems node.id, most⟩)
  | stayed (most : Int) (items : List Value) (hb : bound (node.setting "maxIterations") = .ok most)
      (hm : context.loopIndex node.id < most) (ho : outcome.status ≠ .continuing)
      (hi : items.length ≤ 1)
      (hw : ∃ nodeId, context.Writes context' node.id
        ⟨nodeId, context.loopIndex node.id, context.loopItems node.id ++ items, most⟩)
  | wentOn (most : Int) (items : List Value) (hb : bound (node.setting "maxIterations") = .ok most)
      (hm : context.loopIndex node.id < most) (ho : outcome.status = .continuing)
      (hi : items.length ≤ 1)
      (hw : ∃ nodeId, context.Writes context' node.id
        ⟨nodeId, context.loopIndex node.id + 1, context.loopItems node.id ++ items, most⟩)

/-- A call that is not refused writes the state of its loop once: the index is moved on exactly if
the loop goes on, and what was collected stays in front. -/
theorem Effect.written {context context' : Context} {outcome : Outcome}
    (h : Effect node context outcome context') :
    outcome.status = .failure ∧ context'.loopStates = context.loopStates ∨
      ∃ most index items nodeId, bound (node.setting "maxIterations") = .ok most ∧
        index = context.loopIndex node.id + (if outcome.status = .continuing then 1 else 0) ∧
        (context.loopIndex node.id ≤ most → index ≤ most) ∧ List.length items ≤ 1 ∧
        context.Writes context' node.id
          ⟨nodeId, index, context.loopItems node.id ++ items, most⟩ := by
  cases h with
  | refused ho hs => exact Or.inl ⟨ho, hs⟩
  | usedUp most hb hm ho hh hw =>
    obtain ⟨nodeId, hw⟩ := hw
    refine Or.inr ⟨most, context.loopIndex node.id, [], nodeId, hb, ?_, id, Nat.zero_le 1, ?_⟩
    · rw [ho]
      exact (Int.add_zero _).symm
    · rw [List.append_nil]
      exact hw
  | stayed most items hb hm ho hi hw =>
    obtain ⟨nodeId, hw⟩ := hw
    refine Or.inr ⟨most, context.loopIndex node.id, items, nodeId, hb, ?_, id, hi, hw⟩
    rw [if_neg ho]
    exact (Int.add_zero _).symm
  | wentOn most items hb hm ho hi hw =>
    obtain ⟨nodeId, hw⟩ := hw
    refine Or.inr ⟨most, context.loopIndex node.id + 1, items, nodeId, hb, ?_, fun _ => hm, hi, hw⟩
    rw [if_pos ho]

theorem ensures_holds_of_forall {state : LoopState} {scene : Scene}
    {post : Except Fault Bool → Scene → Prop} (h : ∀ result, post result scene) :
    (holds node state).Ensures scene post := by
  unfold holds
  refine ensures_bind.mpr (Work.ensures_context.mpr (ensures_bind.mpr
    (Work.ensures_resolve.mpr ?_)))
  split
  · exact h _
  · exact h _

theorem ensures_leave {state : LoopState} {scene : Scene}
    {post : Except Fault Outcome → Scene → Prop}
    (hf : ∀ fault, node.saveName = .error fault → post (.error fault) scene)
    (h : ∀ nex, nex = scene.context.nex ∨ (∃ name v,
        node.saveName?.filter isSaveName = some name ∧ nex = scene.context.nex.put name v) →
      post (.ok (left node state)) { scene with context := { scene.context with nex } }) :
    (leave node state).Ensures scene post := by
  refine ensures_bind.mpr (ensures_ofExcept.mpr ?_)
  cases hn : node.saveName with
  | error fault => exact hf fault hn
  | ok saveName =>
    rw [Node.saveName?_of_eq hn] at h
    dsimp only
    cases hs : saveName.filter isSaveName with
    | none => exact ensures_bind.mpr (Work.ensures_note.mpr (h scene.context.nex (.inl rfl)))
    | some name =>
      refine ensures_bind.mpr (Work.ensures_change.mpr (ensures_bind.mpr
        (Work.ensures_note.mpr ?_)))
      exact h _ (.inr ⟨name, _, hs, rfl⟩)

theorem ensures_effect (node : Node) (scene : Scene) :
    (execute node).Ensures scene fun result scene' =>
      Effect node scene.context (Attempt.outcomeOf node result) scene'.context := by
  unfold execute
  refine ensures_bind.mpr (Work.ensures_context.mpr (ensures_ite.mpr ?_))
  split
  · unfold visit
    refine ensures_bind.mpr (ensures_ofExcept.mpr ?_)
    cases hb : bound (node.setting "maxIterations") with
    | error fault => exact .refused rfl rfl
    | ok most =>
      obtain ⟨nodeId, hstate⟩ := scene.context.enterLoop_eq node.id most
      refine ensures_bind.mpr (Work.ensures_context.mpr (ensures_bind.mpr
        (Work.ensures_change.mpr ?_)))
      rw [hstate]
      have hentered := Context.writes_setLoop scene.context node.id
        ⟨nodeId, scene.context.loopIndex node.id, scene.context.loopItems node.id, most⟩
      refine ensures_ite.mpr ?_
      split
      · rename_i hm
        exact .usedUp most hb hm rfl rfl ⟨nodeId, hentered⟩
      · rename_i hm
        have hlt : scene.context.loopIndex node.id < most := Int.not_le.mp hm
        refine ensures_bind.mpr (Work.ensures_change.mpr (ensures_bind.mpr
          (ensures_holds_of_forall ?_)))
        have hlength := length_collected_le scene.context
          ⟨nodeId, scene.context.loopIndex node.id, scene.context.loopItems node.id, most⟩
        -- A fault of the condition leaves what was collected before it.
        rintro (fault | goes)
        · exact .stayed most _ hb hlt (by rintro ⟨⟩) hlength ⟨nodeId, hentered.setLoop _⟩
        · refine ensures_ite.mpr ?_
          split
          · refine ensures_bind.mpr (Work.ensures_change.mpr (ensures_bind.mpr
              (Work.ensures_note.mpr ?_)))
            exact .wentOn most _ hb hlt rfl hlength ⟨nodeId, (hentered.setLoop _).setLoop _⟩
          · refine ensures_leave (fun fault _ => ?_) fun nex _ => ?_
            · exact .stayed most _ hb hlt (by rintro ⟨⟩) hlength ⟨nodeId, hentered.setLoop _⟩
            · exact .stayed most _ hb hlt (by rintro ⟨⟩) hlength ⟨nodeId, hentered.setLoop _⟩
  · exact .refused rfl rfl

end Step.Loop

end FlowEngine
