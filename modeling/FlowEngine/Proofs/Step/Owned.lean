import FlowEngine.Proofs.Step.LoopState
import FlowEngine.Proofs.Step.Variables

/-!
# What each executor owns of a context

Variables belong to variable nodes, each to the keys of the map it is configured with. The states of
loops, the saved outputs that are written during a call and the message of the run belong to loops,
each to its own id, to its save name and to the two texts with which it halts. Nothing else of a
context is written during a call, whether it ends in an outcome or in a fault.
-/

namespace FlowEngine

def Step.Loop.HaltsWith (node : Node) (message : String) : Prop :=
  message = noWayBackText node ∨
    ∃ most, bound (node.setting "maxIterations") = .ok most ∧ message = usedUpText node most

/-- What a call of the executor of a type at a node may have made of a context. -/
structure Context.OwnedBy (type : NodeType) (node : Node) (before after : Context) : Prop where
  /-- The identity and standing of the run, its outcomes and their order are among the rest. -/
  rest : after = { before with
    vars := after.vars
    loopStates := after.loopStates
    nex := after.nex
    errorMessage := after.errorMessage }
  vars : after.vars = before.vars ∨ type = .variable ∧ ∃ written : Entries Value,
    written.keys <+: (node.mapSetting "variables").keys ∧ after.vars = before.vars.putAll written
  loopStates : after.loopStates = before.loopStates ∨ type = .loop ∧
    ∃ state, after.loopStates = before.loopStates.put node.id state
  nex : after.nex = before.nex ∨ type = .loop ∧ ∃ name v,
    node.saveName?.filter isSaveName = some name ∧ after.nex = before.nex.put name v
  errorMessage : after.errorMessage = before.errorMessage ∨ type = .loop ∧ ∃ message,
    Step.Loop.HaltsWith node message ∧ after.errorMessage = some message

namespace Context

variable {type : NodeType} {node : Node} {before after : Context} {key : String}

theorem OwnedBy.refl (type : NodeType) (node : Node) (context : Context) :
    context.OwnedBy type node context :=
  ⟨rfl, .inl rfl, .inl rfl, .inl rfl, .inl rfl⟩

theorem OwnedBy.get?_vars (h : before.OwnedBy type node after)
    (hk : key ∉ (node.mapSetting "variables").keys) :
    after.vars.get? key = before.vars.get? key := by
  obtain hsame | ⟨-, written, hkeys, hvars⟩ := h.vars
  · rw [hsame]
  · have hnone : (written.reverse.find? fun pair => pair.1 = key) = none := by
      refine List.find?_eq_none.mpr fun pair hp hkey => hk (hkeys.subset ?_)
      rw [← of_decide_eq_true hkey]
      exact List.mem_map_of_mem (List.mem_reverse.mp hp)
    rw [hvars, Entries.get?_putAll, hnone]
    rfl

theorem OwnedBy.get?_loopStates (h : before.OwnedBy type node after) (hk : key ≠ node.id) :
    after.loopStates.get? key = before.loopStates.get? key := by
  obtain hsame | ⟨-, state, hstates⟩ := h.loopStates
  · rw [hsame]
  · rw [hstates, Entries.get?_put, if_neg hk.symm]

theorem OwnedBy.get?_nex (h : before.OwnedBy type node after)
    (hk : node.saveName?.filter isSaveName ≠ some key) :
    after.nex.get? key = before.nex.get? key := by
  obtain hsame | ⟨-, name, v, hname, hnex⟩ := h.nex
  · rw [hsame]
  · rw [hnex, Entries.get?_put, if_neg]
    rintro rfl
    exact hk hname

end Context

namespace Step

open Doing

theorem owned_setVariables (node : Node) (scene : Scene) :
    (setVariables node).Ensures scene fun _ scene' =>
      scene.context.OwnedBy .variable node scene'.context := by
  cases hs : Scope.settings ⟨scene.context, none⟩ (node.mapSetting "variables") with
  | error fault =>
    refine ensures_bind.mpr (Work.ensures_scope.mpr (ensures_bind.mpr
      (Work.ensures_resolveAll.mpr ?_)))
    rw [hs]
    exact .refl _ _ _
  | ok settings =>
    have hkeys : (writes settings).1.keys <+: (node.mapSetting "variables").keys := by
      rw [← keys_settings hs]
      exact keys_writes settings
    exact (ensures_setVariables_iff hs).mpr
      ⟨rfl, .inr ⟨rfl, _, hkeys, rfl⟩, .inl rfl, .inl rfl, .inl rfl⟩

namespace Loop

theorem ensures_halt {node : Node} {error : String} {scene : Scene}
    {post : Except Fault Outcome → Scene → Prop}
    (h : post (.ok (Outcome.halted node error))
      { scene with context := scene.context.fail error }) :
    (halt node error).Ensures scene post := h

theorem owned_visit (node : Node) (scene : Scene) :
    (visit node).Ensures scene fun _ scene' =>
      scene.context.OwnedBy .loop node scene'.context := by
  refine ensures_bind.mpr (ensures_ofExcept.mpr ?_)
  cases hb : bound (node.setting "maxIterations") with
  | error fault => exact .refl _ _ _
  | ok most =>
    refine ensures_bind.mpr (Work.ensures_context.mpr (ensures_bind.mpr
      (Work.ensures_change.mpr (ensures_ite.mpr ?_))))
    split
    · exact ensures_halt ⟨rfl, .inl rfl, .inr ⟨rfl, _, rfl⟩, .inl rfl,
        .inr ⟨rfl, _, .inr ⟨most, hb, rfl⟩, rfl⟩⟩
    · refine ensures_bind.mpr (Work.ensures_change.mpr (ensures_bind.mpr
        (ensures_holds_of_forall ?_)))
      -- Each write of the state replaces the one before, whichever way the visit ends.
      rintro (fault | goes)
      · exact ⟨rfl, .inl rfl, .inr ⟨rfl, _, Entries.put_put _ _ _ _⟩, .inl rfl, .inl rfl⟩
      · refine ensures_ite.mpr ?_
        split
        · refine ensures_bind.mpr (Work.ensures_change.mpr (ensures_bind.mpr
            (Work.ensures_note.mpr ?_)))
          exact ⟨rfl, .inl rfl,
            .inr ⟨rfl, _, (Entries.put_put _ _ _ _).trans (Entries.put_put _ _ _ _)⟩,
            .inl rfl, .inl rfl⟩
        · refine ensures_leave (fun fault _ => ?_) fun nex hnex => ?_
          · exact ⟨rfl, .inl rfl, .inr ⟨rfl, _, Entries.put_put _ _ _ _⟩, .inl rfl, .inl rfl⟩
          refine ⟨rfl, .inl rfl, .inr ⟨rfl, _, Entries.put_put _ _ _ _⟩, ?_, .inl rfl⟩
          obtain hsame | ⟨name, v, hname, hput⟩ := hnex
          · exact .inl hsame
          · exact .inr ⟨rfl, name, v, hname, hput⟩

theorem owned_execute (node : Node) (scene : Scene) :
    (execute node).Ensures scene fun _ scene' =>
      scene.context.OwnedBy .loop node scene'.context := by
  refine ensures_bind.mpr (Work.ensures_context.mpr (ensures_ite.mpr ?_))
  split
  · exact owned_visit node scene
  · exact ensures_halt ⟨rfl, .inl rfl, .inl rfl, .inl rfl, .inr ⟨rfl, _, .inl rfl, rfl⟩⟩

end Loop

/-- Each executor that comes with the engine writes only its own part of a context, whatever it is
configured with, whatever the replies are and whether it ends in an outcome or in a fault. -/
theorem executor_writes_own {settings : Settings} {connectors : Entries Connector}
    {launcher : Option CallFlow.Launcher} {type : NodeType} {executor : Executor}
    (h : executor? settings connectors launcher type = some executor) (node : Node)
    (scene : Scene) :
    (executor node).Ensures scene fun _ scene' =>
      scene.context.OwnedBy type node scene'.context ∧
      (∀ key, key ∉ (node.mapSetting "variables").keys →
        scene'.context.vars.get? key = scene.context.vars.get? key) ∧
      (∀ id, id ≠ node.id →
        scene'.context.loopStates.get? id = scene.context.loopStates.get? id) ∧
      ∀ name, node.saveName?.filter isSaveName ≠ some name →
        scene'.context.nex.get? name = scene.context.nex.get? name := by
  have howned : (executor node).Ensures scene fun _ scene' =>
      scene.context.OwnedBy type node scene'.context := by
    by_cases hl : type = .loop
    · subst hl
      exact Option.some.inj h ▸ Loop.owned_execute node scene
    · by_cases hv : type = .variable
      · subst hv
        exact Option.some.inj h ▸ owned_setVariables node scene
      · -- The other executors keep the whole context.
        have hkeeps : Work.Keeps id (executor node) :=
          keeps_executor_of_ne node settings connectors launcher hv hl h
        refine Ensures.mono ?_ (hkeeps.same scene)
        intro _ scene' hsame
        rw [show scene'.context = scene.context from hsame]
        exact .refl _ _ _
  refine Ensures.mono ?_ howned
  intro _ scene' ho
  exact ⟨ho, fun _ => ho.get?_vars, fun _ => ho.get?_loopStates, fun _ => ho.get?_nex⟩

/-- A loop that ends on its first visit and saves its summary. -/
theorem loop_writes_own :
    executor? .default [] none .loop = some Loop.execute ∧
      (Loop.execute (Node.mk "loop" .loop "" [("saveOutputAs", .text "total")] [])).Ensures
        ⟨{ Context.create "f" "r" ⟨2024, 1, 1, 0, 0, 0, 0, none⟩ with
          loopEdges := [("loop", true)] }, .outside⟩
        fun _ scene' => scene'.context.loopStates.get? "other" = none ∧
          scene'.context.nex.get? "other" = none := by
  have hloop : executor? .default [] none .loop = some Loop.execute := rfl
  refine ⟨hloop, Ensures.mono ?_ (executor_writes_own hloop _ _)⟩
  rintro _ scene' ⟨-, -, hstates, hnex⟩
  exact ⟨hstates "other" (by decide), hnex "other" (by decide)⟩

end Step

end FlowEngine
