import FlowEngine.Proofs.Reference.Saved
import FlowEngine.Proofs.Run.Ledger

/-!
# What a run has saved

The opening of a run, the engine and the loops save objects, under names that are trimmed and
checked to be identifiers. Each of them is therefore found again by a reference to its name.
-/

namespace FlowEngine

/-- Saved outputs that are objects under identifiers. -/
def Context.Addressable (nex : Entries Value) : Prop :=
  ∀ name v, nex.get? name = some v → Text.IsIdentifier name ∧ ∃ fields, v = .object fields

open Context

theorem Node.addressable_saved {node : Node} {fields nex : Entries Value} (h : Addressable nex) :
    Addressable (node.saved (.object fields) nex) := by
  unfold saved
  cases hn : node.saveName?.filter isSaveName with
  | none => exact h
  | some saved =>
    obtain ⟨hn, hs⟩ := Option.filter_eq_some_iff.mp hn
    intro name v
    rw [Entries.get?_put]
    split
    · rename_i he
      rintro ⟨⟩
      exact ⟨he ▸ node.isIdentifier_saveName hn hs, fields, rfl⟩
    · exact h name v

namespace Engine

open Doing

variable {engine : Engine} {graph : FlowGraph} {executionId : String} {payload : Entries Value}
  {context : Context} {node : Node} {executor : Executor}

theorem addressable_opening (graph : FlowGraph) (executionId : String) (payload : Entries Value)
    (now : Instant) : Addressable (opening graph executionId payload now).nex := by
  rw [opening, Context.seed_eq]
  exact (startOf graph).addressable_saved fun _ _ h => by cases h

theorem addressable_recorded {outcome : Outcome} (h : Addressable context.nex) :
    Addressable (recorded node outcome context).nex := by
  rw [recorded]
  split
  · exact h
  · rw [Context.record_eq]
    split
    · exact h
    · exact node.addressable_saved h

theorem Modest.addressable (hm : engine.Modest)
    (hg : engine.registry.get node.type (some node.id) = .ok executor) (scene : Scene) :
    (executor node).Ensures scene fun _ scene' =>
      Addressable scene.context.nex → Addressable scene'.context.nex := by
  by_cases hx : node.type = .loop ∧ executor = Step.Loop.execute
  · obtain ⟨-, rfl⟩ := hx
    refine Ensures.mono ?_ (Step.Loop.closes_execute node scene)
    rintro result scene' (⟨state, -, hnex⟩ | ⟨hnex, -⟩) h
    · exact hnex ▸ node.addressable_saved h
    · exact hnex ▸ h
  · refine Ensures.mono ?_ ((hm.keeps_nex hg hx).same scene)
    exact fun _ scene' hnex h => hnex ▸ h

theorem Reaches.addressable {walk : Walk} (hm : engine.Modest)
    (h : Reaches engine graph executionId payload walk context) : Addressable context.nex := by
  refine h.invariant (fun _ context => Addressable context.nex)
    (addressable_opening graph executionId payload) ?_ (fun _ _ _ _ _ _ _ ha => ha)
    fun _ _ _ ha => ha
  intro walk scene node queue executor _ _ _ hg ha
  refine Yields.mono ?_ (Attempt.yields_run (fun c _ c' => Addressable c.nex → Addressable c'.nex)
    (hm.addressable hg) (fun _ _ _ _ _ h _ h' => h' ∘ h) (fun _ _ _ _ h _ => h)
    (entered node scene))
  intro outcome scene' hrun
  obtain ⟨message, hturn⟩ := Turn.after_context graph node outcome { walk with queue }
    (recorded node outcome scene'.context)
  show Addressable (Turn.after _ _ _ _ _).context.nex
  rw [hturn]
  exact addressable_recorded (hrun ha)

/-- All the way through a run each saved output is an object under an identifier, and a setting that
is nothing but a reference to it has it as its value. -/
theorem Arises.saved_addressable (hm : engine.Modest)
    (h : Arises engine graph executionId payload context) :
    ∀ name ∈ context.nex.keys, Text.IsIdentifier name ∧
      ∃ fields, context.nex.get? name = some (.object fields) ∧
        ∀ loop key, (⟨context, loop⟩ : Scope).settings
          [(key, .text ("\x7b\x7bnex." ++ name ++ "\x7d\x7d"))] =
            .ok [(key, .object fields)] := by
  have haddressable : Addressable context.nex :=
    h.invariant (fun context => Addressable context.nex) (fun _ _ h => h.addressable hm)
      (fun _ _ ha => ha) fun _ _ scene hg ha =>
        Ensures.mono (fun _ _ hx => hx ha) (hm.addressable hg scene)
  intro name hk
  obtain ⟨v, hv⟩ := Option.isSome_iff_exists.mp ((Entries.get?_isSome_iff _ _).mpr hk)
  obtain ⟨hn, fields, rfl⟩ := haddressable name v hv
  exact ⟨hn, fields, hv, fun loop key => Scope.settings_saved ⟨context, loop⟩ key hn hv⟩

end Engine

/-- The payload that the start node saved is found under its name. -/
theorem Noted.noted_addressable :
    ∃ passage,
      ((Engine.plain.follow flow "run" payload).served Request.answer .outside ()).1.1 =
        .ok passage ∧
      (⟨passage.context, none⟩ : Scope).settings [("k", .text "\x7b\x7bnex.in\x7d\x7d")] =
        .ok [("k", .object [("body", .object payload)])] := by
  obtain ⟨passage, hp, hin⟩ : ∃ passage,
      ((Engine.plain.follow flow "run" payload).served Request.answer .outside ()).1.1 = .ok passage ∧
        passage.context.nex = [("in", .object [("body", .object payload)])] := ⟨_, rfl, rfl⟩
  have hreaches := Engine.follow_reaches.served Request.answer () passage hp
  obtain ⟨-, fields, hv, hsettings⟩ :=
    (Engine.Arises.between hreaches).saved_addressable Engine.plain_modest "in"
      (by simp [hin, Entries.keys])
  rw [hin] at hv
  cases hv
  exact ⟨passage, hp, hsettings none "k"⟩

end FlowEngine
