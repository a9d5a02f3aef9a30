import FlowEngine.Proofs.Step.Loop
import FlowEngine.Proofs.Step.Message

/-!
# Executors that save

Of the executors that come with the engine only that of loops saves anything: its summary, under the
name that the loop asks for, and only when the loop ends.
-/

namespace FlowEngine

theorem Step.Standard.keeps {γ : Type} {view : Context → γ} (hv : Context.Apart view)
    {entry : NodeType × Executor} (h : Step.Standard entry) (node : Node) :
    Work.Keeps view (entry.2 node) := by
  obtain ⟨settings, connectors, launcher, hx⟩ := h
  exact Step.keeps_executor hv node settings connectors launcher hx

def Node.saved (node : Node) (v : Value) (nex : Entries Value) : Entries Value :=
  match node.saveName?.filter isSaveName with
  | some name => nex.put name v
  | none => nex

/-- What a loop does to the saved outputs: it adds its summary when it ends, and else nothing. -/
def Step.Loop.Banks (node : Node) (before : Entries Value) (result : Except Fault Outcome)
    (after : Entries Value) : Prop :=
  (∃ state, result = .ok (left node state) ∧ after = node.saved (.object (summary state)) before) ∨
    after = before ∧ ∀ outcome, result = .ok outcome → outcome.status ≠ .success

namespace Step.Loop

open Work Doing

variable (node : Node)

/-- Work that adds to the saved outputs at most the summary of a loop that ends. -/
def Closes (x : Work Outcome) : Prop :=
  ∀ scene, x.Ensures scene fun result scene' =>
    Banks node scene.context.nex result scene'.context.nex

variable {node}

theorem closes_bind {α : Type} {x : Work α} {f : α → Work Outcome} (hx : x.Keeps Context.nex)
    (hf : ∀ a, Closes node (f a)) : Closes node (x >>= f) := by
  intro scene
  refine ensures_bind.mpr (Ensures.mono ?_ (hx.same scene))
  rintro (fault | a) scene' hk
  · exact Or.inr ⟨hk, by rintro _ ⟨⟩⟩
  · have ha := hf a scene'
    rw [show scene'.context.nex = scene.context.nex from hk] at ha
    exact ha

theorem closes_ite {c : Prop} [Decidable c] {x y : Work Outcome} (hx : Closes node x)
    (hy : Closes node y) : Closes node (if c then x else y) := by
  split
  · exact hx
  · exact hy

theorem closes_pure {outcome : Outcome} (hs : outcome.status ≠ .success) :
    Closes node (pure outcome) := by
  refine fun scene => Or.inr ⟨rfl, ?_⟩
  rintro _ ⟨⟩
  exact hs

theorem closes_halt (error : String) : Closes node (halt node error) :=
  closes_bind (keeps_change fun _ => rfl) fun _ => closes_pure (by rintro ⟨⟩)

theorem closes_goOn (state : LoopState) : Closes node (goOn node state) := by
  refine closes_bind (keeps_change fun _ => rfl) fun _ => ?_
  exact closes_bind (keeps_note _) fun _ => closes_pure (by rintro ⟨⟩)

theorem closes_leave (state : LoopState) : Closes node (leave node state) := by
  intro scene
  unfold Banks Node.saved
  refine ensures_bind.mpr (ensures_ofExcept.mpr ?_)
  cases hn : node.saveName with
  | error fault => exact Or.inr ⟨rfl, by rintro _ ⟨⟩⟩
  | ok saveName =>
    rw [Node.saveName?_of_eq hn]
    dsimp only
    cases saveName.filter isSaveName with
    | none =>
      simp only [ensures_bind, ensures_note, ensures_pure]
      exact Or.inl ⟨state, rfl, trivial⟩
    | some name =>
      simp only [ensures_bind, ensures_change, ensures_note, ensures_pure]
      exact Or.inl ⟨state, rfl, rfl⟩

theorem closes_visit : Closes node (visit node) := by
  refine closes_bind (keeps_ofExcept _) fun most => ?_
  refine closes_bind keeps_context fun context => ?_
  refine closes_bind (keeps_change fun _ => rfl) fun _ => ?_
  refine closes_ite (closes_halt _) ?_
  refine closes_bind (keeps_change fun _ => rfl) fun _ => ?_
  refine closes_bind (keeps_holds node _) fun holds => ?_
  exact closes_ite (closes_goOn _) (closes_leave _)

theorem closes_execute (node : Node) : Closes node (execute node) := by
  refine closes_bind keeps_context fun context => ?_
  exact closes_ite closes_visit (closes_halt _)

end Step.Loop

end FlowEngine
