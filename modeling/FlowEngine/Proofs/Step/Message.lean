import FlowEngine.Proofs.Step.Frame

/-!
# Executors that speak for the run

An executor may write the message with which the run fails, but then its outcome has to halt the run.
Of the executors that come with the engine only that of loops writes the message, and it keeps to
this: the message is also that of its outcome.
-/

namespace FlowEngine

/-- Work that writes the message of the run only with a failure that halts it, and only as told. -/
def Work.Speaks (told : Outcome → String → Prop) (x : Work Outcome) : Prop :=
  ∀ scene, x.Ensures scene fun result scene' =>
    scene'.context.errorMessage = scene.context.errorMessage ∨
      ∃ outcome text, result = .ok outcome ∧ outcome.status = .failure ∧ outcome.halts = true ∧
        told outcome text ∧ scene'.context.errorMessage = some text

abbrev Work.Frank : Work Outcome → Prop :=
  Work.Speaks fun outcome text => outcome.errorMessage = some text

/-- An entry of a registry with an executor that comes with the engine. -/
def Step.Standard (entry : NodeType × Executor) : Prop :=
  ∃ settings connectors launcher,
    Step.executor? settings connectors launcher entry.1 = some entry.2

/-- Each executor of an engine comes with it or leaves the message of the run alone. -/
def Engine.Discreet (engine : Engine) : Prop :=
  ∀ entry ∈ engine.registry.entries,
    Step.Standard entry ∨ ∀ node, Work.Keeps Context.errorMessage (entry.2 node)

namespace Work

variable {α : Type} {told : Outcome → String → Prop}

theorem Keeps.speaks {x : Work Outcome} (hx : x.Keeps Context.errorMessage) : x.Speaks told :=
  fun scene => Doing.Ensures.mono (fun _ _ hk => Or.inl hk) (hx.same scene)

theorem speaks_bind {x : Work α} {f : α → Work Outcome} (hx : x.Keeps Context.errorMessage)
    (hf : ∀ a, (f a).Speaks told) : Speaks told (x >>= f) := by
  intro scene
  refine Doing.ensures_bind.mpr (Doing.Ensures.mono ?_ (hx.same scene))
  rintro (fault | a) scene' hk
  · exact Or.inl hk
  · refine Doing.Ensures.mono ?_ (hf a scene')
    rintro result scene'' (hk' | h)
    · exact Or.inl (hk'.trans hk)
    · exact Or.inr h

theorem speaks_ite {c : Prop} [Decidable c] {x y : Work Outcome} (hx : x.Speaks told)
    (hy : y.Speaks told) : Speaks told (if c then x else y) := by
  split
  · exact hx
  · exact hy

end Work

namespace Step

open Work

variable (node : Node)

namespace Loop

theorem frank_halt (error : String) : (halt node error).Frank :=
  fun _ => Or.inr ⟨Outcome.halted node error, error, rfl, rfl, rfl, rfl, rfl⟩

theorem frank_visit : (visit node).Frank := by
  refine speaks_bind (keeps_ofExcept _) fun most => ?_
  refine speaks_bind keeps_context fun context => ?_
  refine speaks_bind (keeps_change fun _ => rfl) fun _ => ?_
  refine speaks_ite (frank_halt node _) ?_
  refine speaks_bind (keeps_change fun _ => rfl) fun _ => ?_
  refine speaks_bind (keeps_holds node _) fun holds => ?_
  exact speaks_ite (keeps_goOn node _ fun _ _ _ => rfl).speaks
    (keeps_leave node _ fun _ _ _ => rfl).speaks

theorem frank_execute : (execute node).Frank := by
  refine speaks_bind keeps_context fun context => ?_
  exact speaks_ite (frank_visit node) (frank_halt node _)

end Loop

theorem Standard.frank {entry : NodeType × Executor} (h : Standard entry) :
    (entry.2 node).Frank := by
  obtain ⟨settings, connectors, launcher, hx⟩ := h
  by_cases hl : entry.1 = .loop
  · rw [hl] at hx
    exact Option.some.inj hx ▸ Loop.frank_execute node
  · exact (keeps_executor_of_ne_loop node (fun _ _ _ => rfl) settings connectors launcher hl hx).speaks

end Step

theorem Engine.Discreet.of_get {engine : Engine} (h : engine.Discreet) {node : Node}
    {id : Option String} {executor : Executor}
    (hg : engine.registry.get node.type id = .ok executor) : (executor node).Frank := by
  rcases h _ (Registry.mem_of_get hg) with hs | hk
  · exact hs.frank node
  · exact (hk node).speaks

end FlowEngine
