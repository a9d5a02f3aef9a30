import FlowEngine.Proofs.Run.Return
import FlowEngine.Proofs.Work.Compatible

/-!
# Runs of related executors

A run does little of itself, and all of that is aloof or tells of a node. So two engines whose
executors are related for the nodes of a flow have related runs of it, for every compatible relation.
-/

namespace FlowEngine

open Doing

variable {p : Request → Prop} {R : ∀ {α : Type}, Work α → Work α → Prop}

namespace Attempt

variable {executor executor' : Executor} {node : Node}

theorem related_once (hR : Work.Compatible p R) (hp : Request.Basic p)
    (he : R (executor node) (executor' node)) : R (once executor node) (once executor' node) := by
  refine hR.bind (hR.attempt he) fun result _ => ?_
  cases result with
  | ok outcome => exact hR.aloof (aloof_pure outcome)
  | error fault =>
    refine hR.after (Work.aloof_note hp.log _) fun _ => ?_
    exact hR.bind (hR.emitFor node fun _ _ _ => rfl) fun _ _ => hR.aloof (aloof_pure _)

theorem related_announce (hR : Work.Compatible p R) (hp : Request.Basic p) (attempt most : Nat)
    (delay : Double) (outcome : Outcome) :
    R (announce node attempt most delay outcome) (announce node attempt most delay outcome) :=
  hR.after (Work.aloof_note hp.log _) fun _ => hR.emitFor node fun _ _ _ => rfl

theorem aloof_cancel (hp : Request.Basic p) (attempt most : Nat) (outcome : Outcome) :
    (cancel node attempt most outcome).Aloof p := by
  refine aloof_bind (Work.aloof_note hp.log _) fun _ => ?_
  exact aloof_bind (Work.aloof_change _) fun _ => aloof_pure _

theorem related_series (hR : Work.Compatible p R) (hp : Request.Basic p)
    (he : R (executor node) (executor' node)) (policy : RetryPolicy) (left made : Nat)
    (delay : Double) :
    R (series executor node policy left made delay) (series executor' node policy left made delay) := by
  induction left generalizing made delay with
  | zero => exact related_once hR hp he
  | succ left ih =>
    refine hR.bind (related_once hR hp he) fun outcome _ => ?_
    refine hR.ite ?_ (hR.aloof (aloof_pure outcome))
    refine hR.bind (related_announce hR hp _ _ _ _) fun _ _ => ?_
    refine hR.after (aloof_ask (hp.pause _)) fun cancelled => ?_
    exact hR.ite (hR.aloof (aloof_cancel hp _ _ _)) (ih _ _)

theorem related_run (hR : Work.Compatible p R) (hp : Request.Basic p)
    (he : R (executor node) (executor' node)) : R (run executor node) (run executor' node) := by
  refine hR.after (Work.aloof_noteAll hp.log _) fun _ => ?_
  exact hR.after (aloof_ofExcept _) fun policy => related_series hR hp he _ _ _ _

end Attempt

/-- Two registries have the same types, and related executors for a node. -/
def Registry.Related (R : ∀ {α : Type}, Work α → Work α → Prop) (r r' : Registry Executor)
    (node : Node) : Prop :=
  match r.get node.type (some node.id), r'.get node.type (some node.id) with
  | .ok executor, .ok executor' => R (executor node) (executor' node)
  | .error fault, .error fault' => fault = fault'
  | _, _ => False

namespace Engine

variable {engine engine' : Engine} {graph : FlowGraph} {node : Node} {walk : Walk}

theorem aloof_enter (node : Node) : (enter node).Aloof p := aloof_update fun _ => rfl

theorem aloof_keepOutcome (hp : Request.Basic p) (node : Node) (outcome : Outcome) :
    (keepOutcome node outcome).Aloof p := by
  refine aloof_ite (aloof_pure ()) ?_
  refine aloof_bind (aloof_ofExcept _) fun name => ?_
  refine aloof_bind Work.aloof_context fun context => ?_
  exact aloof_bind (Work.aloof_noteAll hp.log _) fun _ => Work.aloof_change _

theorem aloof_overflow (hp : Request.Basic p) (limit : Value) (node : Node) (walk : Walk) :
    (overflow limit node walk).Aloof p := by
  refine aloof_bind (aloof_ofExcept _) fun text => ?_
  refine aloof_bind (Work.aloof_change _) fun _ => ?_
  exact aloof_bind (Work.aloof_note hp.log _) fun _ => aloof_pure _

theorem aloof_conclude (hp : Request.Basic p) (walk : Walk) : (conclude walk).Aloof p := by
  refine aloof_bind (aloof_ask hp.now) fun now => ?_
  refine aloof_bind (Work.aloof_change _) fun _ => ?_
  exact aloof_bind Work.aloof_context fun context => Work.aloof_note hp.log _

theorem related_visit (hR : Work.Compatible p R) (hp : Request.Basic p)
    (he : Registry.Related R engine.registry engine'.registry node) (walk : Walk) :
    R (visit engine graph node walk) (visit engine' graph node walk) := by
  refine hR.after Work.aloof_context fun context => ?_
  refine hR.after (Work.aloof_note hp.log _) fun _ => ?_
  refine hR.bind (hR.emitFor node fun _ _ _ => rfl) fun _ _ => ?_
  -- The registries give both an executor or neither of them, with the same fault.
  unfold Registry.Related at he
  cases hg : engine.registry.get node.type (some node.id) with
  | error fault =>
    cases hg' : engine'.registry.get node.type (some node.id) with
    | ok executor' => simp only [hg, hg'] at he
    | error fault' =>
      simp only [hg, hg'] at he
      subst he
      exact hR.aloof (aloof_ofExcept _)
  | ok executor =>
    cases hg' : engine'.registry.get node.type (some node.id) with
    | error fault' => simp only [hg, hg'] at he
    | ok executor' =>
      simp only [hg, hg'] at he
      change R (Attempt.run executor node >>= _) (Attempt.run executor' node >>= _)
      refine hR.bind (Attempt.related_run hR hp he) fun outcome _ => ?_
      refine hR.after (aloof_keepOutcome hp node outcome) fun _ => ?_
      refine hR.after Work.aloof_context fun context => ?_
      refine hR.bind (hR.emitFor node fun _ _ _ => rfl) fun _ _ => ?_
      refine hR.after Work.aloof_context fun context => ?_
      refine hR.after (Work.aloof_change _) fun _ => ?_
      exact hR.after (Work.aloof_noteAll hp.log _) fun _ => hR.aloof (aloof_pure _)

theorem known_of_canGive_visit {queue : List Node} {walk' : Walk} (hn : walk.ending = none)
    (hk : ∀ waiting ∈ node :: queue, graph.Known waiting)
    (h : (visit engine graph node { walk with queue }).CanGive walk') :
    ∀ waiting ∈ walk'.queue, graph.Known waiting := by
  obtain ⟨scene, t, scene', ht⟩ := h
  obtain ⟨_, visits, failed, _⟩ := walk
  obtain rfl : _ = none := hn
  have hyields : (visit engine graph node ⟨queue, visits, failed, none⟩).Yields scene fun walk' _ =>
      ∀ waiting ∈ walk'.queue, graph.Known waiting :=
    yields_visit fun executor _ => ensures_of_forall fun result scene' outcome _ =>
      Walk.known_step (Turn.after_step graph node outcome queue visits failed _) hk
  exact ensures_iff_forall_path.mp hyields t _ scene' ht walk' rfl

theorem related_walkOn (hR : Work.Compatible p R) (hp : Request.Basic p)
    (he : ∀ node, graph.Known node → Registry.Related R engine.registry engine'.registry node)
    (limit : Value) (left : Nat) (hk : ∀ waiting ∈ walk.queue, graph.Known waiting) :
    R (walkOn engine graph limit left walk) (walkOn engine' graph limit left walk) := by
  induction left generalizing walk with
  | zero =>
    unfold walkOn
    split
    · exact hR.aloof (aloof_pure walk)
    · exact hR.aloof (aloof_pure walk)
    · exact hR.after (aloof_enter _) fun _ => hR.aloof (aloof_overflow hp _ _ _)
  | succ left ih =>
    unfold walkOn
    split
    · exact hR.aloof (aloof_pure walk)
    · exact hR.aloof (aloof_pure walk)
    · rename_i node queue hn hq
      rw [hq] at hk
      refine hR.after (aloof_enter node) fun _ => ?_
      refine hR.bind (related_visit hR hp (he node (hk node List.mem_cons_self)) _) fun walk' hw => ?_
      exact ih (known_of_canGive_visit hn hk hw)

/-- Runs of a flow are related where executors are related for its nodes. -/
theorem related_perform (hR : Work.Compatible p R) (hp : Request.Basic p)
    (hmax : engine.maxSteps = engine'.maxSteps)
    (he : ∀ node, graph.Known node → Registry.Related R engine.registry engine'.registry node) :
    R (engine.perform graph) (engine'.perform graph) := by
  have hlimit : engine.limit graph = engine'.limit graph := by
    unfold limit
    rw [hmax]
  have hwalk : ∀ most, R
      (walkOn engine graph (engine'.limit graph) most (Walk.starting (startOf graph)))
      (walkOn engine' graph (engine'.limit graph) most (Walk.starting (startOf graph))) := by
    intro most
    apply related_walkOn hR hp he
    simpa [Walk.starting] using FlowGraph.known_startOf
  unfold perform
  rw [hlimit]
  dsimp only
  refine hR.ite (hR.after (Work.aloof_note hp.log _) fun _ => ?_) ?_
  all_goals
    refine hR.after (aloof_ofExcept _) fun name => ?_
    refine hR.after (Work.aloof_note hp.log _) fun _ => ?_
    refine hR.after (aloof_ofExcept _) fun most => ?_
    refine hR.bind (hwalk most) fun walk _ => ?_
    exact hR.after (aloof_conclude hp walk) fun _ => hR.aloof (aloof_pure walk)

end Engine

end FlowEngine
