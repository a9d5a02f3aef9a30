import FlowEngine.Proofs.Run.Retry
import FlowEngine.Proofs.Run.Return
import FlowEngine.Proofs.Work.Ensures

/-!
# What a run comes to

Between two visits a run has a walk and a context. Those that it can come to are given by rules: the
opening, a visit with any replies, the overflow and the close. During a visit the context also
changes with each call of the executor. What the rules keep holds all the way through a run.
-/

namespace FlowEngine

open Doing

namespace Attempt

variable {executor : Executor} {node : Node}

theorem ensures_cancel (node : Node) {attempt most : Nat} {outcome : Outcome}
    {scene : Scene} {post : Except Fault Outcome → Scene → Prop} :
    (cancel node attempt most outcome).Ensures scene post ↔
      post (.ok { outcome with halts := true }) { scene with
        context := scene.context.fail (cancelledText node attempt most outcome) } := by
  simp only [cancel, ensures_bind, Work.ensures_note, Work.ensures_change, ensures_pure]

theorem ensures_announce {attempt most : Nat} {delay : Double} {outcome : Outcome} {scene : Scene}
    {post : Except Fault Unit → Scene → Prop} :
    (announce node attempt most delay outcome).Ensures scene post ↔ post (.ok ()) scene := by
  simp only [announce, ensures_bind, Work.ensures_note, Work.ensures_emitFor]

section Relation

variable (R : Context → Outcome → Context → Prop)
  (called : ∀ scene, (executor node).Ensures scene fun result scene' =>
    R scene.context (outcomeOf node result) scene'.context)

include called

theorem yields_once (scene : Scene) :
    (once executor node).Yields scene fun outcome scene' =>
      R scene.context outcome scene'.context := by
  refine ensures_bind.mpr (ensures_attempt.mpr (Ensures.mono ?_ (called scene)))
  rintro (fault | outcome) scene' h
  · simp only [ensures_bind, Work.ensures_note, Work.ensures_emitFor, ensures_pure]
    rintro _ ⟨⟩
    exact h
  · rintro _ ⟨⟩
    exact h

variable (again : ∀ c o c' o' c'', R c o c' → callsForMore o = true → R c' o' c'' → R c o' c'')
  (cancelled : ∀ c o c' text, R c o c' → callsForMore o = true →
    R c { o with halts := true } (c'.fail text))

include again cancelled

theorem yields_series (policy : RetryPolicy) (left made : Nat) (delay : Double) (scene : Scene) :
    (series executor node policy left made delay).Yields scene fun outcome scene' =>
      R scene.context outcome scene'.context := by
  induction left generalizing made delay scene with
  | zero => exact yields_once R called scene
  | succ left ih =>
    refine ensures_bind.mpr (Ensures.mono ?_ (yields_once R called scene))
    rintro (fault | outcome) scene' h
    · rintro _ ⟨⟩
    · -- Only a failure with attempts left leads on, to the next attempt or to a cancelled wait.
      have hr : R scene.context outcome scene'.context := h outcome rfl
      dsimp only
      cases hm : callsForMore outcome with
      | false =>
        rintro _ ⟨⟩
        exact hr
      | true =>
        refine ensures_bind.mpr (ensures_announce.mpr
          (ensures_bind.mpr (ensures_ask.mpr fun reply => ?_)))
        cases reply with
        | true =>
          refine (ensures_cancel node).mpr ?_
          rintro _ ⟨⟩
          exact cancelled _ _ _ _ hr hm
        | false =>
          exact Yields.mono (fun _ _ hr' => again _ _ _ _ _ hr hm hr') (ih _ _ scene')

/-- A relation between the context before an attempt, its outcome and the context after it holds of
all attempts together, if failures that are tried again, or whose wait is cancelled, add up to it. -/
theorem yields_run (scene : Scene) :
    (run executor node).Yields scene fun outcome scene' =>
      R scene.context outcome scene'.context := by
  simp only [run, Yields, ensures_bind, Work.ensures_noteAll, ensures_ofExcept]
  split
  · exact yields_series R called again cancelled _ _ _ _ scene
  · rintro _ ⟨⟩

end Relation

end Attempt

namespace Engine

variable (engine : Engine) (graph : FlowGraph) (executionId : String) (payload : Entries Value)

/-- The walks and contexts that a run can come to between two visits, and at its end. -/
inductive Reaches : Walk → Context → Prop where
  | opened (now) : Reaches (Walk.starting (startOf graph)) (opening graph executionId payload now)
  | visited {walk scene node queue walk' scene'} (h : Reaches walk scene.context)
      (he : walk.ending = none) (hq : walk.queue = node :: queue)
      (hv : (visit engine graph node { walk with queue }).CanEnd (entered node scene) (.ok walk')
        scene') :
      Reaches walk' scene'.context
  | overflowed {walk context node queue} (h : Reaches walk context) (he : walk.ending = none)
      (hq : walk.queue = node :: queue) :
      Reaches { walk with queue, failed := true, ending := some .overflow }
        ({ context with currentNode := some node.id }.fail
          (overflowText (engine.limit graph) node))
  | closed {walk context} (h : Reaches walk context) (ho : walk.isOver = true) (now) :
      Reaches walk (closed walk now context)

/-- The contexts that a run can have: between two visits, and at a node whose executor was called
some times. -/
inductive Arises : Context → Prop where
  | between {walk context} (h : Reaches engine graph executionId payload walk context) :
      Arises context
  | within {walk scene node queue executor scene'}
      (h : Reaches engine graph executionId payload walk scene.context)
      (he : walk.ending = none) (hq : walk.queue = node :: queue)
      (hg : engine.registry.get node.type (some node.id) = .ok executor)
      (hc : Relation.ReflTransGen
        (fun scene scene' => ∃ result, (executor node).CanEnd scene result scene')
        (entered node scene) scene') :
      Arises scene'.context

variable {engine graph executionId payload}

theorem follow_reaches {place : Place} :
    (engine.follow graph executionId payload).Yields place fun passage _ =>
      Reaches engine graph executionId payload passage.walk passage.context := by
  cases hl : Limit.least ">=" (engine.limit graph) with
  | error fault => exact yields_follow_unordered hl
  | ok most =>
    refine Yields.mono ?_ (ends_follow hl
      (fun _ => Reaches engine graph executionId payload) (fun _ => True) (fun _ _ => trivial)
      .opened ?_ ?_ fun _ _ _ _ _ _ _ _ _ => trivial).yields
    · rintro passage _ ⟨-, -, now, context, h, ho, hc⟩
      rw [hc]
      exact .closed h ho now
    · intro left node queue walk scene he hq h
      refine Yields.ends (ensures_iff_forall_canEnd.mpr ?_)
      rintro _ scene' hv walk' rfl
      exact .visited h he hq hv
    · exact fun node queue walk context he hq h => .overflowed h he hq

/-- What the opening has, a visit with any outcome of its node keeps, and no other rule touches
holds of all that a run comes to. -/
theorem Reaches.invariant {walk : Walk} {context : Context} (inv : Walk → Context → Prop)
    (opened : ∀ now, inv (Walk.starting (startOf graph)) (opening graph executionId payload now))
    (visited : ∀ (walk : Walk) (scene : Scene) (node : Node) (queue : List Node)
      (executor : Executor), Reaches engine graph executionId payload walk scene.context →
      walk.ending = none → walk.queue = node :: queue →
      engine.registry.get node.type (some node.id) = .ok executor → inv walk scene.context →
      (Attempt.run executor node).Yields (entered node scene) fun outcome scene' =>
        let turn := turnOf graph node outcome { walk with queue } scene'.context
        inv turn.walk turn.context)
    (overflowed : ∀ (walk : Walk) (context : Context) (node : Node) (queue : List Node) text,
      walk.ending = none → walk.queue = node :: queue → inv walk context →
      inv { walk with queue, failed := true, ending := some .overflow }
        ({ context with currentNode := some node.id }.fail text))
    (closed : ∀ (walk : Walk) (context : Context) now, inv walk context →
      inv walk (Engine.closed walk now context))
    (h : Reaches engine graph executionId payload walk context) : inv walk context := by
  induction h with
  | opened now => exact opened now
  | @visited walk scene node queue walk' scene' h he hq hv ih =>
    have hyields : (visit engine graph node { walk with queue }).Yields (entered node scene)
        fun walk scene => inv walk scene.context :=
      yields_visit fun executor hg => visited walk scene node queue executor h he hq hg ih
    exact Ensures.of_canEnd hyields hv walk' rfl
  | overflowed h he hq ih => exact overflowed _ _ _ _ _ he hq ih
  | closed h ho now ih => exact closed _ _ now ih

theorem Reaches.reachable {walk : Walk} {context : Context}
    (h : Reaches engine graph executionId payload walk context) : walk.Reachable graph := by
  refine h.invariant (fun walk _ => walk.Reachable graph) (fun _ => .refl) ?_ ?_ fun _ _ _ hr => hr
  · rintro ⟨_, visits, failed, _⟩ scene node queue executor - rfl rfl - hr
    exact ensures_of_forall fun _ _ outcome _ =>
      hr.tail (Turn.after_step graph node outcome queue visits failed _)
  · rintro ⟨_, visits, failed, _⟩ context node queue text rfl rfl hr
    exact hr.tail (.overflow node queue visits failed)

/-- What holds between two visits, does not hang on the node that has its turn, and is kept by each
call of an executor holds all the way through a run. -/
theorem Arises.invariant {context : Context} (inv : Context → Prop)
    (between : ∀ walk context, Reaches engine graph executionId payload walk context → inv context)
    (entered : ∀ (context : Context) (id : String), inv context →
      inv { context with currentNode := some id })
    (called : ∀ (node : Node) (executor : Executor) (scene : Scene),
      engine.registry.get node.type (some node.id) = .ok executor → inv scene.context →
      (executor node).Ensures scene fun _ scene' => inv scene'.context)
    (h : Arises engine graph executionId payload context) : inv context := by
  cases h with
  | between h => exact between _ _ h
  | @within walk scene node queue executor scene' h he hq hg hc =>
    induction hc with
    | refl => exact entered _ _ (between _ _ h)
    | tail _ hstep ih =>
      obtain ⟨result, hend⟩ := hstep
      exact Ensures.of_canEnd (called node executor _ hg ih) hend

end Engine

end FlowEngine
