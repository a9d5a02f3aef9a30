import FlowEngine.Proofs.Run.Reach

/-!
# The calls of a run

A run calls the executors of its nodes one after the other, several times at a node that is tried
again. Between the calls it writes its own records only. A run is given here as its moves, each with
the calls that are made in it, so that what is written by calls can be followed call by call.
-/

namespace FlowEngine

open Doing

theorem Doing.ensures_canEnd {σ α : Type} (x : Doing σ α) (s : σ) :
    x.Ensures s fun result s' => x.CanEnd s result s' :=
  ensures_iff_forall_canEnd.mpr fun _ _ h => h

namespace Attempt

variable {executor : Executor} {node : Node} {most : Nat} {scene scene' scene'' : Scene}
  {outcome : Outcome} {outcomes more : List Outcome}

/-- Calls of an executor for a node, with the outcome of each. -/
inductive Calls (executor : Executor) (node : Node) : Scene → List Outcome → Scene → Prop where
  | done (scene : Scene) : Calls executor node scene [] scene
  | call {scene result scene' outcomes scene''} (he : (executor node).CanEnd scene result scene')
      (hc : Calls executor node scene' outcomes scene'') :
      Calls executor node scene (outcomeOf node result :: outcomes) scene''

/-- Attempts at a node, with so many retries granted: all calls but the last one asked for another,
and the last one gave the outcome. If the wait after it was cancelled, its outcome halts the run. -/
inductive Tried (executor : Executor) (node : Node) (most : Nat) (scene : Scene) :
    List Outcome → Outcome → Scene → Prop where
  | ended {before last scene'} (ha : ∀ outcome ∈ before, callsForMore outcome = true)
      (hm : before.length ≤ most) (hc : Calls executor node scene (before ++ [last]) scene') :
      Tried executor node most scene (before ++ [last]) last scene'
  | cancelled {before last scene'} (ha : ∀ outcome ∈ before, callsForMore outcome = true)
      (hm : before.length < most) (hl : callsForMore last = true)
      (hc : Calls executor node scene (before ++ [last]) scene') (text : String) :
      Tried executor node most scene (before ++ [last]) { last with halts := true }
        { scene' with context := scene'.context.fail text }

theorem Calls.one {result : Except Fault Outcome} (he : (executor node).CanEnd scene result scene') :
    Calls executor node scene ([] ++ [outcomeOf node result]) scene' :=
  .call he (.done scene')

theorem Tried.one {result : Except Fault Outcome} (he : (executor node).CanEnd scene result scene') :
    Tried executor node most scene [outcomeOf node result] (outcomeOf node result) scene' := by
  have hnone : ∀ outcome ∈ [], callsForMore outcome = true := by simp
  exact .ended hnone (Nat.zero_le most) (Calls.one he)

theorem Tried.one_cancelled {result : Except Fault Outcome}
    (he : (executor node).CanEnd scene result scene')
    (hr : callsForMore (outcomeOf node result) = true) (text : String) :
    Tried executor node (most + 1) scene [outcomeOf node result]
      { outcomeOf node result with halts := true }
      { scene' with context := scene'.context.fail text } := by
  have hnone : ∀ outcome ∈ [], callsForMore outcome = true := by simp
  exact .cancelled hnone (Nat.succ_pos most) hr (Calls.one he) text

theorem Tried.cons {result : Except Fault Outcome}
    (he : (executor node).CanEnd scene result scene')
    (hr : callsForMore (outcomeOf node result) = true)
    (h : Tried executor node most scene' outcomes outcome scene'') :
    Tried executor node (most + 1) scene (outcomeOf node result :: outcomes) outcome scene'' := by
  cases h with
  | ended ha hm hc =>
    exact .ended (List.forall_mem_cons.mpr ⟨hr, ha⟩) (Nat.succ_le_succ hm) (.call he hc)
  | cancelled ha hm hl hc text =>
    exact .cancelled (List.forall_mem_cons.mpr ⟨hr, ha⟩) (Nat.succ_lt_succ hm) hl (.call he hc) text

theorem yields_once_canEnd (executor : Executor) (node : Node) (scene : Scene) :
    (once executor node).Yields scene fun outcome scene' =>
      ∃ result, (executor node).CanEnd scene result scene' ∧ outcome = outcomeOf node result := by
  refine ensures_bind.mpr (ensures_attempt.mpr (Ensures.mono ?_ (ensures_canEnd _ scene)))
  rintro (fault | outcome) scene' h
  · refine ensures_bind.mpr (Work.ensures_note.mpr (ensures_bind.mpr
      (Work.ensures_emitFor.mpr ?_)))
    rintro _ ⟨⟩
    exact ⟨_, h, rfl⟩
  · rintro _ ⟨⟩
    exact ⟨_, h, rfl⟩

theorem yields_series_tried (executor : Executor) (node : Node) (policy : RetryPolicy)
    (left made : Nat) (delay : Double) (scene : Scene) :
    (series executor node policy left made delay).Yields scene fun outcome scene' =>
      ∃ outcomes, Tried executor node left scene outcomes outcome scene' := by
  -- By the number of attempts left, as the attempts are made.
  induction left generalizing made delay scene with
  | zero =>
    refine Yields.mono ?_ (yields_once_canEnd executor node scene)
    rintro _ scene' ⟨result, he, rfl⟩
    exact ⟨_, .one he⟩
  | succ left ih =>
    refine ensures_bind.mpr (Ensures.mono ?_ (yields_once_canEnd executor node scene))
    rintro (fault | outcome) scene' h
    · rintro _ ⟨⟩
    · obtain ⟨result, he, rfl⟩ := h outcome rfl
      dsimp only
      cases hr : callsForMore (outcomeOf node result) with
      | false =>
        rintro _ ⟨⟩
        exact ⟨_, .one he⟩
      | true =>
        refine ensures_bind.mpr (ensures_announce.mpr
          (ensures_bind.mpr (ensures_ask.mpr fun reply => ?_)))
        cases reply with
        | true =>
          refine (ensures_cancel node).mpr ?_
          rintro _ ⟨⟩
          exact ⟨_, .one_cancelled he hr _⟩
        | false =>
          refine Yields.mono ?_ (ih (made + 1) (Double.mul delay policy.multiplier) scene')
          rintro outcome scene'' ⟨outcomes, ht⟩
          exact ⟨_, ht.cons he hr⟩

theorem yields_run_tried (executor : Executor) (node : Node) (scene : Scene) :
    (run executor node).Yields scene fun outcome scene' =>
      ∃ policy outcomes, RetryPolicy.ofConfig node.config = .ok policy ∧
        Tried executor node policy.maxRetries scene outcomes outcome scene' := by
  refine ensures_bind.mpr (Work.ensures_noteAll.mpr (ensures_bind.mpr (ensures_ofExcept.mpr ?_)))
  split
  · rename_i policy hp
    refine Yields.mono ?_ (yields_series_tried executor node policy _ _ _ scene)
    rintro outcome scene' ⟨outcomes, ht⟩
    exact ⟨policy, outcomes, hp, ht⟩
  · rintro _ ⟨⟩

end Attempt

/-- The node that its id leads to, or the one that a run begins with. -/
def FlowGraph.Addressed (graph : FlowGraph) (node : Node) : Prop :=
  node = Engine.startOf graph ∨ graph.target? node.id = some node

namespace Walk

variable {graph : FlowGraph} {walk walk' : Walk}

theorem addressed_step (hs : Step graph walk walk')
    (h : ∀ node ∈ walk.queue, graph.Addressed node) : ∀ node ∈ walk'.queue, graph.Addressed node := by
  cases hs with
  | overflow | terminal | halt | cycle => exact fun node hn => h node (List.mem_cons_of_mem _ hn)
  | goOn node outcome queue visits failed hs queue' he =>
    intro waiting hw
    rcases mem_of_mem_enqueue he waiting hw with hq | hn
    · exact h waiting (List.mem_cons_of_mem _ hq)
    · exact Or.inr (FlowGraph.mem_next.mp (mem_endsLast.mp hn)).2

/-- No node has a turn that its id does not lead to, but for the start. -/
theorem Reachable.addressed (hr : Reachable graph walk) :
    ∀ node ∈ walk.queue, graph.Addressed node := by
  induction hr with
  | refl => simp [starting, FlowGraph.Addressed]
  | tail _ hs ih => exact addressed_step hs ih

theorem Reachable.visited_addressed (hr : Reachable graph walk) :
    ∀ v ∈ walk.visits, graph.Addressed v.node := by
  induction hr with
  | refl => simp [starting]
  | tail hr hs ih =>
    have hhead := Reachable.addressed hr
    cases hs with
    | overflow => exact ih
    | terminal | halt | cycle | goOn =>
      intro v hv
      rcases List.mem_append.mp hv with hv | hv
      · exact ih v hv
      · cases List.mem_singleton.mp hv
        exact hhead _ List.mem_cons_self

end Walk

namespace Engine

variable (engine : Engine) (graph : FlowGraph)

/-- What a run does next, with the calls that it makes for it. -/
inductive Move : Walk → Context → List Visit → Walk → Context → Prop where
  | visited {walk scene node queue executor policy outcomes outcome scene'}
      (he : walk.ending = none) (hq : walk.queue = node :: queue)
      (hg : engine.registry.get node.type (some node.id) = .ok executor)
      (hp : RetryPolicy.ofConfig node.config = .ok policy)
      (ht : Attempt.Tried executor node policy.maxRetries (entered node scene) outcomes outcome
        scene') (hn : recordable node = .ok ()) :
      Move walk scene.context (outcomes.map (Visit.mk node))
        (turnOf graph node outcome { walk with queue } scene'.context).walk
        (turnOf graph node outcome { walk with queue } scene'.context).context
  | overflowed {walk context node queue} (he : walk.ending = none)
      (hq : walk.queue = node :: queue) :
      Move walk context [] { walk with queue, failed := true, ending := some .overflow }
        ({ context with currentNode := some node.id }.fail
          (overflowText (engine.limit graph) node))
  | closed {walk context} (ho : walk.isOver = true) (now) :
      Move walk context [] walk (closed walk now context)

inductive Goes : Walk → Context → List Visit → Walk → Context → Prop where
  | refl (walk context) : Goes walk context [] walk context
  | tail {walk context calls walk' context' more walk'' context''}
      (h : Goes walk context calls walk' context')
      (hm : Move engine graph walk' context' more walk'' context'') :
      Goes walk context (calls ++ more) walk'' context''

variable (executionId : String) (payload : Entries Value)

def Runs (calls : List Visit) (walk : Walk) (context : Context) : Prop :=
  ∃ now, Goes engine graph (Walk.starting (startOf graph))
    (opening graph executionId payload now) calls walk context

/-- The calls that were made and the context they led to, between two visits or at a node whose
executor was called some times. -/
inductive Passes : List Visit → Context → Prop where
  | between {calls walk context} (h : Runs engine graph executionId payload calls walk context) :
      Passes calls context
  | amid {calls walk scene node queue executor outcomes scene'}
      (h : Runs engine graph executionId payload calls walk scene.context)
      (he : walk.ending = none) (hq : walk.queue = node :: queue)
      (hg : engine.registry.get node.type (some node.id) = .ok executor)
      (hc : Attempt.Calls executor node (entered node scene) outcomes scene') :
      Passes (calls ++ outcomes.map (Visit.mk node)) scene'.context

variable {engine graph executionId payload} {walk walk' : Walk} {context context' : Context}
  {calls : List Visit} {scene : Scene} {node : Node}

theorem yields_visit_move {queue : List Node} (he : walk.ending = none)
    (hq : walk.queue = node :: queue) :
    (visit engine graph node { walk with queue }).Yields (entered node scene) fun walk' scene' =>
      ∃ calls, Move engine graph walk scene.context calls walk' scene'.context := by
  have hmove : (visit engine graph node { walk with queue }).Yields (entered node scene)
      fun walk' scene' => recordable node = .ok () →
        ∃ calls, Move engine graph walk scene.context calls walk' scene'.context := by
    apply yields_visit
    intro executor hg
    refine Yields.mono ?_ (Attempt.yields_run_tried executor node (entered node scene))
    rintro outcome scene' ⟨policy, outcomes, hp, ht⟩
    dsimp only
    intro hn
    exact ⟨_, .visited he hq hg hp ht hn⟩
  exact Yields.mono (fun _ _ ⟨hn, hm⟩ => hm hn) (yields_visit_recordable.and hmove)

theorem Reaches.runs (h : Reaches engine graph executionId payload walk context) :
    ∃ calls, Runs engine graph executionId payload calls walk context := by
  induction h with
  | opened now => exact ⟨[], now, .refl _ _⟩
  | visited h he hq hv ih =>
    obtain ⟨calls, now, hgoes⟩ := ih
    obtain ⟨more, hmove⟩ := Ensures.of_canEnd (yields_visit_move he hq) hv _ rfl
    exact ⟨_, now, .tail hgoes hmove⟩
  | overflowed h he hq ih =>
    obtain ⟨calls, now, hgoes⟩ := ih
    exact ⟨_, now, .tail hgoes (.overflowed he hq)⟩
  | closed h ho later ih =>
    obtain ⟨calls, now, hgoes⟩ := ih
    exact ⟨_, now, .tail hgoes (.closed ho later)⟩

theorem Move.reachable (hm : Move engine graph walk context calls walk' context')
    (hr : walk.Reachable graph) : walk'.Reachable graph := by
  cases hm with
  | @visited scene node queue executor policy outcomes outcome scene' he hq hg hp ht hn =>
    obtain ⟨_, visits, failed, _⟩ := walk
    cases he
    cases hq
    exact hr.tail (Turn.after_step graph node outcome queue visits failed _)
  | overflowed he hq =>
    obtain ⟨_, visits, failed, _⟩ := walk
    cases he
    cases hq
    exact hr.tail (.overflow _ _ visits failed)
  | closed => exact hr

theorem Goes.reachable (h : Goes engine graph walk context calls walk' context')
    (hr : walk.Reachable graph) : walk'.Reachable graph := by
  induction h with
  | refl => exact hr
  | tail _ hm ih => exact hm.reachable ih

theorem Runs.reachable (h : Runs engine graph executionId payload calls walk context) :
    walk.Reachable graph := by
  obtain ⟨now, hgoes⟩ := h
  exact hgoes.reachable .refl

theorem Goes.mem (h : Goes engine graph walk context calls walk' context')
    (hr : walk.Reachable graph) :
    ∀ call ∈ calls, graph.Addressed call.node ∧ recordable call.node = .ok () ∧
      ∃ policy, RetryPolicy.ofConfig call.node.config = .ok policy := by
  induction h with
  | refl => exact fun call hc => absurd hc List.not_mem_nil
  | tail hgoes hm ih =>
    intro call hc
    rcases List.mem_append.mp hc with hc | hc
    · exact ih call hc
    · cases hm with
      | @visited _ node _ _ policy _ _ _ he hq hg hp ht hn =>
        obtain ⟨outcome, -, rfl⟩ := List.mem_map.mp hc
        exact ⟨(hgoes.reachable hr).addressed node (hq ▸ List.mem_cons_self), hn, policy, hp⟩
      | overflowed => exact absurd hc List.not_mem_nil
      | closed => exact absurd hc List.not_mem_nil

theorem loopStates_turnOf (graph : FlowGraph) (node : Node) (outcome : Outcome) (walk : Walk)
    (context : Context) :
    (turnOf graph node outcome walk context).context.loopStates = context.loopStates := by
  obtain ⟨nodes, aliases, nex, hr, -⟩ := recorded_eq node outcome context
  obtain ⟨message, ha⟩ := Turn.after_context graph node outcome walk (recorded node outcome context)
  rw [turnOf, ha, hr]

section LoopStates

variable (inv : List Visit → Context → Prop)
  (called : ∀ (calls : List Visit) (node : Node) (executor : Executor) (scene scene' : Scene) result,
    graph.Addressed node → engine.registry.get node.type (some node.id) = .ok executor →
    (executor node).CanEnd scene result scene' → inv calls scene.context →
    inv (calls ++ [⟨node, Attempt.outcomeOf node result⟩]) scene'.context)
  (kept : ∀ (calls : List Visit) (context context' : Context),
    context'.loopStates = context.loopStates → inv calls context → inv calls context')

include called

theorem calls_loopStates {executor : Executor} {outcomes : List Outcome} {scene' : Scene}
    (ha : graph.Addressed node) (hg : engine.registry.get node.type (some node.id) = .ok executor)
    (hc : Attempt.Calls executor node scene outcomes scene') (hi : inv calls scene.context) :
    inv (calls ++ outcomes.map (Visit.mk node)) scene'.context := by
  induction hc generalizing calls with
  | done => simpa using hi
  | call he _ ih =>
    have hnext := ih (called calls node executor _ _ _ ha hg he hi)
    rwa [List.append_assoc] at hnext

include kept

/-- What each call keeps, and what hangs on the states of loops alone besides the calls, is kept by
the moves of a run. -/
theorem Move.loopStates {pre : List Visit}
    (hm : Move engine graph walk context calls walk' context') (hr : walk.Reachable graph)
    (hi : inv pre context) : inv (pre ++ calls) context' := by
  cases hm with
  | @visited scene node queue executor policy outcomes outcome scene' he hq hg hp ht hn =>
    have ha : graph.Addressed node := hr.addressed node (hq ▸ List.mem_cons_self)
    -- After the calls only records are written, and before them only where the run is.
    refine kept _ scene'.context _ (loopStates_turnOf graph node outcome _ _) ?_
    have hentered : inv pre (entered node scene).context := kept _ scene.context _ rfl hi
    cases ht with
    | ended _ _ hc => exact calls_loopStates inv called ha hg hc hentered
    | @cancelled before last scene' ha' hm hl hc text =>
      exact kept _ scene'.context _ rfl (calls_loopStates inv called ha hg hc hentered)
  | overflowed =>
    rw [List.append_nil]
    exact kept pre context _ rfl hi
  | closed =>
    rw [List.append_nil]
    exact kept pre context _ rfl hi

theorem Goes.loopStates (h : Goes engine graph walk context calls walk' context')
    (hr : walk.Reachable graph) (pre : List Visit) (hi : inv pre context) : inv (pre ++ calls) context' := by
  induction h with
  | refl => simpa using hi
  | tail hgoes hm ih =>
    rw [← List.append_assoc]
    exact hm.loopStates inv called kept (hgoes.reachable hr) ih

theorem Passes.loopStates (h : Passes engine graph executionId payload calls context)
    (opened : ∀ context : Context, context.loopStates = [] → inv [] context) :
    inv calls context := by
  have hruns (calls : List Visit) (walk : Walk) (context : Context)
      (h : Runs engine graph executionId payload calls walk context) : inv calls context := by
    obtain ⟨now, hgoes⟩ := h
    have hopen := opened _ (loopStates_opening graph executionId payload now)
    simpa using hgoes.loopStates inv called kept .refl [] hopen
  cases h with
  | between h => exact hruns _ _ _ h
  | @amid calls walk scene node queue executor outcomes scene' h he hq hg hc =>
    have ha : graph.Addressed node := h.reachable.addressed node (hq ▸ List.mem_cons_self)
    have hentered : inv calls (entered node scene).context :=
      kept calls scene.context _ rfl (hruns calls walk scene.context h)
    exact calls_loopStates inv called ha hg hc hentered

end LoopStates

/-- A run that is evaluated, with some reply to each request. -/
def evaluated (engine : Engine) (graph : FlowGraph) (executionId : String)
    (payload : Entries Value) : Except Fault Passage :=
  ((engine.follow graph executionId payload).served Request.answer .outside ()).1.1

theorem exists_of_evaluated {α : Type} {f : Passage → α} {a : α}
    (h : (engine.evaluated graph executionId payload).map f = .ok a) :
    ∃ passage calls, Reaches engine graph executionId payload passage.walk passage.context ∧
      Runs engine graph executionId payload calls passage.walk passage.context ∧
      f passage = a := by
  cases hp : engine.evaluated graph executionId payload with
  | error fault =>
    rw [hp] at h
    cases h
  | ok passage =>
    rw [hp] at h
    have hreaches := follow_reaches.served Request.answer () passage hp
    obtain ⟨calls, hruns⟩ := hreaches.runs
    exact ⟨passage, calls, hreaches, hruns, Except.ok.inj h⟩

end Engine

end FlowEngine
