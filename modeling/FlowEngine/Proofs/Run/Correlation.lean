import FlowEngine.Proofs.Run.Calls

/-!
# The trace under which executors run

While a run lasts, the trace is the one it was begun under, with the ids of the flow and of the run in
it. At each node the id of the node is put in as well, and an executor that leaves the trace as it
finds it hands it on. A run is nothing but its own records and what its executors make of the scenes
they are called at, so the calls spoken of here are all there are.
-/

namespace FlowEngine

open Doing

theorem Dialogue.bind_same {α β : Type} {x : Dialogue α} {f g : α → Dialogue β}
    (h : x.Always fun a => f a = g a) : x.bind f = x.bind g := by
  induction x with
  | done a => exact h
  | ask request next ih => exact congrArg (Dialogue.ask request) (funext fun r => ih r (h r))

namespace Doing

variable {σ α β : Type} {s : σ}

theorem bind_same {x y : Doing σ α} {f g : α → Doing σ β} (hx : x s = y s)
    (hf : x.Ensures s fun result s' => ∀ a, result = .ok a → f a s' = g a s') :
    (x >>= f) s = (y >>= g) s := by
  show Dialogue.bind (x s) _ = Dialogue.bind (y s) _
  rw [← hx]
  refine Dialogue.bind_same (Dialogue.Always.mono ?_ hf)
  rintro ⟨fault | a, s'⟩ h
  · rfl
  · exact h a rfl

theorem attempt_same {x y : Doing σ α} (hx : x s = y s) : attempt x s = attempt y s := by
  unfold attempt
  rw [hx]

end Doing

namespace Attempt

/-- A call of an executor, with the scenes before and after it. -/
structure Call where
  node : Node
  before : Scene
  after : Scene

def Call.LeavesTrace (call : Call) : Prop := call.after.place.trace = call.before.place.trace

inductive Called (executor : Executor) (node : Node) (start : Scene) : List Call → Scene → Prop where
  | nothing : Called executor node start [] start
  | more {calls scene result scene'} (h : Called executor node start calls scene)
      (he : (executor node).CanEnd scene result scene') :
      Called executor node start (calls ++ [⟨node, scene, scene'⟩]) scene'

variable {executor executor' : Executor} {node : Node} {start scene scene' : Scene}
  {calls : List Call}

theorem Called.trace (h : Called executor node start calls scene)
    (hk : ∀ call ∈ calls, call.LeavesTrace) : scene.place.trace = start.place.trace := by
  induction h with
  | nothing => rfl
  | more h he ih =>
    have hlast := hk _ (List.mem_append_right _ (List.mem_singleton_self _))
    exact hlast.trans (ih fun call hc => hk call (List.mem_append_left _ hc))

theorem Called.of_calls {outcomes : List Outcome} (h : Called executor node start calls scene)
    (hc : Calls executor node scene outcomes scene') :
    ∃ calls', Called executor node start calls' scene' := by
  induction hc generalizing calls with
  | done => exact ⟨calls, h⟩
  | call he _ ih => exact ih (h.more he)

/-- Whatever becomes of the attempts at a node, its executor was called last at the place they end
at. -/
theorem yields_run_called (executor : Executor) (node : Node) (start : Scene) :
    (run executor node).Yields start fun _ scene' =>
      ∃ calls scene, Called executor node start calls scene ∧ scene'.place = scene.place := by
  refine Yields.mono ?_ (yields_run_tried executor node start)
  rintro outcome scene' ⟨policy, outcomes, -, ht⟩
  cases ht with
  | ended _ _ hc =>
    obtain ⟨calls, hcalled⟩ := Called.nothing.of_calls hc
    exact ⟨calls, _, hcalled, rfl⟩
  | cancelled _ _ _ hc =>
    obtain ⟨calls, hcalled⟩ := Called.nothing.of_calls hc
    exact ⟨calls, _, hcalled, rfl⟩

theorem once_same (h : executor node scene = executor' node scene) :
    once executor node scene = once executor' node scene :=
  bind_same (attempt_same h) (ensures_of_forall fun _ _ _ _ => rfl)

section Congr

variable (hsame : ∀ calls scene, Called executor node start calls scene →
  executor node scene = executor' node scene)

include hsame

theorem series_same (policy : RetryPolicy) (left made : Nat) (delay : Double)
    (h : Called executor node start calls scene) :
    series executor node policy left made delay scene =
      series executor' node policy left made delay scene := by
  induction left generalizing made delay calls scene with
  | zero => exact once_same (hsame calls scene h)
  | succ left ih =>
    refine bind_same (once_same (hsame calls scene h)) ?_
    refine Yields.mono ?_ (yields_once_canEnd executor node scene)
    rintro outcome scene' ⟨result, he, rfl⟩
    cases callsForMore (outcomeOf node result) with
    | false => rfl
    | true =>
      -- A wait moves nothing, so the next attempt is made where the last one ended.
      refine bind_same rfl (ensures_announce.mpr fun _ _ => ?_)
      refine bind_same rfl (ensures_ask.mpr fun reply => ?_)
      rintro cancelled ⟨⟩
      cases reply with
      | true => rfl
      | false => exact ih _ _ (h.more he)

theorem run_same : run executor node start = run executor' node start := by
  refine bind_same rfl (Work.ensures_noteAll.mpr fun _ _ => ?_)
  refine bind_same rfl (ensures_ofExcept.mpr fun policy _ => ?_)
  exact series_same hsame policy _ _ _ .nothing

end Congr

end Attempt

open Attempt

namespace Engine

def runTrace (graph : FlowGraph) (executionId : String) (outer : Log.Trace) : Log.Trace :=
  outer.putAll [("flow_id", .text graph.id), ("execution_id", .text executionId)]

variable (engine : Engine) (graph : FlowGraph) (executionId : String) (payload : Entries Value)
  (place : Place)

/-- Where a run begun at a place stands between two visits, with the calls that were made. -/
inductive Stands : List Call → Walk → Scene → Prop where
  | opened (now) : Stands [] (Walk.starting (startOf graph))
      ⟨opening graph executionId payload now,
        { place with trace := runTrace graph executionId place.trace }⟩
  | visited {calls walk scene node queue executor more scene' walk' scene''}
      (h : Stands calls walk scene) (he : walk.ending = none) (hq : walk.queue = node :: queue)
      (hg : engine.registry.get node.type (some node.id) = .ok executor)
      (hc : Called executor node (entered node scene) more scene')
      (hv : (visit engine graph node { walk with queue }).CanEnd (entered node scene) (.ok walk')
        scene'')
      (hp : scene''.place = scene'.place) :
      Stands (calls ++ more) walk' scene''

/-- A run begun at a place may call an executor for a node at a scene, after these calls. -/
inductive CallsAt : List Call → Node → Executor → Scene → Prop where
  | mk {calls walk scene node queue executor more scene'}
      (h : Stands engine graph executionId payload place calls walk scene)
      (he : walk.ending = none) (hq : walk.queue = node :: queue)
      (hg : engine.registry.get node.type (some node.id) = .ok executor)
      (hc : Called executor node (entered node scene) more scene') :
      CallsAt (calls ++ more) node executor scene'

variable {engine graph executionId payload place} {engine' : Engine} {calls : List Call}
  {walk : Walk} {scene : Scene} {node : Node} {executor : Executor}

/-- Between two visits the trace is that of the run, but for the node that had its turn last. -/
theorem Stands.trace (h : Stands engine graph executionId payload place calls walk scene)
    (hk : ∀ call ∈ calls, call.LeavesTrace) (id : Value) :
    scene.place.trace.put "node_id" id =
      (runTrace graph executionId place.trace).put "node_id" id := by
  induction h with
  | opened => rfl
  | @visited calls walk scene node queue executor more scene' walk' scene'' h he hq hg hc hv hp ih =>
    have hinner : scene'.place.trace = scene.place.trace.put "node_id" (.text node.id) :=
      hc.trace fun call hm => hk call (List.mem_append_right _ hm)
    rw [hp, hinner, Entries.put_put]
    exact ih fun call hm => hk call (List.mem_append_left _ hm)

/-- As long as the calls before it left the trace as they found it, a call is made under the trace
outside of the run with the ids of the flow, the run and the node in it. -/
theorem CallsAt.trace (h : CallsAt engine graph executionId payload place calls node executor scene)
    (hk : ∀ call ∈ calls, call.LeavesTrace) :
    scene.place.trace =
      (runTrace graph executionId place.trace).put "node_id" (.text node.id) := by
  cases h with
  | mk h he hq hg hc =>
    rw [hc.trace fun call hm => hk call (List.mem_append_right _ hm)]
    exact h.trace (fun call hm => hk call (List.mem_append_left _ hm)) _

theorem yields_visit_called (hg : engine.registry.get node.type (some node.id) = .ok executor) :
    (visit engine graph node walk).Yields scene fun _ scene'' =>
      ∃ more scene', Called executor node scene more scene' ∧ scene''.place = scene'.place := by
  refine yields_visit fun executor' hg' => ?_
  obtain rfl : executor = executor' := Except.ok.inj (hg.symm.trans hg')
  exact yields_run_called executor node scene

section Congr

variable (hmax : engine'.maxSteps = engine.maxSteps)
  (hfault : ∀ (node : Node) fault, engine.registry.get node.type (some node.id) = .error fault →
    engine'.registry.get node.type (some node.id) = .error fault)
  (hsame : ∀ calls node executor scene,
    CallsAt engine graph executionId payload place calls node executor scene →
      ∃ executor', engine'.registry.get node.type (some node.id) = .ok executor' ∧
        executor node scene = executor' node scene)

include hfault hsame

theorem visit_same {queue : List Node}
    (h : Stands engine graph executionId payload place calls walk scene)
    (he : walk.ending = none) (hq : walk.queue = node :: queue) :
    visit engine graph node { walk with queue } (entered node scene) =
      visit engine' graph node { walk with queue } (entered node scene) := by
  refine bind_same rfl (Work.ensures_context.mpr fun _ _ => ?_)
  refine bind_same rfl (Work.ensures_note.mpr fun _ _ => ?_)
  refine bind_same rfl (Work.ensures_emitFor.mpr fun _ _ => ?_)
  cases hg : engine.registry.get node.type (some node.id) with
  | error fault =>
    rw [hfault node fault hg]
  | ok executor =>
    obtain ⟨executor', hg', -⟩ := hsame _ _ _ _ (.mk h he hq hg .nothing)
    rw [hg']
    have hrun : Attempt.run executor node (entered node scene) =
        Attempt.run executor' node (entered node scene) := by
      refine Attempt.run_same fun more scene' hc => ?_
      obtain ⟨executor'', hg'', hscene⟩ := hsame _ _ _ _ (.mk h he hq hg hc)
      obtain rfl : executor' = executor'' := Except.ok.inj (hg'.symm.trans hg'')
      exact hscene
    change (Attempt.run executor node >>= _) _ = (Attempt.run executor' node >>= _) _
    exact bind_same hrun (ensures_of_forall fun _ _ _ _ => rfl)

theorem walkOn_same (limit : Value) (left : Nat)
    (h : Stands engine graph executionId payload place calls walk scene) :
    walkOn engine graph limit left walk scene = walkOn engine' graph limit left walk scene := by
  induction left generalizing calls walk scene with
  | zero =>
    obtain ⟨_ | ⟨node, queue⟩, visits, failed, _ | ending⟩ := walk <;> rfl
  | succ left ih =>
    obtain ⟨_ | ⟨node, queue⟩, visits, failed, _ | ending⟩ := walk
    · rfl
    · rfl
    · refine bind_same rfl (ensures_enter.mpr fun _ _ => ?_)
      refine bind_same (visit_same hfault hsame h rfl rfl) ?_
      cases hg : engine.registry.get node.type (some node.id) with
      | error fault =>
        refine ensures_visit.mpr ?_
        rw [hg]
        rintro _ ⟨⟩
      | ok executor =>
        refine Ensures.mono ?_ (Ensures.and (yields_visit_called hg) (ensures_canEnd _ _))
        rintro _ scene'' ⟨hy, hv⟩ walk' rfl
        obtain ⟨more, scene', hc, hp⟩ := hy walk' rfl
        exact ih (.visited h rfl rfl hg hc hv hp)
    · rfl

include hmax

theorem perform_same (now : Instant) :
    engine.perform graph ⟨opening graph executionId payload now,
        { place with trace := runTrace graph executionId place.trace }⟩ =
      engine'.perform graph ⟨opening graph executionId payload now,
        { place with trace := runTrace graph executionId place.trace }⟩ := by
  have hlimit : engine'.limit graph = engine.limit graph := by
    unfold limit
    rw [hmax]
  have hwalk (most : Nat) := walkOn_same hfault hsame (engine.limit graph) most (.opened now)
  unfold perform
  rw [hlimit]
  dsimp only
  cases graph.start?.isNone with
  | true =>
    refine bind_same rfl (Work.ensures_note.mpr fun _ _ => ?_)
    refine bind_same rfl (ensures_ofExcept.mpr fun name _ => ?_)
    refine bind_same rfl (Work.ensures_note.mpr fun _ _ => ?_)
    refine bind_same rfl (ensures_ofExcept.mpr fun most _ => ?_)
    exact bind_same (hwalk most) (ensures_of_forall fun _ _ _ _ => rfl)
  | false =>
    refine bind_same rfl (ensures_ofExcept.mpr fun name _ => ?_)
    refine bind_same rfl (Work.ensures_note.mpr fun _ _ => ?_)
    refine bind_same rfl (ensures_ofExcept.mpr fun most _ => ?_)
    exact bind_same (hwalk most) (ensures_of_forall fun _ _ _ _ => rfl)

/-- A run depends on its executors only where it may call them: others that do the same there have
the same run, whatever they do elsewhere. -/
theorem follow_same :
    engine.follow graph executionId payload place =
      engine'.follow graph executionId payload place := by
  refine congrArg (Dialogue.ask .now) (funext fun now => ?_)
  exact congrArg (fun d => Dialogue.bind d _) (perform_same hmax hfault hsame now)

end Congr

theorem ensures_execute_trace (engine : Engine) (graph : FlowGraph) (executionId : String)
    (payload : Entries Value) (place : Place) :
    (engine.execute graph executionId payload).Ensures place fun _ place' =>
      place'.trace = place.trace := by
  refine ensures_map.mpr (ensures_follow.mpr fun now => ensures_of_forall fun _ _ => rfl)

end Engine

end FlowEngine
