import FlowEngine.Proofs.Dispatch.Course
import FlowEngine.Proofs.Run.Correlation

/-!
# Correlation is restored

A flow that is run leaves the trace and the chain of enclosing runs as they were, whether it is waited
for, refused or crashes. So a node that calls a flow and waits for it goes on under the ids of its own
run, at any depth, and all executors that come with the engine hand on the trace they were given.
-/

namespace FlowEngine

open Doing Attempt

/-- What launches children by a dispatcher, with any room for them, if anything does. -/
def Dispatcher.Launches (d : Dispatcher) (launcher : Option Step.CallFlow.Launcher) : Prop :=
  ∀ l, launcher = some l → ∃ room, l = d.launcher (d.runWithin room)

/-- An engine with executors that come with it, whose children are launched by a dispatcher. -/
def Engine.LaunchesBy (engine : Engine) (d : Dispatcher) : Prop :=
  ∀ entry ∈ engine.registry.entries, ∃ settings connectors launcher, d.Launches launcher ∧
    Step.executor? settings connectors launcher entry.1 = some entry.2

theorem Doing.Aloof.ensures_place {α : Type} {x : Work α}
    (h : Work.AloofFrom id (fun _ => True) x) (scene : Scene) :
    x.Ensures scene fun _ scene' => scene'.place = scene.place :=
  ensures_iff_forall_path.mpr fun _ _ _ hpath => (h _ _ _ _ hpath).2

namespace Dispatcher

variable {d : Dispatcher} {launcher : Option Step.CallFlow.Launcher} {node : Node}

theorem ensures_conduct_place (engine : Engine) (graph : FlowGraph) (execution : Execution)
    (payload : Entries Value) (place : Place) :
    (conduct engine graph execution payload).Ensures place fun _ place' => place' = place := by
  refine ensures_iff_forall_path.mpr fun t result place' h => ?_
  obtain ⟨_, _, _, -, -, hplace⟩ := path_conduct h
  exact hplace

theorem aloof_runWithin (room : Nat) (flow : String) (payload : Entries Value)
    (startedBy : String) :
    (d.runWithin room flow payload startedBy).Aloof id fun _ => True :=
  fun _ _ _ _ h => ⟨fun _ _ => trivial, place_runWithin h⟩

theorem aloof_launcher_run (room : Nat) (flow : String) (payload : Entries Value)
    (startedBy : String) :
    ((d.launcher (d.runWithin room)).run flow payload startedBy).Aloof id fun _ => True :=
  aloof_bind (aloof_runWithin room flow payload startedBy) fun _ => aloof_pure _

theorem aloof_startDetached (flow : String) (payload : Entries Value) (startedBy : String) :
    (d.startDetached flow payload startedBy).Aloof id fun _ => True :=
  fun _ _ _ _ h => ⟨fun _ _ => trivial, (path_startDetached h).1⟩

theorem aloof_callFlow (hd : d.Launches launcher) :
    Work.AloofFrom id (fun _ => True) (Step.CallFlow.execute launcher node) := by
  cases launcher with
  | none => exact Step.CallFlow.aloof_execute_none node
  | some l =>
    obtain ⟨room, rfl⟩ := hd l rfl
    exact Step.CallFlow.aloof_execute node (fun _ => trivial)
      (fun _ _ _ => aloof_launcher_run room _ _ _) fun _ _ _ => aloof_startDetached _ _ _

theorem aloof_standard (hd : d.Launches launcher) {settings : Settings}
    {connectors : Entries Connector} {type : NodeType} {executor : Executor}
    (h : Step.executor? settings connectors launcher type = some executor) (node : Node) :
    Work.AloofFrom id (fun _ => True) (executor node) := by
  by_cases ht : type = .subFlow
  · subst ht
    exact Option.some.inj h ▸ aloof_callFlow hd
  · have hserved : Request.Served fun _ => True :=
      ⟨fun _ => trivial, fun _ => trivial, fun _ _ _ => trivial, fun _ => trivial,
        fun _ _ _ => trivial⟩
    exact Step.aloof_executor node hserved settings connectors launcher ht h

end Dispatcher

namespace Engine

variable {d : Dispatcher} {engine : Engine} {graph : FlowGraph} {executionId : String}
  {payload : Entries Value} {place : Place} {calls : List Call} {node : Node}
  {executor : Executor} {start scene : Scene} {walk : Walk}

theorem launchesBy_standard (settings : Settings) (connectors : Entries Connector)
    {launcher : Option Step.CallFlow.Launcher} (hd : d.Launches launcher) (maxSteps : Value) :
    LaunchesBy ⟨Step.standard settings connectors launcher, maxSteps⟩ d := by
  rintro ⟨type, executor⟩ he
  obtain ⟨type', -, hx⟩ := List.mem_filterMap.mp he
  obtain ⟨executor', hx, hpair⟩ := Option.map_eq_some_iff.mp hx
  cases hpair
  exact ⟨settings, connectors, launcher, hd, hx⟩

theorem LaunchesBy.ensures_place (h : engine.LaunchesBy d) {id : Option String}
    (hg : engine.registry.get node.type id = .ok executor) (scene : Scene) :
    (executor node).Ensures scene fun _ scene' => scene'.place = scene.place := by
  obtain ⟨settings, connectors, launcher, hd, hx⟩ := h _ (Registry.mem_of_get hg)
  exact (Dispatcher.aloof_standard hd hx node).ensures_place scene

theorem LaunchesBy.called (h : engine.LaunchesBy d) {id : Option String}
    (hg : engine.registry.get node.type id = .ok executor)
    (hc : Called executor node start calls scene) : ∀ call ∈ calls, call.LeavesTrace := by
  induction hc with
  | nothing => simp
  | more _ he ih =>
    intro call hm
    rcases List.mem_append.mp hm with hm | hm
    · exact ih call hm
    · rw [List.mem_singleton.mp hm]
      exact congrArg Place.trace (Ensures.of_canEnd (h.ensures_place hg _) he)

theorem LaunchesBy.stands (h : engine.LaunchesBy d)
    (hs : Stands engine graph executionId payload place calls walk scene) :
    ∀ call ∈ calls, call.LeavesTrace := by
  induction hs with
  | opened => simp
  | visited _ he hq hg hc _ _ ih =>
    intro call hm
    rcases List.mem_append.mp hm with hm | hm
    · exact ih call hm
    · exact h.called hg hc call hm

theorem LaunchesBy.callsAt (h : engine.LaunchesBy d)
    (hc : CallsAt engine graph executionId payload place calls node executor scene) :
    ∀ call ∈ calls, call.LeavesTrace := by
  cases hc with
  | mk hs he hq hg hc =>
    intro call hm
    rcases List.mem_append.mp hm with hm | hm
    · exact h.stands hs call hm
    · exact h.called hg hc call hm

end Engine

open Engine

/-- The executors of an engine where the trace is as it has to be, and another one where it is not. -/
def Engine.guarded (engine : Engine) (trace : Node → Log.Trace) (other : Executor) : Engine where
  registry := engine.registry.map fun _ executor node scene =>
    if scene.place.trace = trace node then executor node scene else other node scene
  maxSteps := engine.maxSteps

/-- The trace after a run of an engine, and the place after a flow that is run by a dispatcher, are
those of before, however they end. Each call of an executor is made under the trace outside of the
run with the ids of the flow, the run and the node in it, and is under it again after a child that
was waited for. No call is left out: the run is the same with executors that differ elsewhere. -/
theorem Dispatcher.correlation_restored (d : Dispatcher) (engine : Engine) (graph : FlowGraph)
    (executionId : String) (payload : Entries Value) (place : Place) :
    ((engine.execute graph executionId payload).Ensures place fun _ place' =>
      place'.trace = place.trace) ∧
    ((∀ execution, (conduct engine graph execution payload).Ensures place fun _ place' =>
        place' = place) ∧
      ∀ room flow startedBy, (d.runWithin room flow payload startedBy).Ensures place
        fun _ place' => place' = place) ∧
    (∀ calls node executor scene,
      CallsAt engine graph executionId payload place calls node executor scene →
      engine.LaunchesBy d ∨ (∀ call ∈ calls, call.LeavesTrace) →
      let trace := (runTrace graph executionId place.trace).put "node_id" (.text node.id)
      scene.place.trace = trace ∧
        ∀ room flow childPayload startedBy,
          (Work.act ((d.launcher (d.runWithin room)).run flow childPayload startedBy)).Ensures scene
            fun _ scene' => scene'.place.trace = trace) ∧
    ∀ engine' : Engine, engine'.maxSteps = engine.maxSteps →
      (∀ (node : Node) fault, engine.registry.get node.type (some node.id) = .error fault →
        engine'.registry.get node.type (some node.id) = .error fault) →
      (∀ calls node executor scene,
        CallsAt engine graph executionId payload place calls node executor scene →
        ∃ executor', engine'.registry.get node.type (some node.id) = .ok executor' ∧
          executor node scene = executor' node scene) →
      engine.execute graph executionId payload place =
        engine'.execute graph executionId payload place := by
  refine ⟨?_, ⟨?_, ?_⟩, ?_, ?_⟩
  · exact ensures_execute_trace engine graph executionId payload place
  · exact fun execution => ensures_conduct_place engine graph execution payload place
  · intro room flow startedBy
    exact ensures_iff_forall_path.mpr fun _ _ _ h => place_runWithin h
  · intro calls node executor scene hc hk
    have htrace := hc.trace (hk.elim (fun h => h.callsAt hc) id)
    refine ⟨htrace, fun room flow childPayload startedBy => ?_⟩
    have haloof := Work.aloof_act (aloof_launcher_run (d := d) room flow childPayload startedBy)
    refine Ensures.mono ?_ (haloof.ensures_place scene)
    intro _ scene' hplace
    rw [hplace]
    exact htrace
  · intro engine' hmax hfault hsame
    exact bind_same (follow_same hmax hfault hsame) (ensures_of_forall fun _ _ _ _ => rfl)

namespace Correlated

def flow : FlowGraph := .plain [.plainStart] []

def dispatcher : Dispatcher := ⟨[("g", flow)], .int 5000, .int 5, Step.standard .default []⟩

def engine : Engine := dispatcher.engineWith (dispatcher.runWithin 1)

def place : Place := ⟨[("flow_id", .text "outer"), ("request", .int 7)], []⟩

def scene : Scene :=
  Engine.entered .plainStart ⟨Engine.opening flow "run" [] ⟨2024, 1, 1, 0, 0, 0, 0, none⟩,
    { place with trace := runTrace flow "run" place.trace }⟩

/-- The trace at a node of the flow. Fields of the outer trace stay where the run has none. -/
def trace (node : Node) : Log.Trace :=
  [("flow_id", .text "g"), ("request", .int 7), ("execution_id", .text "run"),
    ("node_id", .text node.id)]

/-- No executor is ever called under another trace, so what would be done there does not matter. -/
theorem guarded_execute :
    scene.place.trace = trace .plainStart ∧
      ∀ other, engine.execute flow "run" [] place =
        (engine.guarded trace other).execute flow "run" [] place := by
  have hd : dispatcher.Launches (some (dispatcher.launcher (dispatcher.runWithin 1))) := by
    rintro _ ⟨⟩
    exact ⟨1, rfl⟩
  have hlaunches : engine.LaunchesBy dispatcher := launchesBy_standard .default [] hd (.int 5000)
  have hcall : CallsAt engine flow "run" [] place [] .plainStart Step.start scene :=
    .mk (.opened _) rfl rfl rfl .nothing
  obtain ⟨-, -, hcalls, hsame⟩ := dispatcher.correlation_restored engine flow "run" [] place
  refine ⟨(hcalls [] .plainStart Step.start scene hcall (.inl hlaunches)).1, fun other => ?_⟩
  refine hsame _ rfl (fun node fault h => ?_) fun calls node executor scene hc => ?_
  · exact (Registry.get_map _ _ _ _).trans (congrArg (Except.map _) h)
  · obtain ⟨htrace, -⟩ := hcalls calls node executor scene hc (.inl hlaunches)
    cases hc with
    | mk _ _ _ hg _ =>
      refine ⟨_, (Registry.get_map _ _ _ _).trans (congrArg (Except.map _) hg), ?_⟩
      exact (if_pos htrace).symm

end Correlated

end FlowEngine
