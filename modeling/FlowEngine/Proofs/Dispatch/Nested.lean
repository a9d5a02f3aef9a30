import FlowEngine.Proofs.Dispatch.Course

/-!
# What holds of runs and of all that they wait for

The exchanges of a run hold those of the children that it waits for, which hold those of their
children. A property of rows of exchanges that the parts hand on to the whole, and that the beginning
and the end of each run keep to, holds of a run with all of these.
-/

namespace FlowEngine

open Doing

/-- The requests that are not the dispatcher's own. -/
def Request.IsPlain : Request → Prop
  | .publish _ | .freshId | .keep _ | .start _ => False
  | _ => True

theorem Request.basic_isPlain : Request.Basic Request.IsPlain :=
  ⟨fun _ => trivial, fun _ => trivial, trivial⟩

theorem Request.served_isPlain : Request.Served Request.IsPlain :=
  ⟨fun _ => trivial, fun _ => trivial, fun _ _ _ => trivial, fun _ => trivial, fun _ _ _ => trivial⟩

/-- A property of rows of exchanges that holds of each plain one and is handed on from parts to the
whole. -/
structure Exchange.Closed (p : Request → Prop) (T : List Exchange → Prop) : Prop where
  nil : T []
  append : ∀ {t t'}, T t → T t' → T (t ++ t')
  one : ∀ {e : Exchange}, p e.request → T [e]
  told : ∀ {event : Event} {reply}, event.kind.marksRun = false → T [⟨.publish event, reply⟩]

namespace Exchange.Closed

variable {p : Request → Prop} {T : List Exchange → Prop}

theorem of_forall (hT : Closed p T) {t : List Exchange} (h : ∀ e ∈ t, p e.request) : T t := by
  induction t with
  | nil => exact hT.nil
  | cons e rest ih =>
    obtain ⟨he, hrest⟩ := List.forall_mem_cons.mp h
    exact hT.append (t := [e]) (hT.one he) (ih hrest)

theorem of_areLog (hT : Closed p T) (hp : Request.Basic p) {t : List Exchange}
    (h : Exchange.AreLog t) : T t := by
  refine hT.of_forall fun e he => ?_
  obtain ⟨record, rfl⟩ := h e he
  exact hp.log record

end Exchange.Closed

namespace Doing

variable {σ α β : Type} {chain : σ → List String} {c : List String} {T : List Exchange → Prop}

/-- Inside these runs work asks in rows that have a property, and leaves the enclosing runs alone. -/
def Writes (chain : σ → List String) (c : List String) (T : List Exchange → Prop) (x : Doing σ α) :
    Prop :=
  ∀ s t result s', chain s = c → x.Path s t result s' → T t ∧ chain s' = c

end Doing

variable {p : Request → Prop} {T : List Exchange → Prop} {c : List String}

theorem Work.path_emit {event : Event} {scene scene' : Scene} {t : List Exchange}
    {result : Except Fault Unit} (h : (Work.emit event).Path scene t result scene') :
    ∃ reply told, t = ⟨.publish event, reply⟩ :: told ∧ Exchange.AreLog told ∧ result = .ok () ∧
      scene' = scene := by
  obtain ⟨t₁, t₂, first, scene₁, rfl, h₁, h₂⟩ := path_bind.mp h
  obtain ⟨reply, rfl, rfl, rfl⟩ := path_ask.mp h₁
  cases reply with
  | none =>
    obtain ⟨rfl, rfl, rfl⟩ := path_pure.mp h₂
    exact ⟨none, [], rfl, Exchange.areLog_nil, rfl, rfl⟩
  | some reason =>
    obtain ⟨place, hn, rfl⟩ := Work.path_act.mp h₂
    obtain ⟨rfl, rfl, rfl⟩ := Act.path_note.mp hn
    exact ⟨some reason, _, rfl, Exchange.areLog_log _, rfl, rfl⟩

theorem Exchange.Closed.compatible (hT : Exchange.Closed p T) (hp : Request.Basic p)
    (c : List String) :
    Work.Compatible p fun x _ => x.Writes (fun scene : Scene => scene.place.chain) c T where
  aloof hx scene t result scene' hc h := by
    obtain ⟨hforall, hchain⟩ := hx scene t result scene' h
    exact ⟨hT.of_forall hforall, hchain.trans hc⟩
  bind hx hf scene t result scene' hc h := by
    obtain ⟨t₁, t₂, first, scene₁, rfl, h₁, h₂⟩ := path_bind.mp h
    obtain ⟨hT₁, hc₁⟩ := hx scene t₁ first scene₁ hc h₁
    cases first with
    | error fault =>
      obtain ⟨rfl, -, rfl⟩ := h₂
      exact ⟨hT.append hT₁ hT.nil, hc₁⟩
    | ok a =>
      obtain ⟨hT₂, hc₂⟩ := hf a ⟨scene, t₁, scene₁, h₁⟩ scene₁ t₂ result scene' hc₁ h₂
      exact ⟨hT.append hT₁ hT₂, hc₂⟩
  attempt hx scene t result scene' hc h := by
    obtain ⟨first, -, hp⟩ := path_attempt.mp h
    exact hx scene t first scene' hc hp
  emit he scene t result scene' hc h := by
    obtain ⟨reply, told, rfl, ht, -, rfl⟩ := Work.path_emit h
    exact ⟨hT.append (t := [_]) (hT.told he) (hT.of_areLog hp ht), hc⟩

theorem Step.find?_standard (settings : Settings) (connectors : Entries Connector)
    (launcher : Option CallFlow.Launcher) (type : NodeType) :
    (standard settings connectors launcher).find? type =
      executor? settings connectors launcher type := by
  cases type <;> simp [Registry.find?, standard, standardTypes, executor?]

namespace Dispatcher

/-- The executors for the nodes of known flows carry on each compatible relation between launchers. -/
def Respects (p : Request → Prop) (d : Dispatcher) : Prop :=
  ∀ (R : ∀ {α : Type}, Work α → Work α → Prop), Work.Compatible p R →
    ∀ l l', Step.CallFlow.Launcher.Related R l l' → ∀ id graph, d.flow id = .ok graph →
      ∀ node, graph.Known node →
        Registry.Related R (d.registry (some l)) (d.registry (some l')) node

/-- For each type of node the executor is the one that comes with the engine, or it is the same
whatever launches children and asks nothing that is the dispatcher's to ask. -/
def Ordinary (d : Dispatcher) : Prop :=
  ∃ settings connectors, ∀ type,
    (∀ launcher, (d.registry launcher).find? type =
      Step.executor? settings connectors launcher type) ∨
    ∃ own : Option Executor,
      (∀ executor, own = some executor → ∀ node, (executor node).Aloof Request.IsPlain) ∧
        ∀ launcher, (d.registry launcher).find? type = own

theorem related_of_rel {R : ∀ {α : Type}, Work α → Work α → Prop} {r r' : Registry Executor}
    {node : Node}
    (h : Option.Rel (fun executor executor' => R (executor node) (executor' node))
      (r.find? node.type) (r'.find? node.type)) : Registry.Related R r r' node := by
  unfold Registry.Related Registry.get
  revert h
  cases r.find? node.type with
  | none =>
    cases r'.find? node.type with
    | none => exact fun _ => rfl
    | some executor' => exact nofun
  | some executor =>
    cases r'.find? node.type with
    | none => exact nofun
    | some executor' =>
      rintro ⟨hexecutor⟩
      exact hexecutor

theorem related_executor {settings : Settings} {connectors : Entries Connector}
    {R : ∀ {α : Type}, Work α → Work α → Prop} (hR : Work.Compatible p R)
    (hlog : ∀ record, p (.log record)) {l l' : Step.CallFlow.Launcher}
    (hl : Step.CallFlow.Launcher.Related R l l') {node : Node}
    (haloof : node.type ≠ .subFlow → ∀ executor,
      Step.executor? settings connectors (some l') node.type = some executor →
        (executor node).Aloof p) :
    Option.Rel (fun executor executor' => R (executor node) (executor' node))
      (Step.executor? settings connectors (some l) node.type)
      (Step.executor? settings connectors (some l') node.type) := by
  by_cases ht : node.type = .subFlow
  · rw [ht]
    exact .some (Step.CallFlow.related_execute node hR hlog hl)
  · have hsame : Step.executor? settings connectors (some l) node.type =
        Step.executor? settings connectors (some l') node.type := by
      cases hn : node.type with
      | subFlow => exact absurd hn ht
      | _ => rfl
    rw [hsame]
    cases hx : Step.executor? settings connectors (some l') node.type with
    | none => exact .none
    | some executor => exact .some (hR.aloof (haloof ht executor hx))

theorem Ordinary.respects {d : Dispatcher} (h : d.Ordinary) : d.Respects Request.IsPlain := by
  obtain ⟨settings, connectors, hfind⟩ := h
  intro R hR l l' hl _ graph _ node _
  apply related_of_rel
  rcases hfind node.type with hours | ⟨own, haloof, hown⟩
  · rw [hours, hours]
    apply related_executor hR Request.served_isPlain.log hl
    intro ht executor hx
    exact Step.aloof_executor node Request.served_isPlain settings connectors _ ht hx
  · rw [hown, hown]
    cases ho : own with
    | none => exact .none
    | some executor => exact .some (hR.aloof (haloof executor ho node))

def standard (graphs : List FlowGraph) (maxDepth : Int) : Dispatcher :=
  ⟨FlowStore.ofList graphs, .int 5000, .int maxDepth, Step.standard .default []⟩

theorem standard_ordinary (graphs : List FlowGraph) (maxDepth : Int) :
    (standard graphs maxDepth).Ordinary :=
  ⟨.default, [], fun type => Or.inl fun launcher => Step.find?_standard _ _ launcher type⟩

variable {d : Dispatcher}

theorem Respects.writes_execute (hd : d.Respects p) (hp : Request.Basic p)
    (hT : Exchange.Closed p T) {run : String → Entries Value → String → Act Execution}
    (hrun : ∀ flow payload startedBy, (run flow payload startedBy).Writes Place.chain c T)
    (hstart : ∀ flow payload startedBy, (d.startDetached flow payload startedBy).Writes Place.chain c T)
    {flow : String} {graph : FlowGraph} (hf : d.flow flow = .ok graph) (id : String)
    (payload : Entries Value) :
    ((d.engineWith run).execute graph id payload).Writes Place.chain c T := by
  have hlauncher : Step.CallFlow.Launcher.Related
      (fun x _ => x.Writes (fun scene : Scene => scene.place.chain) c T)
      (d.launcher run) (d.launcher run) := by
    refine ⟨rfl, ?_, ?_⟩
    · intro flow payload startedBy scene t result scene' hc h
      obtain ⟨place, hpath, rfl⟩ := Work.path_act.mp h
      obtain ⟨first, hrunpath, -⟩ := path_map.mp hpath
      exact hrun flow payload startedBy _ _ _ _ hc hrunpath
    · intro flow payload startedBy scene t result scene' hc h
      obtain ⟨place, hpath, rfl⟩ := Work.path_act.mp h
      exact hstart flow payload startedBy _ _ _ _ hc hpath
  have hperform : ((d.engineWith run).perform graph).Writes (fun scene : Scene => scene.place.chain) c
      T :=
    Engine.related_perform (hT.compatible hp c) hp rfl
      (hd _ (hT.compatible hp c) _ _ hlauncher flow graph hf)
  intro place t result place' hc h
  obtain ⟨now, inner, walked, scene, rfl, hpath, -, rfl⟩ := Engine.path_execute h
  obtain ⟨hinner, hchain⟩ := hperform _ _ _ _ hc hpath
  exact ⟨hT.append (t := [_]) (hT.one hp.now) hinner, hchain⟩

/-- A property of rows of exchanges, by the room for nested runs and the enclosing runs, to which the
beginning and the end of each run keep. -/
structure Allows (d : Dispatcher) (p : Request → Prop)
    (T : Nat → List String → List Exchange → Prop) : Prop where
  closed : ∀ room chain, Exchange.Closed p (T room chain)
  ran : ∀ {room flow payload startedBy place t result place'},
    (d.runWithin room flow payload startedBy).Path place t result place' →
      d.Course T room flow payload startedBy place t result → T room place.chain t
  started : ∀ {room flow payload startedBy place t execution},
    d.Started flow payload startedBy place t execution →
      Limit.reached d.maxDepth place.chain.length = .ok false → T room place.chain t

section Allows

variable {T : Nat → List String → List Exchange → Prop}

theorem Allows.writes_startDetached (h : d.Allows p T) (hp : Request.Basic p) (room : Nat)
    (chain : List String) (flow : String) (payload : Entries Value) (startedBy : String) :
    (d.startDetached flow payload startedBy).Writes Place.chain chain (T room chain) := by
  rintro place t result place' rfl hpath
  obtain ⟨rfl, ht | ⟨execution, hs, hr⟩⟩ := path_startDetached hpath
  · exact ⟨(h.closed room _).of_areLog hp ht, rfl⟩
  · exact ⟨h.started hs hr, rfl⟩

section Respects

variable (h : d.Allows p T) (hd : d.Respects p) (hp : Request.Basic p)

include h hd hp

theorem Allows.of_execute {room : Nat}
    (hrun : ∀ chain flow payload startedBy,
      (d.runWithin room flow payload startedBy).Writes Place.chain chain (T room chain))
    {flow : String} {graph : FlowGraph} (hf : d.flow flow = .ok graph) {id : String}
    {payload : Entries Value} {place after : Place} {inner : List Exchange}
    {outcome : Except Fault Context}
    (hpath : ((d.engineWith (d.runWithin room)).execute graph id payload).Path place inner outcome
      after) : T room place.chain inner := by
  have hwrites := hd.writes_execute hp (h.closed room place.chain) (hrun place.chain)
    (h.writes_startDetached hp room place.chain) hf id payload
  exact (hwrites place inner outcome after rfl hpath).1

theorem Allows.writes_runWithin (room : Nat) (chain : List String) (flow : String)
    (payload : Entries Value) (startedBy : String) :
    (d.runWithin room flow payload startedBy).Writes Place.chain chain (T room chain) := by
  -- By the number of runs that may still be nested.
  induction room generalizing chain flow payload startedBy with
  | zero =>
    rintro place t result place' rfl hpath
    obtain ⟨hcourse, rfl⟩ := path_runWithin (fun _ _ _ _ _ _ _ h => by cases h) hpath
    exact ⟨h.ran hpath hcourse, rfl⟩
  | succ room ih =>
    rintro place t result place' rfl hpath
    have hcourse : d.Course T (room + 1) flow payload startedBy place t result ∧ place' = place := by
      refine path_runWithin ?_ hpath
      rintro _ graph id inside inner outcome after ⟨⟩ hf hinner
      exact h.of_execute hd hp ih hf hinner
    obtain ⟨hcourse, rfl⟩ := hcourse
    exact ⟨h.ran hpath hcourse, rfl⟩

theorem Allows.course {room : Nat} {flow : String} {payload : Entries Value} {startedBy : String}
    {place place' : Place} {t : List Exchange} {result : Except Fault Execution}
    (hpath : (d.runWithin room flow payload startedBy).Path place t result place') :
    d.Course T room flow payload startedBy place t result ∧ place' = place :=
  path_runWithin (fun room _ _ _ _ _ _ _ hf hinner =>
    h.of_execute hd hp (h.writes_runWithin hd hp room) hf hinner) hpath

theorem Allows.of_background {start : Start} {id : String} (hf : d.flow id = .ok start.flow)
    {t : List Exchange} {result : Except Fault Execution} {place : Place}
    (hpath : (d.background start).Path t (result, place)) :
    ∃ inner outcome execution, T d.room (start.chain ++ [start.flow.id]) inner ∧
      Conducted (d.engineWith (d.runWithin d.room)) start.flow start.execution start.payload
        ⟨start.trace, start.chain⟩ inner outcome t execution ∧
      result = .ok execution ∧ place = ⟨start.trace, start.chain⟩ := by
  obtain ⟨inner, outcome, execution, hc, rfl, rfl⟩ := path_conduct hpath
  refine ⟨inner, outcome, execution, ?_, hc, rfl, rfl⟩
  obtain ⟨_, _, _, _, _, _, _, _, _, after, hinner⟩ := hc
  exact h.of_execute hd hp (h.writes_runWithin hd hp d.room) hf hinner

end Respects

end Allows

end Dispatcher

end FlowEngine
