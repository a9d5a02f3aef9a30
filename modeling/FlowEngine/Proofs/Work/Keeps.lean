import FlowEngine.Proofs.Work.Ensures
import FlowEngine.Run.Engine

/-!
# What work leaves alone

A view of the context is kept by work when it is the same before and after, whether the work gives a
result or ends in a fault. Attempts at a node keep what its executor keeps, apart from the message
with which they fail the run.
-/

namespace FlowEngine

/-- Work after which a view of the context is what it was before, whatever the replies are. -/
structure Work.Keeps {α β : Type} (view : Context → β) (x : Work α) : Prop where
  same : ∀ scene, x.Ensures scene fun _ scene' => view scene'.context = view scene.context

/-- All executors of an engine keep a view of the context. -/
def Engine.Keeps {β : Type} (view : Context → β) (engine : Engine) : Prop :=
  ∀ entry ∈ engine.registry.entries, ∀ node, Work.Keeps view (entry.2 node)

namespace Work

variable {α β γ : Type} {view : Context → γ}

theorem keeps_pure (a : α) : Keeps view (pure a) := ⟨fun _ => rfl⟩

theorem keeps_bind {x : Work α} {f : α → Work β} (hx : x.Keeps view)
    (hf : ∀ a, (f a).Keeps view) : Keeps view (x >>= f) := by
  constructor
  intro scene
  refine Doing.ensures_bind.mpr (Doing.Ensures.mono ?_ (hx.same scene))
  intro result scene' h
  cases result with
  | error fault => exact h
  | ok a => exact Doing.Ensures.mono (fun _ _ ha => ha.trans h) ((hf a).same scene')

theorem keeps_ite {c : Prop} [Decidable c] {x y : Work α} (hx : x.Keeps view)
    (hy : y.Keeps view) : Keeps view (if c then x else y) := by
  split
  · exact hx
  · exact hy

theorem keeps_ask (r : Request) : Keeps view (Doing.ask r) := ⟨fun _ _ => rfl⟩

theorem keeps_ofExcept (x : Except Fault α) : Keeps view (Doing.ofExcept x) :=
  ⟨fun _ => rfl⟩

theorem keeps_attempt {x : Work α} (hx : x.Keeps view) : Keeps view (Doing.attempt x) where
  same scene := Doing.ensures_attempt.mpr (hx.same scene)

theorem keeps_act (x : Act α) : Keeps view (act x) := by
  constructor
  intro scene
  refine ensures_act.mpr ?_
  unfold Doing.Ensures
  induction x scene.place with
  | done a => rfl
  | ask request next ih => exact fun reply => ih reply

theorem keeps_note (line : Log.Line) : Keeps view (note line) := keeps_act _

theorem keeps_noteAll (lines : List Log.Line) : Keeps view (noteAll lines) := keeps_act _

theorem keeps_context : Keeps view context := ⟨fun _ => rfl⟩

theorem keeps_scope : Keeps view scope := ⟨fun _ => rfl⟩

theorem keeps_change {f : Context → Context} (hf : ∀ c, view (f c) = view c) :
    Keeps view (change f) := ⟨fun scene => hf scene.context⟩

theorem keeps_resolve (scope : Scope) (template : String) : Keeps view (resolve scope template) :=
  keeps_bind (keeps_noteAll _) fun _ => keeps_ofExcept _

theorem keeps_resolveAll (scope : Scope) (settings : Entries Value) :
    Keeps view (resolveAll scope settings) :=
  keeps_bind (keeps_noteAll _) fun _ => keeps_ofExcept _

theorem keeps_emitFor (node : Node) (event : (flow execution node : Option String) → Event) :
    Keeps view (emitFor node event) := ⟨fun _ => ensures_emitFor.mpr rfl⟩

end Work

namespace Attempt

variable {γ : Type} {view : Context → γ} {executor : Executor} {node : Node}

theorem keeps_once (he : Work.Keeps view (executor node)) :
    Work.Keeps view (once executor node) := by
  refine Work.keeps_bind (Work.keeps_attempt he) fun result => ?_
  cases result with
  | ok outcome => exact Work.keeps_pure outcome
  | error fault =>
    refine Work.keeps_bind (Work.keeps_note _) fun _ => ?_
    exact Work.keeps_bind (Work.keeps_emitFor _ _) fun _ => Work.keeps_pure _

theorem keeps_announce (attempt most : Nat) (delay : Double) (outcome : Outcome) :
    Work.Keeps view (announce node attempt most delay outcome) :=
  Work.keeps_bind (Work.keeps_note _) fun _ => Work.keeps_emitFor _ _

/-- The only writing between attempts is the message of a wait that was cancelled. -/
theorem keeps_series (he : Work.Keeps view (executor node))
    (hf : ∀ (c : Context) message, view (c.fail message) = view c) (policy : RetryPolicy)
    (left made : Nat) (delay : Double) :
    Work.Keeps view (series executor node policy left made delay) := by
  induction left generalizing made delay with
  | zero => exact keeps_once he
  | succ left ih =>
    refine Work.keeps_bind (keeps_once he) fun outcome => ?_
    refine Work.keeps_ite ?_ (Work.keeps_pure outcome)
    refine Work.keeps_bind (keeps_announce _ _ _ _) fun _ => ?_
    refine Work.keeps_bind (Work.keeps_ask _) fun cancelled => ?_
    refine Work.keeps_ite ?_ (ih _ _)
    refine Work.keeps_bind (Work.keeps_note _) fun _ => ?_
    exact Work.keeps_bind (Work.keeps_change fun c => hf c _) fun _ => Work.keeps_pure _

theorem keeps_run (he : Work.Keeps view (executor node))
    (hf : ∀ (c : Context) message, view (c.fail message) = view c) :
    Work.Keeps view (run executor node) := by
  refine Work.keeps_bind (Work.keeps_noteAll _) fun _ => ?_
  exact Work.keeps_bind (Work.keeps_ofExcept _) fun policy => keeps_series he hf policy _ _ _

end Attempt

theorem Registry.mem_of_get {ε : Type} {r : Registry ε} {type : NodeType} {id : Option String}
    {executor : ε} (h : r.get type id = .ok executor) : (type, executor) ∈ r.entries := by
  unfold get at h
  split at h
  · rename_i found hf
    cases h
    obtain ⟨entry, he, rfl⟩ := Option.map_eq_some_iff.mp hf
    have hm := List.mem_of_find?_eq_some he
    have ht := List.find?_some he
    simp only [decide_eq_true_eq] at ht
    exact ht ▸ hm
  · cases h

theorem Engine.Keeps.of_get {γ : Type} {view : Context → γ} {engine : Engine}
    (h : engine.Keeps view) {node : Node} {id : Option String} {executor : Executor}
    (hg : engine.registry.get node.type id = .ok executor) : Work.Keeps view (executor node) :=
  h _ (Registry.mem_of_get hg) node

end FlowEngine
