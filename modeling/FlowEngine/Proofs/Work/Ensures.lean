import Mathlib.Logic.Basic
import FlowEngine.Run.Attempt

/-!
# What work ensures

A postcondition speaks of the result or fault of work and of the state it leaves, for all replies of
the surroundings. The rules follow the ways in which work is put together. Requests whose reply is
passed over, such as log lines and events, leave no trace in a postcondition.

Each way to reply to the requests of work gives an end of it. What work ensures is what holds of all
its ends, so an invariant of runs can be stated of the states themselves.
-/

namespace FlowEngine

theorem Dialogue.always_iff {α : Type} {p q : α → Prop} {x : Dialogue α} (h : ∀ a, p a ↔ q a) :
    x.Always p ↔ x.Always q :=
  ⟨Always.mono fun a => (h a).mp, Always.mono fun a => (h a).mpr⟩

theorem Dialogue.always_of_forall {α : Type} {p : α → Prop} {x : Dialogue α} (h : ∀ a, p a) :
    x.Always p := by
  induction x with
  | done a => exact h a
  | ask request next ih => exact ih

theorem Dialogue.Always.and {α : Type} {p q : α → Prop} {x : Dialogue α} (hp : x.Always p)
    (hq : x.Always q) : x.Always fun a => p a ∧ q a := by
  induction x with
  | done a => exact ⟨hp, hq⟩
  | ask request next ih => exact fun reply => ih reply (hp reply) (hq reply)

theorem Dialogue.run_bind {α β σ : Type} (x : Dialogue α) (f : α → Dialogue β)
    (serve : (r : Request) → σ → r.Reply × σ) (s : σ) :
    (x.bind f).run serve s = (f (x.run serve s).1).run serve (x.run serve s).2 := by
  induction x generalizing s with
  | done a => rfl
  | ask request next ih => exact ih _ _

theorem Dialogue.always_run {α σ : Type} {p : α → Prop} {x : Dialogue α}
    (h : x.Always p) (serve : (r : Request) → σ → r.Reply × σ) (s : σ) :
    p (x.run serve s).1 := by
  induction x generalizing s with
  | done a => exact h
  | ask request next ih => exact ih _ (h _) _

def Request.someReply : (r : Request) → r.Reply
  | .log _ => ()
  | .publish _ => none
  | .send _ => .timedOut
  | .query .. => .error .tooDeep
  | .complete _ => .nothing
  | .script .. => ⟨0, [], .error .tooDeep⟩
  | .pause _ => false
  | .hold => ()
  | .now => ⟨0, 0, 0, 0, 0, 0, 0, none⟩
  | .freshId => ""
  | .keep _ => ()
  | .start _ => ()
  | .consult _ => .error .tooDeep

/-- Gives some reply to each request. -/
def Request.answer (r : Request) (s : Unit) : r.Reply × Unit := (r.someReply, s)

/-- What holds of all results of a dialogue holds of one, since there is one. -/
theorem Dialogue.Always.exists {α : Type} {p : α → Prop} {x : Dialogue α} (h : x.Always p) :
    ∃ a, p a := by
  induction x with
  | done a => exact ⟨a, h⟩
  | ask request next ih => exact ih request.someReply (h request.someReply)

namespace Doing

variable {σ α β γ : Type} {s : σ}

/-- The result of work when a handler replies to its requests. -/
def served {τ : Type} (x : Doing σ α) (serve : (r : Request) → τ → r.Reply × τ) (s : σ) (t : τ) :
    (Except Fault α × σ) × τ :=
  (x s).run serve t

theorem served_bind {τ : Type} (x : Doing σ α) (f : α → Doing σ β)
    (serve : (r : Request) → τ → r.Reply × τ) (s : σ) (t : τ) :
    (x >>= f).served serve s t =
      match x.served serve s t with
      | ((.ok a, s), t) => (f a).served serve s t
      | ((.error fault, s), t) => ((.error fault, s), t) := by
  refine (Dialogue.run_bind (x s) _ serve t).trans ?_
  unfold served
  rcases (x s).run serve t with ⟨⟨fault | a, s⟩, t⟩ <;> rfl

theorem served_bind_ok {τ : Type} {x : Doing σ α} {f : α → Doing σ β}
    {serve : (r : Request) → τ → r.Reply × τ} {s s' : σ} {t t' : τ} {a : α}
    (h : x.served serve s t = ((.ok a, s'), t')) :
    (x >>= f).served serve s t = (f a).served serve s' t' := by
  rw [served_bind, h]

/-- What holds of the result and of the state after work, whatever the replies are. -/
def Ensures (x : Doing σ α) (s : σ) (post : Except Fault α → σ → Prop) : Prop :=
  (x s).Always fun result => post result.1 result.2

/-- A postcondition on results only; work that ends in a fault may do so. -/
def Yields (x : Doing σ α) (s : σ) (post : α → σ → Prop) : Prop :=
  x.Ensures s fun result s => ∀ a, result = .ok a → post a s

/-- A postcondition on a result that has to be there. -/
def Gives (x : Doing σ α) (s : σ) (post : α → σ → Prop) : Prop :=
  x.Ensures s fun result s => ∃ a, result = .ok a ∧ post a s

def Ends (x : Doing σ α) (s : σ) (post : α → σ → Prop) (broken : Fault → Prop) : Prop :=
  x.Ensures s fun result s =>
    match result with
    | .ok a => post a s
    | .error fault => broken fault

theorem Ensures.mono {x : Doing σ α} {post post' : Except Fault α → σ → Prop}
    (h : ∀ result s', post result s' → post' result s') (hx : x.Ensures s post) :
    x.Ensures s post' :=
  Dialogue.Always.mono (fun _ hr => h _ _ hr) hx

theorem Ensures.and {x : Doing σ α} {post post' : Except Fault α → σ → Prop}
    (h : x.Ensures s post) (h' : x.Ensures s post') :
    x.Ensures s fun result s' => post result s' ∧ post' result s' :=
  Dialogue.Always.and h h'

theorem ensures_of_forall {x : Doing σ α} {post : Except Fault α → σ → Prop}
    (h : ∀ result s', post result s') : x.Ensures s post :=
  Dialogue.always_of_forall fun _ => h _ _

theorem Ensures.served {τ : Type} {x : Doing σ α} {post : Except Fault α → σ → Prop}
    (h : x.Ensures s post) (serve : (r : Request) → τ → r.Reply × τ) (t : τ) :
    post (x.served serve s t).1.1 (x.served serve s t).1.2 :=
  Dialogue.always_run h serve t

theorem Yields.mono {x : Doing σ α} {post post' : α → σ → Prop}
    (h : ∀ a s', post a s' → post' a s') (hx : x.Yields s post) : x.Yields s post' :=
  Ensures.mono (fun _ _ hr a ha => h a _ (hr a ha)) hx

theorem Yields.and {x : Doing σ α} {post post' : α → σ → Prop} (h : x.Yields s post)
    (h' : x.Yields s post') : x.Yields s fun a s' => post a s' ∧ post' a s' :=
  Ensures.mono (fun _ _ hr a ha => ⟨hr.1 a ha, hr.2 a ha⟩) (Ensures.and h h')

theorem Gives.and_yields {x : Doing σ α} {post post' : α → σ → Prop} (h : x.Gives s post)
    (h' : x.Yields s post') : x.Gives s fun a s' => post a s' ∧ post' a s' := by
  refine Ensures.mono ?_ (Ensures.and h h')
  rintro _ s' ⟨⟨a, rfl, hp⟩, hy⟩
  exact ⟨a, rfl, hp, hy a rfl⟩

theorem Gives.yields {x : Doing σ α} {post : α → σ → Prop} (h : x.Gives s post) :
    x.Yields s post := by
  refine Ensures.mono ?_ h
  rintro _ s' ⟨a, rfl, hp⟩ _ ⟨⟩
  exact hp

theorem Gives.exists {x : Doing σ α} {post : α → σ → Prop} (h : x.Gives s post) :
    ∃ a s', post a s' := by
  obtain ⟨⟨_, s'⟩, a, -, hp⟩ := Dialogue.Always.exists h
  exact ⟨a, s', hp⟩

theorem Gives.mono {x : Doing σ α} {post post' : α → σ → Prop}
    (h : ∀ a s', post a s' → post' a s') (hx : x.Gives s post) : x.Gives s post' :=
  Ensures.mono (fun _ _ ⟨a, ha, hp⟩ => ⟨a, ha, h a _ hp⟩) hx

theorem Ends.mono {x : Doing σ α} {post post' : α → σ → Prop} {broken : Fault → Prop}
    (h : ∀ a s', post a s' → post' a s') (hx : x.Ends s post broken) : x.Ends s post' broken := by
  refine Ensures.mono ?_ hx
  rintro (fault | a) s' hr
  · exact hr
  · exact h a s' hr

theorem Ends.yields {x : Doing σ α} {post : α → σ → Prop} {broken : Fault → Prop}
    (h : x.Ends s post broken) : x.Yields s post := by
  refine Ensures.mono ?_ h
  rintro _ s' hr a rfl
  exact hr

theorem Ends.and_yields {x : Doing σ α} {post post' : α → σ → Prop} {broken : Fault → Prop}
    (h : x.Ends s post broken) (h' : x.Yields s post') :
    x.Ends s (fun a s' => post a s' ∧ post' a s') broken := by
  refine Ensures.mono ?_ (Ensures.and h h')
  rintro (fault | a) s' ⟨hp, hy⟩
  · exact hp
  · exact ⟨hp, hy a rfl⟩

theorem Yields.ends {x : Doing σ α} {post : α → σ → Prop} (h : x.Yields s post) :
    x.Ends s post fun _ => True := by
  refine Ensures.mono ?_ h
  rintro (fault | a) s' hr
  · trivial
  · exact hr a rfl

@[simp] theorem ensures_pure {a : α} {post : Except Fault α → σ → Prop} :
    (pure a : Doing σ α).Ensures s post ↔ post (.ok a) s := Iff.rfl

theorem ensures_bind {x : Doing σ α} {f : α → Doing σ β} {post : Except Fault β → σ → Prop} :
    (x >>= f).Ensures s post ↔ x.Ensures s fun result s' =>
      match result with
      | .ok a => (f a).Ensures s' post
      | .error fault => post (.error fault) s' := by
  refine Dialogue.always_bind.trans (Dialogue.always_iff ?_)
  rintro ⟨a | a, s'⟩ <;> rfl

@[simp] theorem ensures_map {x : Doing σ α} {f : α → β} {post : Except Fault β → σ → Prop} :
    (f <$> x).Ensures s post ↔ x.Ensures s fun result s' => post (result.map f) s' := by
  refine ensures_bind.trans (Dialogue.always_iff ?_)
  rintro ⟨a | a, s'⟩ <;> rfl

theorem ensures_ask {r : Request} {post : Except Fault r.Reply → σ → Prop} :
    (ask r : Doing σ r.Reply).Ensures s post ↔ ∀ reply, post (.ok reply) s := Iff.rfl

@[simp] theorem ensures_ofExcept {x : Except Fault α} {post : Except Fault α → σ → Prop} :
    (ofExcept x : Doing σ α).Ensures s post ↔ post x s := Iff.rfl

theorem ensures_attempt {x : Doing σ α} {post : Except Fault (Except Fault α) → σ → Prop} :
    (attempt x).Ensures s post ↔ x.Ensures s fun result s' => post (.ok result) s' :=
  Dialogue.always_bind

@[simp] theorem ensures_ite {c : Prop} [Decidable c] {x y : Doing σ α}
    {post : Except Fault α → σ → Prop} :
    (if c then x else y).Ensures s post ↔ if c then x.Ensures s post else y.Ensures s post := by
  split <;> rfl

theorem ends_bind {x : Doing σ α} {f : α → Doing σ β} {post : β → σ → Prop}
    {broken : Fault → Prop} :
    (x >>= f).Ends s post broken ↔
      x.Ends s (fun a s' => (f a).Ends s' post broken) broken := by
  refine ensures_bind.trans (Dialogue.always_iff ?_)
  rintro ⟨a | a, s'⟩ <;> rfl

theorem gives_bind {x : Doing σ α} {f : α → Doing σ β} {post : β → σ → Prop} :
    (x >>= f).Gives s post ↔ x.Gives s fun a s' => (f a).Gives s' post := by
  refine ensures_bind.trans (Dialogue.always_iff ?_)
  rintro ⟨a | a, s'⟩ <;> simp [Gives]

end Doing

namespace Act

variable {place : Place}

theorem ensures_note {line : Log.Line} {post : Except Fault Unit → Place → Prop} :
    (note line).Ensures place post ↔ post (.ok ()) place :=
  forall_const Unit

theorem ensures_noteAll {lines : List Log.Line} {post : Except Fault Unit → Place → Prop} :
    (noteAll lines).Ensures place post ↔ post (.ok ()) place := by
  induction lines with
  | nil => rfl
  | cons line rest ih => exact Doing.ensures_bind.trans (ensures_note.trans ih)

end Act

namespace Work

variable {α : Type} {scene : Scene}

theorem ensures_act {x : Act α} {post : Except Fault α → Scene → Prop} :
    (act x).Ensures scene post ↔
      x.Ensures scene.place fun result place => post result { scene with place } :=
  Dialogue.always_bind

@[simp] theorem ensures_note {line : Log.Line} {post : Except Fault Unit → Scene → Prop} :
    (note line).Ensures scene post ↔ post (.ok ()) scene :=
  ensures_act.trans Act.ensures_note

@[simp] theorem ensures_noteAll {lines : List Log.Line} {post : Except Fault Unit → Scene → Prop} :
    (noteAll lines).Ensures scene post ↔ post (.ok ()) scene :=
  ensures_act.trans Act.ensures_noteAll

@[simp] theorem ensures_context {post : Except Fault Context → Scene → Prop} :
    context.Ensures scene post ↔ post (.ok scene.context) scene := Iff.rfl

@[simp] theorem ensures_change {f : Context → Context} {post : Except Fault Unit → Scene → Prop} :
    (change f).Ensures scene post ↔ post (.ok ()) { scene with context := f scene.context } :=
  Iff.rfl

@[simp] theorem ensures_scope {post : Except Fault Scope → Scene → Prop} :
    scope.Ensures scene post ↔ post (.ok ⟨scene.context, none⟩) scene := Iff.rfl

@[simp] theorem ensures_resolve {scope : Scope} {template : String}
    {post : Except Fault String → Scene → Prop} :
    (resolve scope template).Ensures scene post ↔ post (scope.resolve template) scene :=
  Doing.ensures_bind.trans ensures_noteAll

@[simp] theorem ensures_resolveAll {scope : Scope} {settings : Entries Value}
    {post : Except Fault (Entries Value) → Scene → Prop} :
    (resolveAll scope settings).Ensures scene post ↔ post (scope.settings settings) scene :=
  Doing.ensures_bind.trans ensures_noteAll

@[simp] theorem ensures_emit {event : Event} {post : Except Fault Unit → Scene → Prop} :
    (emit event).Ensures scene post ↔ post (.ok ()) scene := by
  refine Doing.ensures_bind.trans (Doing.ensures_ask.trans ⟨fun h => h none, ?_⟩)
  intro h reply
  cases reply with
  | none => exact h
  | some reason => exact ensures_note.mpr h

@[simp] theorem ensures_emitFor {node : Node}
    {event : (flow execution node : Option String) → Event}
    {post : Except Fault Unit → Scene → Prop} :
    (emitFor node event).Ensures scene post ↔ post (.ok ()) scene :=
  Doing.ensures_bind.trans ensures_emit

end Work

def Dialogue.CanEnd {α : Type} (a : α) : Dialogue α → Prop
  | .done b => b = a
  | .ask _ next => ∃ reply, (next reply).CanEnd a

theorem Dialogue.always_iff_forall_canEnd {α : Type} {p : α → Prop} {x : Dialogue α} :
    x.Always p ↔ ∀ a, x.CanEnd a → p a := by
  induction x with
  | done b => exact ⟨fun h a hb => hb ▸ h, fun h => h b rfl⟩
  | ask request next ih =>
    constructor
    · rintro h a ⟨reply, hr⟩
      exact (ih reply).mp (h reply) a hr
    · intro h reply
      exact (ih reply).mpr fun a ha => h a ⟨reply, ha⟩

namespace Doing

variable {σ α : Type} {x : Doing σ α} {s s' : σ} {result : Except Fault α}

/-- A result or fault, and a state, that work has for some replies. -/
def CanEnd (x : Doing σ α) (s : σ) (result : Except Fault α) (s' : σ) : Prop :=
  (x s).CanEnd (result, s')

theorem ensures_iff_forall_canEnd {post : Except Fault α → σ → Prop} :
    x.Ensures s post ↔ ∀ result s', x.CanEnd s result s' → post result s' :=
  Dialogue.always_iff_forall_canEnd.trans
    ⟨fun h result s' => h (result, s'), fun h a => h a.1 a.2⟩

theorem Ensures.of_canEnd {post : Except Fault α → σ → Prop} (h : x.Ensures s post)
    (he : x.CanEnd s result s') : post result s' :=
  ensures_iff_forall_canEnd.mp h _ _ he

end Doing

end FlowEngine
