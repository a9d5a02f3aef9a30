import FlowEngine.Proofs.Work.Transcript

/-!
# Relations that work respects

Work that keeps to some requests and leaves the enclosing runs alone is aloof. A relation between two
pieces of work is compatible when aloof work is related to itself and the ways in which work is put
together carry the relation on. What is then said of runs as a whole needs to be shown of their
executors only.

Of what surrounds it a run may see the time, the ids it draws, and how its waits end. Where it sees
nothing else, it goes the same way whenever it sees the same, whatever other replies it gets.
-/

namespace FlowEngine

/-- Whether events of a kind tell of the beginning or the end of an execution. -/
def EventKind.marksRun : EventKind → Bool
  | .executionStarted | .executionCompleted | .executionFailed => true
  | _ => false

/-- The requests among these are those that a run makes of itself, apart from events. -/
structure Request.Basic (p : Request → Prop) : Prop where
  log : ∀ record, p (.log record)
  pause : ∀ seconds, p (.pause seconds)
  now : p .now

namespace Doing

variable {σ α β γ : Type} {view : σ → γ} {p : Request → Prop}

/-- Work that asks for nothing else and leaves what a view of its state shows alone. -/
def Aloof (view : σ → γ) (p : Request → Prop) (x : Doing σ α) : Prop :=
  ∀ s t result s', x.Path s t result s' → (∀ e ∈ t, p e.request) ∧ view s' = view s

theorem aloof_ofExcept (x : Except Fault α) : Aloof view p (ofExcept x) := by
  intro s t result s' h
  obtain ⟨rfl, -, rfl⟩ := path_ofExcept.mp h
  exact ⟨by simp, rfl⟩

theorem aloof_pure (a : α) : Aloof view p (pure a) := aloof_ofExcept (.ok a)

theorem aloof_bind {x : Doing σ α} {f : α → Doing σ β} (hx : x.Aloof view p)
    (hf : ∀ a, (f a).Aloof view p) : Aloof view p (x >>= f) := by
  intro s t result s' h
  obtain ⟨t₁, t₂, first, s₁, rfl, h₁, h₂⟩ := path_bind.mp h
  obtain ⟨hp₁, hc₁⟩ := hx _ _ _ _ h₁
  cases first with
  | error fault =>
    obtain ⟨rfl, -, rfl⟩ := h₂
    exact ⟨by simpa using hp₁, hc₁⟩
  | ok a =>
    obtain ⟨hp₂, hc₂⟩ := hf a _ _ _ _ h₂
    refine ⟨fun e he => ?_, hc₂.trans hc₁⟩
    rcases List.mem_append.mp he with he | he
    · exact hp₁ e he
    · exact hp₂ e he

theorem aloof_ite {c : Prop} [Decidable c] {x y : Doing σ α} (hx : x.Aloof view p)
    (hy : y.Aloof view p) : Aloof view p (if c then x else y) := by
  split
  · exact hx
  · exact hy

theorem aloof_ask {r : Request} (hr : p r) : Aloof view p (ask r) := by
  intro s t result s' h
  obtain ⟨reply, rfl, -, rfl⟩ := path_ask.mp h
  exact ⟨by simpa using hr, rfl⟩

theorem aloof_attempt {x : Doing σ α} (hx : x.Aloof view p) : Aloof view p (attempt x) := by
  intro s t result s' h
  obtain ⟨inner, rfl, hpath⟩ := path_attempt.mp h
  exact hx _ _ _ _ hpath

theorem aloof_state : Aloof view p (state : Doing σ σ) := by
  intro s t result s' h
  obtain ⟨rfl, -, rfl⟩ := path_state.mp h
  exact ⟨by simp, rfl⟩

theorem aloof_update {f : σ → σ} (hf : ∀ s, view (f s) = view s) :
    Aloof view p (update f : Doing σ Unit) := by
  intro s t result s' h
  obtain ⟨rfl, he⟩ := Dialogue.path_done.mp h
  cases he
  exact ⟨by simp, hf s⟩

end Doing

open Doing

section Log

variable {γ : Type} {view : Place → γ} {p : Request → Prop} (hlog : ∀ record, p (.log record))

include hlog

theorem Act.aloof_note (line : Log.Line) : (Act.note line).Aloof view p := by
  intro place t result place' h
  obtain ⟨rfl, -, rfl⟩ := Act.path_note.mp h
  exact ⟨by simpa using hlog _, rfl⟩

theorem Act.aloof_noteAll (lines : List Log.Line) : (Act.noteAll lines).Aloof view p := by
  induction lines with
  | nil => exact aloof_pure ()
  | cons line rest ih => exact aloof_bind (Act.aloof_note hlog line) fun _ => ih

end Log

namespace Work

variable {α β γ : Type} {view : Place → γ} {p : Request → Prop}

/-- Work on a node that asks for nothing else and leaves the enclosing runs alone. -/
abbrev Aloof (p : Request → Prop) (x : Work α) : Prop :=
  Doing.Aloof (fun scene : Scene => scene.place.chain) p x

abbrev AloofFrom (view : Place → γ) (p : Request → Prop) (x : Work α) : Prop :=
  Doing.Aloof (fun scene : Scene => view scene.place) p x

theorem aloof_act {x : Act α} (hx : Doing.Aloof view p x) : AloofFrom view p (act x) := by
  intro scene t result scene' h
  obtain ⟨place, hp, rfl⟩ := path_act.mp h
  exact hx _ _ _ _ hp

theorem aloof_context : AloofFrom view p context := aloof_bind aloof_state fun _ => aloof_pure _

theorem aloof_scope : AloofFrom view p scope := aloof_bind aloof_state fun _ => aloof_pure _

theorem aloof_change (f : Context → Context) : AloofFrom view p (change f) := aloof_update fun _ => rfl

section Log

variable (hlog : ∀ record, p (.log record))

include hlog

theorem aloof_note (line : Log.Line) : AloofFrom view p (note line) := aloof_act (Act.aloof_note hlog line)

theorem aloof_noteAll (lines : List Log.Line) : AloofFrom view p (noteAll lines) :=
  aloof_act (Act.aloof_noteAll hlog lines)

theorem aloof_resolve (scope : Scope) (template : String) : AloofFrom view p (resolve scope template) :=
  aloof_bind (aloof_noteAll hlog _) fun _ => aloof_ofExcept _

theorem aloof_resolveAll (scope : Scope) (settings : Entries Value) :
    AloofFrom view p (resolveAll scope settings) :=
  aloof_bind (aloof_noteAll hlog _) fun _ => aloof_ofExcept _

end Log

def CanGive (x : Work α) (a : α) : Prop := ∃ scene t scene', x.Path scene t (.ok a) scene'

/-- A relation that holds between what is put together in the same way of what it holds between.
Aloof work that keeps to some requests is related to itself, and so is telling of a node. -/
structure Compatible (p : Request → Prop) (R : ∀ {α : Type}, Work α → Work α → Prop) : Prop where
  aloof : ∀ {α : Type} {x : Work α}, x.Aloof p → R x x
  bind : ∀ {α β : Type} {x y : Work α} {f g : α → Work β}, R x y →
    (∀ a, x.CanGive a → R (f a) (g a)) → R (x >>= f) (y >>= g)
  attempt : ∀ {α : Type} {x y : Work α}, R x y → R (Doing.attempt x) (Doing.attempt y)
  emit : ∀ {event : Event}, event.kind.marksRun = false → R (emit event) (emit event)

namespace Compatible

variable {R : ∀ {α : Type}, Work α → Work α → Prop}

theorem after (h : Compatible p R) {x : Work α} {f g : α → Work β} (hx : x.Aloof p)
    (hf : ∀ a, R (f a) (g a)) : R (x >>= f) (x >>= g) :=
  h.bind (h.aloof hx) fun a _ => hf a

theorem ite (_ : Compatible p R) {c : Prop} [Decidable c] {x y x' y' : Work α} (hx : R x x')
    (hy : R y y') : R (if c then x else y) (if c then x' else y') := by
  split
  · exact hx
  · exact hy

theorem emitFor (h : Compatible p R) (node : Node)
    {event : (flow execution node : Option String) → Event}
    (he : ∀ flow execution id, (event flow execution id).kind.marksRun = false) :
    R (Work.emitFor node event) (Work.emitFor node event) :=
  h.after aloof_context fun _ => h.emit (he _ _ _)

end Compatible

end Work

/-- The requests of a run that needs nothing from outside: lines for the log, waits and the time. -/
def Request.IsCalm : Request → Prop
  | .log _ | .pause _ | .now => True
  | _ => False

theorem Request.basic_isCalm : Request.Basic Request.IsCalm :=
  ⟨fun _ => trivial, fun _ => trivial, trivial⟩

def Request.isSeen : Request → Bool
  | .pause _ | .now | .freshId => true
  | _ => false

/-- What is seen in a row of exchanges: the instants, the ids and the ends of waits. -/
def Exchange.seen (t : List Exchange) : List Exchange := t.filter fun e => e.request.isSeen

open Exchange (seen)

@[simp] theorem Exchange.seen_append (t t' : List Exchange) : seen (t ++ t') = seen t ++ seen t' :=
  List.filter_append ..

theorem Exchange.seen_cons (e : Exchange) (t : List Exchange) :
    seen (e :: t) = if e.request.isSeen then e :: seen t else seen t :=
  List.filter_cons

namespace Dialogue

variable {α β : Type} {x : Dialogue α}

/-- Two ways through a dialogue on which the same is seen come to the same end. -/
def Replays (x : Dialogue α) : Prop :=
  ∀ t t' a a' rest rest', x.Path t a → x.Path t' a' → seen t ++ rest = seen t' ++ rest' →
    a = a' ∧ rest = rest'

theorem replays_done (a : α) : (done a).Replays := by
  intro t t' b b' rest rest' h h' heq
  obtain ⟨rfl, rfl⟩ := path_done.mp h
  obtain ⟨rfl, rfl⟩ := path_done.mp h'
  exact ⟨rfl, heq⟩

theorem Replays.bind {f : α → Dialogue β} (hx : x.Replays)
    (hf : ∀ t a, x.Path t a → (f a).Replays) : (x.bind f).Replays := by
  intro t t' b b' rest rest' h h' heq
  obtain ⟨t₁, t₂, a, rfl, h₁, h₂⟩ := path_bind.mp h
  obtain ⟨t₁', t₂', a', rfl, h₁', h₂'⟩ := path_bind.mp h'
  rw [Exchange.seen_append, Exchange.seen_append, List.append_assoc, List.append_assoc] at heq
  obtain ⟨rfl, hrest⟩ := hx t₁ t₁' a a' _ _ h₁ h₁' heq
  exact hf t₁ a h₁ t₂ t₂' b b' rest rest' h₂ h₂' hrest

theorem replays_ask {request : Request} {next : request.Reply → Dialogue α}
    (hr : request.isSeen = true ∨ Subsingleton request.Reply)
    (h : ∀ reply, (next reply).Replays) : (ask request next).Replays := by
  intro t t' a a' rest rest' hp hp' heq
  obtain ⟨reply, u, rfl, hu⟩ := path_ask.mp hp
  obtain ⟨reply', u', rfl, hu'⟩ := path_ask.mp hp'
  rw [Exchange.seen_cons, Exchange.seen_cons] at heq
  cases hs : request.isSeen with
  | true =>
    simp only [hs, if_true, List.cons_append, List.cons.injEq, Exchange.mk.injEq, heq_eq_eq,
      true_and] at heq
    obtain ⟨rfl, htail⟩ := heq
    exact h reply u u' a a' rest rest' hu hu' htail
  | false =>
    rw [hs] at hr
    have hsame : reply = reply' := by
      rcases hr with hr | hr
      · cases hr
      · exact Subsingleton.elim reply reply'
    subst hsame
    simp only [hs, Bool.false_eq_true, if_false] at heq
    exact h reply u u' a a' rest rest' hu hu' heq

/-- A dialogue that is calm sees all that its way hangs on. -/
theorem replays_of_calm (h : ∀ t a, x.Path t a → ∀ e ∈ t, e.request.IsCalm) : x.Replays := by
  induction x with
  | done a => exact replays_done a
  | ask request next ih =>
    have hcalm : request.IsCalm := by
      obtain ⟨t, a, hp⟩ := exists_path (next request.someReply)
      exact h _ a (.ask request next _ hp) ⟨request, request.someReply⟩ List.mem_cons_self
    have hreply : request.isSeen = true ∨ Subsingleton request.Reply := by
      cases request with
      | log record => exact Or.inr (inferInstanceAs (Subsingleton Unit))
      | pause seconds => exact Or.inl rfl
      | now => exact Or.inl rfl
      | _ => exact absurd hcalm id
    apply replays_ask hreply
    intro reply
    apply ih
    intro t a hp e he
    exact h _ a (.ask request next reply hp) e (List.mem_cons_of_mem _ he)

/-- Where nothing is seen and the end is always the same, there is nothing to hang on. -/
theorem replays_of_unseen {b : α} (h : ∀ t a, x.Path t a → seen t = [] ∧ a = b) :
    x.Replays := by
  intro t t' a a' rest rest' hp hp' heq
  obtain ⟨ht, rfl⟩ := h t a hp
  obtain ⟨ht', rfl⟩ := h t' a' hp'
  rw [ht, ht'] at heq
  exact ⟨rfl, heq⟩

end Dialogue

namespace Doing

variable {σ α β : Type} {x : Doing σ α} {f : α → Doing σ β} {s : σ}

theorem replays_then (hx : (x s).Replays)
    (hf : ∀ t a s', x.Path s t (.ok a) s' → (f a s').Replays) : ((x >>= f) s).Replays := by
  apply Dialogue.Replays.bind hx
  rintro t ⟨fault | a, s'⟩ hp
  · exact Dialogue.replays_done _
  · exact hf t a s' hp

theorem replays_ask_seen {r : Request} (hr : r.isSeen = true) : ((ask r : Doing σ r.Reply) s).Replays :=
  Dialogue.replays_ask (Or.inl hr) fun _ => Dialogue.replays_done _

theorem replays_ask_told {r : Request} (hr : Subsingleton r.Reply) :
    ((ask r : Doing σ r.Reply) s).Replays :=
  Dialogue.replays_ask (Or.inr hr) fun _ => Dialogue.replays_done _

theorem replays_attempt (hx : (x s).Replays) : (attempt x s).Replays :=
  hx.bind fun _ _ _ => Dialogue.replays_done _

end Doing

end FlowEngine
