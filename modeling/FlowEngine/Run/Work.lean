import FlowEngine.Reference.Unresolved
import FlowEngine.Run.Dialogue

/-!
# Work

Work is a dialogue that carries a state and may end in a fault; what was written before the fault
stays written. An act knows only the place it is done at: the trace for the log and the flows of the
enclosing runs. The work of a node also has the context of its run.
-/

namespace FlowEngine

structure Place where
  trace : Log.Trace
  /-- The flows of the enclosing runs, outermost first. -/
  chain : List String
  deriving DecidableEq, Repr

def Place.outside : Place := ⟨[], []⟩

/-- What the work of a node sees. -/
structure Scene where
  context : Context
  place : Place
  deriving DecidableEq, Repr

/-- A dialogue that carries a state and ends with a result or a fault. -/
def Doing (σ α : Type) : Type := σ → Dialogue (Except Fault α × σ)

abbrev Act := Doing Place

abbrev Work := Doing Scene

namespace Doing

variable {σ α β : Type}

/-- Goes on with the result; a fault ends everything. -/
def bind (x : Doing σ α) (f : α → Doing σ β) : Doing σ β := fun s =>
  Dialogue.bind (x s) fun
    | (.ok a, s) => f a s
    | (.error fault, s) => .done (.error fault, s)

instance : Monad (Doing σ) where
  pure a := fun s => .done (.ok a, s)
  bind := bind

theorem bind_pure (x : Doing σ α) : bind x pure = x := funext fun s => by
  show Dialogue.bind (x s) _ = x s
  conv => rhs; rw [← Dialogue.bind_done (x s)]
  congr
  funext r
  obtain ⟨a | a, s⟩ := r <;> rfl

theorem bind_assoc {γ : Type} (x : Doing σ α) (f : α → Doing σ β) (g : β → Doing σ γ) :
    bind (bind x f) g = bind x fun a => bind (f a) g := funext fun s => by
  show Dialogue.bind (Dialogue.bind (x s) _) _ = Dialogue.bind (x s) _
  rw [Dialogue.bind_assoc]
  congr
  funext r
  obtain ⟨a | a, s⟩ := r <;> rfl

instance : LawfulMonad (Doing σ) :=
  LawfulMonad.mk' (Doing σ) (fun x => bind_pure x) (fun _ _ => rfl) bind_assoc

def state : Doing σ σ := fun s => .done (.ok s, s)

def update (f : σ → σ) : Doing σ Unit := fun s => .done (.ok (), f s)

def ask (r : Request) : Doing σ r.Reply := fun s => .ask r fun reply => .done (.ok reply, s)

def ofExcept (x : Except Fault α) : Doing σ α := fun s => .done (x, s)

theorem ofExcept_ok_bind (a : α) (f : α → Doing σ β) : (ofExcept (.ok a) >>= f) = f a := rfl

def fail (fault : Fault) : Doing σ α := ofExcept (.error fault)

def attempt (x : Doing σ α) : Doing σ (Except Fault α) := fun s =>
  Dialogue.bind (x s) fun (result, s) => .done (.ok result, s)

end Doing

namespace Act

def note (line : Log.Line) : Act Unit := fun place =>
  .ask (.log ⟨line, place.trace, false⟩) fun _ => .done (.ok (), place)

/-- Writes a line that is followed by the course of a fault. -/
def noteCourse (line : Log.Line) : Act Unit := fun place =>
  .ask (.log ⟨line, place.trace, true⟩) fun _ => .done (.ok (), place)

def noteAll : List Log.Line → Act Unit
  | [] => pure ()
  | line :: rest => do
    note line
    noteAll rest

end Act

namespace Work

variable {α : Type}

/-- An act inside a run leaves the context alone. -/
def act (x : Act α) : Work α := fun scene =>
  Dialogue.bind (x scene.place) fun (result, place) => .done (result, { scene with place })

def note (line : Log.Line) : Work Unit := act (Act.note line)

def noteAll (lines : List Log.Line) : Work Unit := act (Act.noteAll lines)

def context : Work Context := fun scene => .done (.ok scene.context, scene)

def change (f : Context → Context) : Work Unit :=
  Doing.update fun scene => { scene with context := f scene.context }

/-- What references are resolved against, outside of a loop. -/
def scope : Work Scope := fun scene => .done (.ok ⟨scene.context, none⟩, scene)

def resolve (scope : Scope) (template : String) : Work String := do
  noteAll (scope.warnings template)
  Doing.ofExcept (scope.resolve template)

def resolveAll (scope : Scope) (settings : Entries Value) : Work (Entries Value) := do
  noteAll (scope.settingsWarnings settings)
  Doing.ofExcept (scope.settings settings)

end Work

abbrev Executor := Node → Work Outcome

end FlowEngine
