import FlowEngine.Data.Limit
import FlowEngine.Dispatch.Dispatcher
import FlowEngine.Outside.Site

/-!
# Background runs

Runs in the background take turns in the order in which they became ready. A turn of a run lasts until
the run ends, waits at the gate or waits for a script. Whoever triggers runs is not one of them: the
runs have their turns only while it waits.
-/

namespace FlowEngine

structure Job where
  /-- The id of its execution. -/
  id : String
  rest : Dialogue (Except Fault Execution × Place)

inductive Ready where
  /-- A run begins or goes on after so many more turns. -/
  | advance (turns : Nat) (job : Job)
  /-- A run that has ended is no longer active. -/
  | retire (id : String)
  /-- Whoever waits goes on after so many more turns. -/
  | relay (turns : Nat)

/-- The run that someone waits for, and how many turns later it is known that the run has ended. -/
structure Awaited where
  id : String
  turns : Nat
  deriving DecidableEq, Repr

structure Schedule (σ : Type) where
  site : Site σ
  queue : List Ready
  /-- The runs that wait at the gate, in the order in which they reached it. -/
  held : List Job
  /-- The runs that are not retired, in the order in which they were started. -/
  active : List String
  /-- The runs that have ended but are not retired. -/
  ended : List String
  isOpen : Bool
  awaited : Option Awaited

namespace Schedule

variable {σ α : Type}

/-- No run has been started, and the gate is closed. -/
def fresh (site : Site σ) : Schedule σ := ⟨site, [], [], [], [], false, none⟩

def enlist (d : Dispatcher) (s : Schedule σ) : Schedule σ :=
  { s with
    site := { s.site with starts := [] }
    queue := s.queue ++ s.site.starts.map fun start =>
      .advance 0 ⟨start.execution.id, d.background start⟩
    active := s.active ++ s.site.starts.map (·.execution.id) }

def finish (s : Schedule σ) (id : String) : Schedule σ :=
  let s := { s with queue := s.queue ++ [Ready.retire id], ended := s.ended ++ [id] }
  match s.awaited with
  | some awaited =>
    if awaited.id = id then
      { s with queue := s.queue ++ [Ready.relay awaited.turns], awaited := none }
    else s
  | none => s

def advance (d : Dispatcher) (o : Outside σ) (s : Schedule σ) (job : Job) : Schedule σ :=
  let (stop, site) := job.rest.advance (Site.serve o) s.isOpen s.site
  let s := enlist d { s with site }
  match stop with
  | .ended _ => s.finish job.id
  | .held rest => { s with held := s.held ++ [{ job with rest }] }
  | .away turns rest => { s with queue := s.queue ++ [.advance turns { job with rest }] }

def retire (s : Schedule σ) (id : String) : Schedule σ :=
  { s with active := s.active.erase id, ended := s.ended.erase id }

/-- Takes turns one after the other. When whoever waits goes on, the rest stay in the queue; whether
that happened is the first component. -/
def take (d : Dispatcher) (o : Outside σ) : List Ready → Schedule σ → Bool × Schedule σ
  | [], s => (false, s)
  | .relay 0 :: rest, s => (true, { s with queue := rest ++ s.queue })
  | .relay (turns + 1) :: rest, s => take d o rest { s with queue := s.queue ++ [.relay turns] }
  | .retire id :: rest, s => take d o rest (s.retire id)
  | .advance 0 job :: rest, s => take d o rest (s.advance d o job)
  | .advance (turns + 1) job :: rest, s =>
    take d o rest { s with queue := s.queue ++ [.advance turns job] }

/-- Takes turns in rounds until the queue is empty or whoever waits goes on. Everything that is
queued during a round has its turn in the next one. -/
def work (d : Dispatcher) (o : Outside σ) : Nat → Schedule σ → Schedule σ
  | 0, s => s
  | rounds + 1, s =>
    if s.queue.isEmpty then s
    else
      match take d o s.queue { s with queue := [] } with
      | (true, s) => s
      | (false, s) => work d o rounds s

/-- Enough rounds for all runs to end or be held: runs are nested at most so deep, a few more rounds
pass between the end of a run and its being known, and scripts keep runs waiting for no more rounds
than there is room for steps. -/
def rounds (d : Dispatcher) : Nat :=
  ((Limit.least ">=" d.maxDepth).toOption.getD 0) + 8 + Limit.unbounded

def settle (d : Dispatcher) (o : Outside σ) (s : Schedule σ) : Schedule σ := work d o (rounds d) s

/-- Takes turns while whoever triggers runs waits for so many turns and one more. -/
def yield (d : Dispatcher) (o : Outside σ) (turns : Nat) (s : Schedule σ) : Schedule σ :=
  settle d o { s with queue := s.queue ++ [.relay turns] }

/-- Carries out a dialogue of whoever triggers runs. While it waits for a script, the runs have their
turns. -/
def carryOut (d : Dispatcher) (o : Outside σ) : Dialogue α → Schedule σ → α × Schedule σ
  | .done a, s => (a, s)
  | .ask request next, s =>
    let (reply, site) := Site.serve o request s.site
    let s := enlist d { s with site }
    carryOut d o (next reply)
      (match request.turns reply with
      | 0 => s
      | turns + 1 => s.yield d o turns)

def perform (d : Dispatcher) (o : Outside σ) (act : Act α) (s : Schedule σ) :
    Except Fault α × Schedule σ :=
  let ((result, _), s) := carryOut d o (act Place.outside) s
  (result, s)

/-- Takes turns while a run is waited for. The turns between its end and its being known are one more
where the patience is limited. Without any patience only what is ready has its turn. -/
def await (d : Dispatcher) (o : Outside σ) (id : String) (s : Schedule σ) : Patience → Schedule σ
  | .unlimited => { settle d o { s with awaited := some ⟨id, 1⟩ } with awaited := none }
  | .limited => { settle d o { s with awaited := some ⟨id, 2⟩ } with awaited := none }
  | .spent => s.yield d o 1

def wait (d : Dispatcher) (o : Outside σ) (id : String) (seconds : Value) (s : Schedule σ) :
    Except Fault (Option Execution) × Schedule σ :=
  if id ∈ s.active then
    match Patience.ofSeconds seconds with
    | .error fault => (.error fault, s)
    | .ok patience =>
      let s := if id ∈ s.ended then s else s.await d o id patience
      (.ok (s.site.executions.get? id), s)
  else (.ok (s.site.executions.get? id), s)

def openGate (s : Schedule σ) : Schedule σ :=
  { s with queue := s.queue ++ s.held.map (.advance 0), held := [], isOpen := true }

end Schedule

end FlowEngine
