import FlowEngine.Log.Record

/-!
# Scopes of the trace

Fields are set for a while and taken back in reverse order. Taking back gives the trace as it was when
the fields were set, whatever happened since.
-/

namespace FlowEngine.Log

/-- The trace in force together with those it was laid over. -/
structure Scopes where
  current : Trace
  /-- The traces to go back to, the latest first. -/
  saved : List Trace
  deriving DecidableEq, Repr

namespace Scopes

def empty : Scopes := ⟨[], []⟩

def set (scopes : Scopes) (fields : Entries Value) : Scopes :=
  ⟨scopes.current.putAll fields, scopes.current :: scopes.saved⟩

def reset (scopes : Scopes) : Scopes :=
  match scopes.saved with
  | [] => scopes
  | before :: saved => ⟨before, saved⟩

def clear (scopes : Scopes) : Scopes := { scopes with current := [] }

theorem reset_set (scopes : Scopes) (fields : Entries Value) :
    (scopes.set fields).reset = scopes := rfl

end Scopes

end FlowEngine.Log
