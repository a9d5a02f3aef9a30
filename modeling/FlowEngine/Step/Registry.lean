import FlowEngine.Fault
import FlowEngine.Flow.Node

/-!
# Registries of executors

A registry holds at most one executor for each type of node. It is written for executors of any kind,
since only their types count.
-/

namespace FlowEngine

/-- The executors by the type of node they run, in the order in which they were added. -/
structure Registry (ε : Type) where
  entries : List (NodeType × ε)
  nodup : (entries.map (·.1)).Nodup

namespace Registry

variable {ε : Type}

def empty : Registry ε := ⟨[], by simp⟩

def find? (r : Registry ε) (type : NodeType) : Option ε :=
  (r.entries.find? fun entry => decide (entry.1 = type)).map (·.2)

def types (r : Registry ε) : List NodeType := r.entries.map (·.1)

def supports (r : Registry ε) (type : NodeType) : Bool := decide (type ∈ r.types)

/-- Adds an executor; nothing when there is one for its type. -/
def add? (r : Registry ε) (type : NodeType) (executor : ε) : Option (Registry ε) :=
  if h : type ∈ r.types then none
  else some ⟨r.entries ++ [(type, executor)], by
    have hr := r.nodup
    rw [List.map_append, List.nodup_append]
    refine ⟨hr, by simp, ?_⟩
    intro a ha b hb
    simp only [List.map_cons, List.map_nil, List.mem_singleton] at hb
    subst hb
    intro e
    subst e
    exact h ha⟩

/-- The fault of a second executor for a type. Executors are named for this. -/
def duplicate (name : ε → String) (r : Registry ε) (type : NodeType) (executor : ε) : Fault :=
  .outside "DuplicateExecutorError"
    ("Duplicate executor for node type " ++ type.name ++ ": " ++
      ((r.find? type).map name).getD "" ++ " and " ++ name executor)

def addAll (name : ε → String) (r : Registry ε) : List (NodeType × ε) → Except Fault (Registry ε)
  | [] => .ok r
  | (type, executor) :: rest =>
    match r.add? type executor with
    | some r => addAll name r rest
    | none => .error (duplicate name r type executor)

def ofList (name : ε → String) (executors : List (NodeType × ε)) : Except Fault (Registry ε) :=
  addAll name empty executors

def get (r : Registry ε) (type : NodeType) (node : Option String) : Except Fault ε :=
  match r.find? type with
  | some executor => .ok executor
  | none => .error (.noExecutor type.name node)

def map {δ : Type} (f : NodeType → ε → δ) (r : Registry ε) : Registry δ where
  entries := r.entries.map fun (type, executor) => (type, f type executor)
  nodup := by
    have h := r.nodup
    simpa [List.map_map, Function.comp_def] using h

def filter (keep : NodeType → Bool) (r : Registry ε) : Registry ε where
  entries := r.entries.filter fun entry => keep entry.1
  nodup := r.nodup.sublist (List.filter_sublist.map _)

/-- Puts an executor in the place of the one for its type, or after the others. -/
def override (r : Registry ε) (type : NodeType) (executor : ε) : Registry ε :=
  match (r.filter fun t => t != type).add? type executor with
  | some r => r
  | none => r

theorem supports_iff (r : Registry ε) (type : NodeType) :
    r.supports type = true ↔ (r.find? type).isSome = true := by
  simp only [supports, types, find?, decide_eq_true_eq, Option.isSome_map, List.find?_isSome,
    List.mem_map]

theorem find?_map {δ : Type} (f : NodeType → ε → δ) (r : Registry ε) (type : NodeType) :
    (r.map f).find? type = (r.find? type).map (f type) := by
  have hentries : (r.map f).entries = r.entries.map fun entry => (entry.1, f entry.1 entry.2) := rfl
  unfold find?
  rw [hentries]
  induction r.entries with
  | nil => rfl
  | cons entry rest ih =>
    by_cases ht : entry.1 = type
    · subst ht
      simp
    · simpa [ht] using ih

theorem get_map {δ : Type} (f : NodeType → ε → δ) (r : Registry ε) (type : NodeType)
    (node : Option String) : (r.map f).get type node = (r.get type node).map (f type) := by
  rw [get, get, find?_map]
  cases r.find? type <;> rfl

end Registry

end FlowEngine
