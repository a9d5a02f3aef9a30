import FlowEngine.Proofs.Reference.Substitution
import FlowEngine.Proofs.Run.Advance
import FlowEngine.Proofs.Step.Message
import FlowEngine.Step.Data
import FlowEngine.Step.Finish
import FlowEngine.Step.Loop

/-!
# Nodes that always succeed

Start nodes succeed. So do end nodes and mappers whose settings hold no reference, since nothing in
them can fail to resolve.
-/

namespace FlowEngine.Step

variable {node : Node}

theorem succeeds_start : (start node).Succeeds :=
  fun _ => ⟨_, rfl, rfl, rfl, rfl⟩

theorem succeeds_finish (h : Scope.IsPlain (node.mapSetting "response")) :
    (finish .success node).Succeeds := by
  intro scene
  simp only [Doing.Gives, finish, Doing.ensures_bind, Work.ensures_scope, Work.ensures_resolveAll,
    Scope.settings_eq_self _ h]
  exact ⟨_, rfl, rfl, rfl, rfl⟩

theorem succeeds_reshape (h : Scope.IsPlain (node.mapSetting "output")) :
    (reshape node).Succeeds := by
  intro scene
  simp only [Doing.Gives, reshape, Doing.ensures_bind, Work.ensures_scope, Work.ensures_resolveAll,
    Scope.settings_eq_self _ h]
  exact ⟨_, rfl, rfl, rfl, rfl⟩

end FlowEngine.Step

namespace FlowEngine

namespace Node

def plainStart : Node := ⟨"start", .start, "", [], []⟩

def plainMapper (id value : String) : Node :=
  ⟨id, .mapper, "", [("output", .object [("v", .text value)])], []⟩

def plainEnd : Node := ⟨"done", .success, "", [], []⟩

end Node

/-- A flow of some nodes, with an edge for each of some ways between them. -/
def FlowGraph.plain (nodes : List Node) (ways : List (String × String × EdgeCondition)) :
    FlowGraph where
  id := "g"
  name := ""
  description := ""
  nodes
  edges := ways.map fun (source, target, condition) => ⟨none, source, target, condition, none, []⟩
  maxSteps := none
  extras := []

namespace Engine

/-- An engine for nodes that need nothing from outside. -/
def plain : Engine where
  registry :=
    { entries := [(.start, Step.start), (.mapper, Step.reshape), (.loop, Step.Loop.execute),
        (.success, Step.finish .success)]
      nodup := by decide }
  maxSteps := .int 5000

theorem plain_standard : ∀ entry ∈ plain.registry.entries, Step.Standard entry := by
  intro entry he
  refine ⟨.default, [], none, ?_⟩
  simp only [plain, List.mem_cons, List.not_mem_nil, or_false] at he
  rcases he with rfl | rfl | rfl | rfl <;> rfl

theorem plain_serves_start : plain.Serves .plainStart :=
  ⟨Step.start, .default, none, rfl, rfl, rfl, Step.succeeds_start⟩

theorem plain_serves_mapper {id value : String} (h : '\x7b' ∉ value.toList) :
    plain.Serves (.plainMapper id value) := by
  refine ⟨Step.reshape, .default, none, rfl, rfl, rfl, Step.succeeds_reshape ?_⟩
  intro entry he
  rw [List.mem_singleton.mp he]
  exact ⟨value, rfl, h⟩

theorem plain_serves_end : plain.Serves .plainEnd :=
  ⟨Step.finish .success, .default, none, rfl, rfl, rfl,
    Step.succeeds_finish fun _ he => absurd he List.not_mem_nil⟩

end Engine

end FlowEngine
