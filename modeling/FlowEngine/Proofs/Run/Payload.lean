import FlowEngine.Proofs.Reference.Saved
import FlowEngine.Proofs.Run.Ledger

/-!
# The payload of a run

The outcome of the start node is recorded before all others and never again, so it is the first one
all the way through a run. Whatever asks for the start node, by any spelling of that word, finds it
first, and with it the payload.
-/

namespace FlowEngine

namespace Context

theorem apart_nodes : Apart nodes :=
  ⟨fun _ _ _ => rfl, fun _ _ _ => rfl, fun _ _ _ => rfl, fun _ _ => rfl⟩

variable {start : Node} {payload : Entries Value} {context : Context}

/-- The first outcome of a context is that of the start node, with a payload. -/
def LedBy (start : Node) (payload : Entries Value) (context : Context) : Prop :=
  ∃ others, context.nodes = (start.id, startOutcome start payload) :: others

theorem LedBy.startId? (h : context.LedBy start payload) : context.startId? = some start.id := by
  obtain ⟨others, h⟩ := h
  rw [Context.startId?, h, List.find?_cons_of_pos (by simp [startOutcome])]
  rfl

theorem LedBy.get? (h : context.LedBy start payload) :
    context.nodes.get? start.id = some (startOutcome start payload) := by
  obtain ⟨others, h⟩ := h
  rw [h, Entries.get?, if_pos rfl]

theorem LedBy.startOutput? (h : context.LedBy start payload) :
    context.startOutput? = some [("body", .object payload)] := by
  rw [Context.startOutput?, h.startId?, Option.bind_some, h.get?]
  rfl

theorem LedBy.recorded {node : Node} {outcome : Outcome} (h : context.LedBy start payload)
    (hn : node.type ≠ .start → node.id ≠ start.id) :
    (Engine.recorded node outcome context).LedBy start payload := by
  obtain ⟨others, h⟩ := h
  obtain ⟨nodes, aliases, nex, hr, hnodes⟩ := Engine.recorded_eq node outcome context
  rw [LedBy, hr, hnodes]
  split
  · exact ⟨others, h⟩
  · rename_i hs
    exact ⟨Entries.put others node.id outcome, by rw [h, Entries.put, if_neg (hn hs).symm]⟩

/-- What a script gets as its input tells the payload, unless an outcome is too deep to be
written. -/
theorem LedBy.scriptInput (h : context.LedBy start payload) :
    (∃ input, context.scriptInput = .ok input ∧
      input.field? "trigger" = some (.object [("body", .object payload)])) ∨
    context.scriptInput = .error .tooDeep ∧
      ∃ entry ∈ context.nodes ++ context.aliases, entry.2.fitsBelow 0 = false := by
  unfold Context.scriptInput
  split
  · refine Or.inl ⟨_, rfl, ?_⟩
    rw [h.startOutput?]
    rfl
  · rename_i hall
    obtain ⟨entry, he, hf⟩ := List.all_eq_false.mp (Bool.eq_false_iff.mpr hall)
    exact Or.inr ⟨rfl, entry, he, by simpa using hf⟩

end Context

namespace Scope

variable {start : Node} {payload : Entries Value} {context : Context}

/-- Any spelling of `start` leads to the start node, whatever other nodes are called. -/
theorem nodePath_start (h : context.LedBy start payload) {key : String}
    (hk : Text.lower key = "start") : nodePath context key "output" ["body"] = .object payload := by
  have hkey : nodeKey? context key = some start.id := by
    rw [nodeKey?, hk, beq_self_eq_true, if_pos rfl, h.startId?]
  rw [nodePath, hkey, Option.bind_some, Context.outcome?, h.get?]
  rfl

theorem path_payload (h : context.LedBy start payload) (loop : Option LoopState) :
    (⟨context, loop⟩ : Scope).path "nodes.start.output.body" = .ok (.object payload) := by
  have hinput : withoutInput "nodes.start.output.body" = "nodes.start.output.body" := by decide
  have hparts : Text.dottedParts "nodes.start.output.body" =
      ["nodes", "start", "output", "body"] := by decide
  rw [path_eq_parts, hinput, hparts]
  exact congrArg Except.ok (nodePath_start h (by decide))

theorem settings_payload (h : context.LedBy start payload) (loop : Option LoopState)
    (key : String) :
    (⟨context, loop⟩ : Scope).settings
      [(key, .text "\x7b\x7bnodes.start.output.body\x7d\x7d")] =
        .ok [(key, .object payload)] := by
  have hspaceless : Text.Spaceless "nodes.start.output.body".toList :=
    ⟨by decide, Text.visible_of_all (by decide)⟩
  have hsettings := settings_spaceless ⟨context, loop⟩ key hspaceless
  rw [path_payload h] at hsettings
  exact hsettings

end Scope

namespace Engine

open Doing

variable {engine : Engine} {graph : FlowGraph} {executionId : String} {start : Node}
  {payload : Entries Value} {context : Context}

theorem ledBy_opening (graph : FlowGraph) (executionId : String) (payload : Entries Value)
    (now : Instant) :
    (opening graph executionId payload now).LedBy (startOf graph) payload := by
  rw [opening, Context.seed_eq]
  exact ⟨[], rfl⟩

theorem Reaches.ledBy {walk : Walk} (hk : engine.Keeps Context.nodes)
    (hn : (graph.nodes.map (·.id)).Nodup) (hs : graph.start? = some start)
    (h : Reaches engine graph executionId payload walk context) : context.LedBy start payload := by
  have hstart : startOf graph = start := by rw [startOf, hs]; rfl
  refine h.invariant (fun _ context => context.LedBy start payload)
    (fun now => hstart ▸ ledBy_opening graph executionId payload now) ?_ ?_ ?_
  · intro walk scene node queue executor h _ hq hg hled
    have hnode : node ∈ graph.nodes :=
      (h.reachable.within hs).waiting node (hq ▸ List.mem_cons_self)
    have hother : node.type ≠ .start → node.id ≠ start.id := by
      intro ht hid
      have hsame : node = start :=
        List.inj_on_of_nodup_map hn hnode (List.mem_of_find?_eq_some hs) hid
      exact ht (hsame ▸ hstart ▸ type_startOf graph)
    refine Ensures.mono ?_
      ((Attempt.keeps_run (hk.of_get hg) fun _ _ => rfl).same (entered node scene))
    rintro _ scene' hnodes outcome rfl
    have hled' : scene'.context.LedBy start payload := hled.imp fun _ h => hnodes.trans h
    obtain ⟨message, hturn⟩ := Turn.after_context graph node outcome { walk with queue }
      (recorded node outcome scene'.context)
    show (Turn.after _ _ _ _ _).context.LedBy start payload
    rw [hturn]
    exact hled'.recorded hother
  · intro _ _ _ _ _ _ _ hled
    exact hled
  · intro _ _ _ hled
    exact hled

/-- All the way through a run the payload is at its path, alone or as a setting, and is what a
script is told of the start node. -/
theorem Arises.payload_readable (hk : engine.Keeps Context.nodes)
    (hn : (graph.nodes.map (·.id)).Nodup) (hs : graph.start? = some start)
    (h : Arises engine graph executionId payload context) :
    (∀ loop, (⟨context, loop⟩ : Scope).path "nodes.start.output.body" = .ok (.object payload)) ∧
    (∀ loop key, (⟨context, loop⟩ : Scope).settings
      [(key, .text "\x7b\x7bnodes.start.output.body\x7d\x7d")] =
        .ok [(key, .object payload)]) ∧
    ((∃ input, context.scriptInput = .ok input ∧
        input.field? "trigger" = some (.object [("body", .object payload)])) ∨
      context.scriptInput = .error .tooDeep ∧
        ∃ entry ∈ context.nodes ++ context.aliases, entry.2.fitsBelow 0 = false) := by
  have hled : context.LedBy start payload := by
    refine h.invariant (fun context => context.LedBy start payload)
      (fun _ _ h => h.ledBy hk hn hs) (fun _ _ hled => hled) ?_
    intro node executor scene hg hled
    refine Ensures.mono ?_ ((hk.of_get hg).same scene)
    exact fun _ scene' hnodes => hled.imp fun _ h => hnodes.trans h
  exact ⟨Scope.path_payload hled, Scope.settings_payload hled, hled.scriptInput⟩

theorem plain_keeps_nodes : plain.Keeps Context.nodes :=
  fun entry he node => (plain_standard entry he).keeps Context.apart_nodes node

end Engine

namespace Namesake

def start : Node := ⟨"entry", .start, "", [], []⟩

/-- Another node is called like the word for the start node. -/
def namesake : Node := ⟨"start", .success, "Start", [], []⟩

def flow : FlowGraph := .plain [namesake, start] [("entry", "start", .always)]

def payload : Entries Value := [("n", .int 1)]

/-- After both nodes ran, the path still leads to the payload. -/
theorem namesake_readable :
    ∃ passage, ((Engine.plain.follow flow "run" payload).served Request.answer .outside ()).1.1 =
        .ok passage ∧
      passage.context.nodes.keys = ["entry", "start"] ∧
      (⟨passage.context, none⟩ : Scope).path "nodes.start.output.body" = .ok (.object payload) := by
  obtain ⟨passage, hp, hkeys⟩ : ∃ passage,
      ((Engine.plain.follow flow "run" payload).served Request.answer .outside ()).1.1 = .ok passage ∧
        passage.context.nodes.keys = ["entry", "start"] := ⟨_, rfl, rfl⟩
  have hreaches := Engine.follow_reaches.served Request.answer () passage hp
  obtain ⟨hpath, -⟩ := (Engine.Arises.between hreaches).payload_readable Engine.plain_keeps_nodes
    (by decide) rfl
  exact ⟨passage, hp, hkeys, hpath none⟩

end Namesake

end FlowEngine
