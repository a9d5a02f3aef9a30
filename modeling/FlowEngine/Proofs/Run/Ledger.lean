import FlowEngine.Proofs.Data.Latest
import FlowEngine.Proofs.Run.Reach
import FlowEngine.Proofs.Step.Plain
import FlowEngine.Proofs.Step.Saving

/-!
# What a run records

The records of a run are those of its visits, with the payload before them as the output of the
start node. Under each id, each key of a label and each save name stands what was recorded there
last. The engine saves outputs, and so does a loop that ends; what each visit saves is said once, and
the map of saved outputs shows the latest of it.
-/

namespace FlowEngine

/-- What a run records of its visits, apart from the saved outputs. -/
def Context.kept (context : Context) : Entries Outcome × Entries Outcome × List String :=
  (context.nodes, context.aliases, context.order)

theorem Context.apart_kept : Context.Apart Context.kept :=
  ⟨fun _ _ _ => rfl, fun _ _ _ => rfl, fun _ _ _ => rfl, fun _ _ => rfl⟩

def Visit.ById (visit : Visit) (id : String) (outcome : Outcome) : Prop :=
  visit.node.id = id ∧ visit.outcome = outcome

def Visit.ByAlias (visit : Visit) (key : String) (outcome : Outcome) : Prop :=
  aliasOfLabel? visit.node.label = some key ∧ visit.outcome = outcome

namespace Walk

variable {graph : FlowGraph} {walk walk' : Walk}

/-- All nodes of a walk, those visited and those that wait, are nodes of its flow. -/
structure Within (graph : FlowGraph) (walk : Walk) : Prop where
  waiting : ∀ node ∈ walk.queue, node ∈ graph.nodes
  visited : ∀ v ∈ walk.visits, v.node ∈ graph.nodes

theorem Within.snoc {node : Node} {outcome : Outcome} {queue queue' : List Node}
    {visits : List Visit} {failed failed' : Bool} {ending : Option Ending}
    (h : Within graph ⟨node :: queue, visits, failed, none⟩)
    (hq : ∀ node ∈ queue', node ∈ queue ∨ node ∈ graph.nodes) :
    Within graph ⟨queue', visits ++ [⟨node, outcome⟩], failed', ending⟩ where
  waiting waiting hw := (hq waiting hw).elim (fun hm => h.waiting _ (List.mem_cons_of_mem _ hm)) id
  visited v hv := by
    rcases List.mem_append.mp hv with hv | hv
    · exact h.visited v hv
    · cases List.mem_singleton.mp hv
      exact h.waiting node List.mem_cons_self

theorem within_step (hs : Step graph walk walk') (h : Within graph walk) : Within graph walk' := by
  cases hs with
  | overflow node queue =>
    exact ⟨fun waiting hw => h.waiting waiting (List.mem_cons_of_mem _ hw), h.visited⟩
  | terminal => exact h.snoc fun _ hm => Or.inl hm
  | halt => exact h.snoc fun _ hm => Or.inl hm
  | cycle => exact h.snoc fun _ hm => Or.inl hm
  | goOn node outcome queue visits failed hs queue' he =>
    refine h.snoc fun waiting hm => (mem_of_mem_enqueue he waiting hm).imp_right fun hn => ?_
    exact (FlowGraph.target?_eq_some (FlowGraph.mem_next.mp (mem_endsLast.mp hn)).2).1

theorem Reachable.within {start : Node} (hs : graph.start? = some start)
    (hr : walk.Reachable graph) : Within graph walk := by
  induction hr with
  | refl =>
    have hm : start ∈ graph.nodes := List.mem_of_find?_eq_some hs
    exact ⟨by simp [starting, Engine.startOf, hs, hm], by simp [starting]⟩
  | tail _ hs ih => exact within_step hs ih

end Walk

namespace Context

variable (context : Context) (node : Node) (outcome : Outcome) {items : List Visit}

theorem shows_keep_nodes (h : context.nodes.Shows Visit.ById items) :
    (context.keep node outcome).nodes.Shows Visit.ById (items ++ [⟨node, outcome⟩]) :=
  h.put fun _ _ => Iff.rfl

theorem shows_keep_aliases (h : context.aliases.Shows Visit.ByAlias items) :
    (context.keep node outcome).aliases.Shows Visit.ByAlias (items ++ [⟨node, outcome⟩]) := by
  unfold keep
  cases hk : aliasOfLabel? node.label with
  | none => exact h.skip fun key value hv => by cases hk.symm.trans hv.1
  | some key =>
    refine h.put fun key' value' => and_congr_left' ?_
    rw [hk, Option.some.injEq]

theorem record_eq :
    context.record node outcome = { context.keep node outcome with
      nex := if savesItself node.type then context.nex
        else node.saved (.object (outcome.primary.getD [])) context.nex } := by
  unfold record nameToSave? Node.saved
  cases savesItself node.type with
  | true => rfl
  | false =>
    simp only [Bool.false_eq_true, if_false]
    cases node.saveName?.filter isSaveName <;> rfl

theorem seed_eq (payload : Entries Value) :
    context.seed node payload = { context.keep node (startOutcome node payload) with
      nex := node.saved (.object [("body", .object payload)]) context.nex } := by
  unfold seed Node.saved
  cases node.saveName?.filter isSaveName <;> rfl

end Context

namespace Engine

/-- Each executor of an engine comes with it, or leaves the records of the run alone. -/
def Modest (engine : Engine) : Prop :=
  ∀ entry ∈ engine.registry.entries, Step.Standard entry ∨
    ∀ node, Work.Keeps Context.kept (entry.2 node) ∧ Work.Keeps Context.nex (entry.2 node)

/-- What a visit saves, and under which name: a loop that ends its summary, and nodes of all types
but variables and loops the main output of their outcome. -/
inductive Saves (engine : Engine) : Visit → String → Value → Prop where
  | output {node outcome name} (hv : node.type ≠ .variable) (hl : node.type ≠ .loop)
      (hn : node.saveName? = some name) (hs : isSaveName name = true) :
      Saves engine ⟨node, outcome⟩ name (.object (outcome.primary.getD []))
  | summary {node outcome state name} (hl : node.type = .loop)
      (hg : engine.registry.get node.type (some node.id) = .ok Step.Loop.execute)
      (ho : outcome = Step.Loop.left node state) (hn : node.saveName? = some name)
      (hs : isSaveName name = true) :
      Saves engine ⟨node, outcome⟩ name (.object (Step.Loop.summary state))

/-- What is recorded, in order: the payload as the outcome of the start node, and the visits of all
other nodes. -/
def recordings (start : Node) (payload : Entries Value) (visits : List Visit) : List Visit :=
  ⟨start, Context.startOutcome start payload⟩ :: visits.filter (·.node.type != .start)

/-- The records that belong to a walk. -/
structure Ledger (engine : Engine) (start : Node) (payload : Entries Value) (walk : Walk)
    (context : Context) : Prop where
  order : context.order = walk.executed
  nodes : context.nodes.Shows Visit.ById (recordings start payload walk.visits)
  aliases : context.aliases.Shows Visit.ByAlias (recordings start payload walk.visits)
  nex : context.nex.Shows engine.Saves (recordings start payload walk.visits)

/-- What one visit does to the saved outputs. -/
def Settles (engine : Engine) (visit : Visit) (before after : Entries Value) : Prop :=
  (∃ name v, engine.Saves visit name v ∧ after = before.put name v) ∨
    (∀ name v, ¬ engine.Saves visit name v) ∧ after = before

section Saving

variable {engine : Engine} {visit : Visit} {node : Node} {outcome : Outcome} {name : String}
  {v : Value} {nex nex' : Entries Value}

theorem Saves.filter_saveName? (h : engine.Saves visit name v) :
    visit.node.saveName?.filter isSaveName = some name := by
  cases h with
  | output hv hl hn hs => simp [hn, Option.filter, hs]
  | summary hl hg ho hn hs => simp [hn, Option.filter, hs]

theorem Saves.value_unique {v' : Value} (h : engine.Saves visit name v)
    (h' : engine.Saves visit name v') : v = v' := by
  cases h with
  | output hv hl =>
    cases h' with
    | output => rfl
    | summary hl' => exact absurd hl' hl
  | summary hl hg ho =>
    cases h' with
    | output hv' hl' => exact absurd hl hl'
    | summary hl' hg' ho' =>
      have hsummary := congrArg Outcome.successOutput (ho.symm.trans ho')
      exact congrArg Value.object (Option.some.inj hsummary)

theorem Saves.iff (h : engine.Saves visit name v) (name' : String) (v' : Value) :
    engine.Saves visit name' v' ↔ name = name' ∧ v = v' := by
  constructor
  · intro h'
    obtain rfl := Option.some.inj (h.filter_saveName?.symm.trans h'.filter_saveName?)
    exact ⟨rfl, h.value_unique h'⟩
  · rintro ⟨rfl, rfl⟩
    exact h

theorem Saves.succeeds (h : engine.Saves ⟨node, outcome⟩ name v) (hl : node.type = .loop) :
    outcome.status = .success := by
  cases h with
  | output hv hn => exact absurd hl hn
  | summary hl hg ho => rw [ho]; rfl

theorem settles_saved (h : ∀ name, visit.node.saveName?.filter isSaveName = some name →
    engine.Saves visit name v) : engine.Settles visit nex (visit.node.saved v nex) := by
  unfold Node.saved
  cases hn : visit.node.saveName?.filter isSaveName with
  | some name => exact Or.inl ⟨name, v, h name hn, rfl⟩
  | none =>
    refine Or.inr ⟨fun name v hs => ?_, rfl⟩
    rw [hs.filter_saveName?] at hn
    cases hn

theorem Settles.shows {items : List Visit} (h : engine.Settles visit nex nex')
    (hs : nex.Shows engine.Saves items) : nex'.Shows engine.Saves (items ++ [visit]) := by
  rcases h with ⟨name, v, hv, rfl⟩ | ⟨hn, rfl⟩
  · exact hs.put hv.iff
  · exact hs.skip hn

end Saving

section Run

open Doing

variable {engine : Engine} {graph : FlowGraph} {node : Node} {executor : Executor}

theorem Modest.keeps (hm : engine.Modest) : engine.Keeps Context.kept := by
  intro entry he node
  rcases hm entry he with hs | hk
  · exact hs.keeps Context.apart_kept node
  · exact (hk node).1

theorem Modest.keeps_nex (hm : engine.Modest)
    (hg : engine.registry.get node.type (some node.id) = .ok executor)
    (hx : ¬ (node.type = .loop ∧ executor = Step.Loop.execute)) :
    Work.Keeps Context.nex (executor node) := by
  rcases hm _ (Registry.mem_of_get hg) with ⟨settings, connectors, launcher, hs⟩ | hk
  · refine Step.keeps_executor_of_ne_loop node (fun _ _ _ => rfl) settings connectors launcher ?_ hs
    intro hl
    rw [hl] at hs
    exact hx ⟨hl, (Option.some.inj hs).symm⟩
  · exact (hk node).2

theorem nex_recorded_loop {outcome : Outcome} {context : Context} (hl : node.type = .loop) :
    (recorded node outcome context).nex = context.nex := by
  rw [recorded, hl, if_neg (by decide), Context.record_eq, Context.savesItself, hl]
  rfl

theorem settles_recorded {outcome : Outcome} {context : Context} (hs : node.type ≠ .start)
    (hl : node.type ≠ .loop) :
    engine.Settles ⟨node, outcome⟩ context.nex (recorded node outcome context).nex := by
  rw [recorded, if_neg (by simpa using hs), Context.record_eq]
  by_cases hv : node.type = .variable
  · rw [Context.savesItself, hv]
    exact Or.inr ⟨fun name v h => by cases h <;> simp_all, rfl⟩
  · have hi : Context.savesItself node.type = false := by simp [Context.savesItself, hv, hl]
    rw [hi]
    refine settles_saved fun name hn => ?_
    obtain ⟨hn, hs⟩ := Option.filter_eq_some_iff.mp hn
    exact .output hv hl hn hs

/-- Failures save nothing, so what attempts at a loop save is what its last call saved. -/
theorem yields_run_loop (hl : node.type = .loop)
    (hg : engine.registry.get node.type (some node.id) = .ok Step.Loop.execute) (scene : Scene) :
    (Attempt.run Step.Loop.execute node).Yields scene fun outcome scene' =>
      engine.Settles ⟨node, outcome⟩ scene.context.nex scene'.context.nex := by
  have hfail {outcome : Outcome} (hs : outcome.status ≠ .success) (name : String) (v : Value) :
      ¬ engine.Saves ⟨node, outcome⟩ name v := fun h => hs (h.succeeds hl)
  have hmore {outcome : Outcome} {nex nex' : Entries Value}
      (h : engine.Settles ⟨node, outcome⟩ nex nex')
      (hc : Attempt.callsForMore outcome = true) : outcome.status ≠ .success ∧ nex' = nex := by
    have hs : outcome.status ≠ .success := by simp [(Attempt.callsForMore_iff.mp hc).1]
    rcases h with ⟨name, v, hv, -⟩ | ⟨-, hk⟩
    · exact absurd hv (hfail hs name v)
    · exact ⟨hs, hk⟩
  refine Attempt.yields_run (fun c outcome c' => engine.Settles ⟨node, outcome⟩ c.nex c'.nex)
    ?_ ?_ ?_ scene
  · intro scene
    refine Ensures.mono ?_ (Step.Loop.closes_execute node scene)
    rintro result scene' (⟨state, rfl, hnex⟩ | ⟨hnex, hs⟩)
    · rw [hnex]
      refine settles_saved fun name hn => ?_
      obtain ⟨hn, hs⟩ := Option.filter_eq_some_iff.mp hn
      exact .summary hl hg rfl hn hs
    · refine Or.inr ⟨hfail ?_, hnex⟩
      cases result with
      | ok outcome => exact hs outcome rfl
      | error fault => rintro ⟨⟩
  · intro c outcome c' outcome' c'' h hc h'
    rwa [(hmore h hc).2] at h'
  · intro c outcome c' text h hc
    exact Or.inr ⟨hfail (hmore h hc).1, (hmore h hc).2⟩

theorem Modest.yields_run (hm : engine.Modest)
    (hg : engine.registry.get node.type (some node.id) = .ok executor) (scene : Scene) :
    (Attempt.run executor node).Yields scene fun outcome scene' =>
      scene'.context.kept = scene.context.kept ∧
        (node.type = .start → scene'.context.nex = scene.context.nex) ∧
        (node.type ≠ .start → engine.Settles ⟨node, outcome⟩ scene.context.nex
          (recorded node outcome scene'.context).nex) := by
  -- A loop saves while it runs, the engine saves for the others when it records.
  have hkept : (Attempt.run executor node).Yields scene fun _ scene' =>
      scene'.context.kept = scene.context.kept :=
    Ensures.mono (fun _ _ hk _ _ => hk)
      ((Attempt.keeps_run (hm.keeps.of_get hg) fun _ _ => rfl).same scene)
  refine hkept.and ?_
  by_cases hx : node.type = .loop ∧ executor = Step.Loop.execute
  · obtain ⟨hl, rfl⟩ := hx
    refine Yields.mono ?_ (yields_run_loop hl hg scene)
    intro outcome scene' h
    rw [nex_recorded_loop hl]
    exact ⟨fun hs => absurd (hl.symm.trans hs) (by decide), fun _ => h⟩
  · have hnex := (Attempt.keeps_run (hm.keeps_nex hg hx) fun _ _ => rfl).same scene
    refine Ensures.mono ?_ hnex
    rintro _ scene' hk outcome rfl
    refine ⟨fun _ => hk, fun hs => ?_⟩
    rw [← hk]
    by_cases hl : node.type = .loop
    · rw [nex_recorded_loop hl]
      refine Or.inr ⟨fun name v h => ?_, rfl⟩
      cases h with
      | output hv hl' => exact hl' hl
      | summary hl' hg' => exact hx ⟨hl, Except.ok.inj (hg.symm.trans hg')⟩
    · exact settles_recorded hs hl

variable {start : Node} {payload : Entries Value} {walk : Walk} {visits : List Visit}

theorem type_startOf (graph : FlowGraph) : (startOf graph).type = .start := by
  unfold startOf
  cases hs : graph.start? with
  | none => rfl
  | some start =>
    rw [FlowGraph.start?] at hs
    simpa using List.find?_some hs

theorem recordings_snoc (visit : Visit) :
    recordings start payload (visits ++ [visit]) =
      if visit.node.type = .start then recordings start payload visits
      else recordings start payload visits ++ [visit] := by
  by_cases hs : visit.node.type = .start <;> simp [recordings, hs]

theorem ledger_opening (engine : Engine) (graph : FlowGraph) (executionId : String)
    (payload : Entries Value) (now : Instant) :
    engine.Ledger (startOf graph) payload (Walk.starting (startOf graph))
      (opening graph executionId payload now) := by
  have hseed : opening graph executionId payload now = Context.noteLoops
      { (Context.create graph.id executionId now).keep (startOf graph)
          (Context.startOutcome (startOf graph) payload) with
        nex := (startOf graph).saved (.object [("body", .object payload)]) [] } graph := by
    rw [opening, Context.seed_eq]
    rfl
  have hsettles : engine.Settles ⟨startOf graph, Context.startOutcome (startOf graph) payload⟩ []
      ((startOf graph).saved (.object [("body", .object payload)]) []) := by
    refine settles_saved fun name hn => ?_
    obtain ⟨hn, hs⟩ := Option.filter_eq_some_iff.mp hn
    exact .output (by simp [type_startOf]) (by simp [type_startOf]) hn hs
  rw [hseed]
  exact {
    order := rfl
    nodes :=
      Context.shows_keep_nodes (Context.create graph.id executionId now) _ _ Entries.shows_nil
    aliases :=
      Context.shows_keep_aliases (Context.create graph.id executionId now) _ _ Entries.shows_nil
    nex := hsettles.shows Entries.shows_nil }

theorem Ledger.turnOf {queue : List Node} {outcome : Outcome} {context context' : Context}
    (h : engine.Ledger start payload walk context) (hkept : context'.kept = context.kept)
    (hstart : node.type = .start → context'.nex = context.nex)
    (hother : node.type ≠ .start →
      engine.Settles ⟨node, outcome⟩ context.nex (recorded node outcome context').nex) :
    let turn := turnOf graph node outcome { walk with queue } context'
    engine.Ledger start payload turn.walk turn.context := by
  intro turn
  obtain ⟨hnodes, haliases, horder⟩ : context'.nodes = context.nodes ∧
      context'.aliases = context.aliases ∧ context'.order = context.order := by
    simpa [Context.kept] using hkept
  obtain ⟨message, hturn⟩ : ∃ message, turn.context = { recorded node outcome context' with
      order := (recorded node outcome context').order ++ [node.id], errorMessage := message } :=
    Turn.after_context _ _ _ _ _
  have hvisits : turn.walk.visits = walk.visits ++ [⟨node, outcome⟩] := Turn.after_visits _ _ _ _ _
  have horder' : turn.context.order = turn.walk.executed := by
    rw [order_turnOf, executed_turnOf, horder, h.order]
    rfl
  by_cases hs : node.type = .start
  · have hrecorded : recorded node outcome context' = context' := by rw [recorded, hs]; rfl
    have hsame : recordings start payload turn.walk.visits =
        recordings start payload walk.visits := by
      rw [hvisits, recordings_snoc, if_pos hs]
    rw [hrecorded] at hturn
    refine ⟨horder', ?_, ?_, ?_⟩
    all_goals rw [hsame, hturn]
    · exact hnodes ▸ h.nodes
    · exact haliases ▸ h.aliases
    · exact hstart hs ▸ h.nex
  · have hrecorded : recorded node outcome context' = context'.record node outcome := by
      rw [recorded, if_neg (by simpa using hs)]
    have hsnoc : recordings start payload turn.walk.visits =
        recordings start payload walk.visits ++ [⟨node, outcome⟩] := by
      rw [hvisits, recordings_snoc, if_neg hs]
    refine ⟨horder', ?_, ?_, ?_⟩
    all_goals rw [hsnoc, hturn]
    · rw [hrecorded, Context.record_eq]
      exact Context.shows_keep_nodes context' node outcome (hnodes ▸ h.nodes)
    · rw [hrecorded, Context.record_eq]
      exact Context.shows_keep_aliases context' node outcome (haliases ▸ h.aliases)
    · exact (hother hs).shows h.nex

/-- The records of a run are those of its visits wherever it has come to. -/
theorem Reaches.ledger {executionId : String} {context : Context} (hm : engine.Modest)
    (h : Reaches engine graph executionId payload walk context) :
    engine.Ledger (startOf graph) payload walk context := by
  refine h.invariant (fun walk context => engine.Ledger (startOf graph) payload walk context)
    (ledger_opening engine graph executionId payload) ?_ ?_ ?_
  · intro walk scene node queue executor _ _ _ hg hledger
    refine Yields.mono ?_ (hm.yields_run hg (entered node scene))
    rintro outcome scene' ⟨hkept, hstart, hother⟩
    exact hledger.turnOf hkept hstart hother
  · intro walk context node queue text _ _ hledger
    exact ⟨hledger.order, hledger.nodes, hledger.aliases, hledger.nex⟩
  · intro walk context now hledger
    exact ⟨hledger.order, hledger.nodes, hledger.aliases, hledger.nex⟩

section Books

variable {executionId : String} {context : Context}

/-- At every point between the visits of a run its records are exact: the ids and the outcome under
each, the keys of labels, and the saved outputs. -/
theorem Reaches.exact_records (hm : engine.Modest) (hn : (graph.nodes.map (·.id)).Nodup)
    (hs : graph.start? = some start)
    (h : Reaches engine graph executionId payload walk context) :
    context.order = walk.executed ∧
    (∀ id, id ∈ context.nodes.keys ↔
      id = start.id ∨ ∃ v ∈ walk.visits, v.node.type ≠ .start ∧ v.node.id = id) ∧
    context.nodes.get? start.id = some (Context.startOutcome start payload) ∧
    (∀ v ∈ walk.visits, v.node.type ≠ .start → ∀ outcome,
      context.nodes.get? v.node.id = some outcome ↔
        Latest Visit.ById walk.visits v.node.id outcome) ∧
    (∀ key outcome, context.aliases.get? key = some outcome ↔
      Latest Visit.ByAlias (recordings start payload walk.visits) key outcome) ∧
    (∀ name, name ∈ context.nex.keys ↔
      ∃ v ∈ recordings start payload walk.visits, ∃ saved, engine.Saves v name saved) ∧
    ∀ name saved, context.nex.get? name = some saved ↔
      Latest engine.Saves (recordings start payload walk.visits) name saved := by
  have hstart : startOf graph = start := by rw [startOf, hs]; rfl
  have hledger : engine.Ledger start payload walk context := hstart ▸ h.ledger hm
  have hwithin := h.reachable.within hs
  have htype : start.type = .start := hstart ▸ type_startOf graph
  -- A node with the id of another one is that node, so an id has one type.
  have hunique : ∀ a ∈ graph.nodes, ∀ b ∈ graph.nodes, a.id = b.id → a = b :=
    fun a ha b hb hid => List.inj_on_of_nodup_map hn ha hb hid
  have hmem : start ∈ graph.nodes := List.mem_of_find?_eq_some hs
  have hother : ∀ v ∈ walk.visits, v.node.type ≠ .start → start.id ≠ v.node.id := by
    intro v hv ht hid
    exact ht (hunique start hmem v.node (hwithin.visited v hv) hid ▸ htype)
  refine ⟨hledger.order, fun id => ?_, ?_, fun v hv ht outcome => ?_, hledger.aliases,
    fun name => hledger.nex.mem_keys_iff, hledger.nex⟩
  · rw [hledger.nodes.mem_keys_iff]
    simpa [recordings, Visit.ById, and_assoc] using or_congr_left eq_comm
  · refine (hledger.nodes _ _).mpr ⟨[], _, _, rfl, ⟨rfl, rfl⟩, ?_⟩
    rintro v hv outcome ⟨hid, -⟩
    obtain ⟨hv, ht⟩ := List.mem_filter.mp hv
    exact hother v hv (by simpa using ht) hid.symm
  · rw [hledger.nodes, recordings, latest_cons fun _ h => hother v hv ht h.1]
    refine latest_filter _ fun w hw hp other hby => ?_
    have hwt : w.node.type = .start := by simpa using hp
    exact ht (hunique _ (hwithin.visited w hw) _ (hwithin.visited v hv) hby.1 ▸ hwt)

end Books

end Run

theorem plain_modest : plain.Modest := fun entry he => Or.inl (plain_standard entry he)

end Engine

namespace Noted

def start : Node := ⟨"begin", .start, "Start", [("saveOutputAs", .text "in")], []⟩

def flow : FlowGraph := .plain [start, .plainEnd] [("begin", "done", .always)]

def payload : Entries Value := [("n", .int 1)]

/-- The payload is recorded and saved, and so is the outcome of the other node. -/
theorem noted_records :
    ∃ passage, ((Engine.plain.follow flow "run" payload).served Request.answer .outside ()).1.1 =
        .ok passage ∧
      passage.context.nodes.get? "begin" = some (Context.startOutcome start payload) ∧
      passage.context.nodes.get? "done" = some (Outcome.plain .plainEnd .success []) ∧
      passage.context.nex.get? "in" = some (.object [("body", .object payload)]) := by
  obtain ⟨passage, hp, hvisits⟩ : ∃ passage,
      ((Engine.plain.follow flow "run" payload).served Request.answer .outside ()).1.1 = .ok passage ∧
        passage.walk.visits = [⟨start, Outcome.ofStatus start .success⟩,
          ⟨.plainEnd, Outcome.plain .plainEnd .success []⟩] := ⟨_, rfl, rfl⟩
  have hreaches := Engine.follow_reaches.served Request.answer () passage hp
  obtain ⟨-, -, hstart, hnodes, -, -, hnex⟩ :=
    hreaches.exact_records Engine.plain_modest (by decide) rfl
  rw [hvisits] at hnodes hnex
  refine ⟨passage, hp, hstart, ?_, ?_⟩
  · have hdone := hnodes ⟨.plainEnd, Outcome.plain .plainEnd .success []⟩ (by simp) (by decide)
    exact (hdone _).mpr ⟨[_], _, [], rfl, ⟨rfl, rfl⟩, by simp⟩
  · refine (hnex _ _).mpr ⟨[], _, _, rfl, .output (by decide) (by decide) rfl (by decide), ?_⟩
    intro later hm other h
    cases List.mem_singleton.mp hm
    cases h.filter_saveName?

end Noted

end FlowEngine
