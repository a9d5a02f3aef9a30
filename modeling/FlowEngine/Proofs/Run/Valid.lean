import FlowEngine.Proofs.Flow.Edges
import FlowEngine.Proofs.Reference.Resolvable
import FlowEngine.Proofs.Run.Calls
import FlowEngine.Proofs.Step.LoopState
import FlowEngine.Proofs.Step.Plain

/-!
# Runs of flows in which the check finds nothing

Where the check finds nothing, a run meets none of the defects that it looks for, whatever executors
do: each node that has its turn has an executor and is the one its id stands for, each edge that is
activated is followed, and each loop has a way back.
-/

namespace FlowEngine

open Doing

namespace Step.Loop

variable {node : Node} {scene : Scene}

theorem take_toList_append {a b : String} {c c' : Char} (h : a.toList.take 2 = [c, c']) :
    (a ++ b).toList.take 2 = [c, c'] := by
  have hl : 2 ≤ a.toList.length := by
    have hlength := congrArg List.length h
    rw [List.length_take] at hlength
    exact min_eq_left_iff.mp hlength
  rw [String.toList_append, List.take_append_of_le_length hl, h]

theorem take_noWayBackText (node : Node) : (noWayBackText node).toList.take 2 = ['L', 'O'] := by
  unfold noWayBackText
  iterate 3 apply take_toList_append
  decide

def Other (text : String) : Prop := ∀ node, text ≠ noWayBackText node

theorem other_of_take {text : String} (h : text.toList.take 2 ≠ ['L', 'O']) : Other text := by
  rintro node rfl
  exact h (take_noWayBackText node)

theorem other_usedUpText (node : Node) (most : Int) : Other (usedUpText node most) := by
  have htake : (usedUpText node most).toList.take 2 = ['L', 'o'] := by
    unfold usedUpText
    iterate 4 apply take_toList_append
    decide
  apply other_of_take
  rw [htake]
  decide

theorem other_message {fault : Fault} (h : fault.OfSize) : Other fault.message := by
  cases h with
  | integer => exact other_of_take (by decide)
  | @digits count hc =>
    have htake : (Fault.tooManyDigits count).text.toList.take 2 = ['E', 'x'] := by
      unfold Fault.text
      iterate 2 apply take_toList_append
      decide
    have hsome : (Fault.tooManyDigits count).text.isEmpty = false := by
      rw [Bool.eq_false_iff]
      intro he
      rw [String.isEmpty_iff.mp he] at htake
      exact absurd htake (by decide)
    apply other_of_take
    rw [Fault.message, hsome, if_neg Bool.false_ne_true, htake]
    decide

theorem other_unprintable : Other Fault.unprintable.message :=
  other_of_take (by decide +kernel)

theorem ofSize_bound {setting : Value} {fault : Fault} (h : bound setting = .error fault) :
    fault.OfSize := by
  rcases Value.asDouble_cases setting with ⟨-, d, hd⟩ | ⟨-, hd⟩
  · simp only [bound, hd, Bind.bind, Except.bind] at h
    split at h <;> cases h
  · simp only [bound, hd, Bind.bind, Except.bind] at h
    cases h
    exact .integer

theorem ofSize_operand {scope : Scope} {text : String} {fault : Fault}
    (h : operand scope text = .error fault) : fault.OfSize := by
  unfold operand at h
  split at h
  · cases hp : scope.path text with
    | ok v => simp [hp, Except.map] at h
    | error fault' =>
      simp only [hp, Except.map, Except.error.injEq] at h
      exact h ▸ (Scope.hinges_path scope text).ofSize hp
  · cases h

theorem ofSize_resolvedHolds {scope : Scope} {resolved : String} {fault : Fault}
    (h : resolvedHolds scope resolved = .error fault) : fault.OfSize := by
  unfold resolvedHolds at h
  split at h
  · cases ho : operand scope resolved with
    | ok text => simp [ho, Except.map] at h
    | error fault' =>
      simp only [ho, Except.map, Except.error.injEq] at h
      exact h ▸ ofSize_operand ho
  · rename_i left sign right _
    cases hl : operand scope left with
    | error fault' =>
      simp only [hl, Bind.bind, Except.bind, Except.error.injEq] at h
      exact h ▸ ofSize_operand hl
    | ok a =>
      cases hr : operand scope right with
      | error fault' =>
        simp only [hl, hr, Bind.bind, Except.bind, Except.error.injEq] at h
        exact h ▸ ofSize_operand hr
      | ok b =>
        simp only [hl, hr, Bind.bind, Except.bind] at h
        cases h

theorem ends_holds (state : LoopState) :
    (holds node state).Ends scene (fun _ _ => True) Fault.OfSize := by
  refine ends_bind.mpr (Work.ensures_context.mpr (ends_bind.mpr (Work.ensures_resolve.mpr ?_)))
  split
  · dsimp only
    rw [Doing.Ends, ensures_ofExcept]
    split
    · trivial
    · rename_i h
      exact ofSize_resolvedHolds h
  · rename_i h
    exact (Scope.hinges_resolve _ _).ofSize h

/-- A loop with a way back may fail, but it never tells that it has none. -/
theorem ends_visit : (visit node).Ends scene
    (fun outcome _ => ∀ text, outcome.errorMessage = some text → Other text)
    fun fault => Other fault.message := by
  refine ends_bind.mpr (ensures_ofExcept.mpr ?_)
  split
  · rename_i most hb
    refine ends_bind.mpr (Work.ensures_context.mpr (ends_bind.mpr (Work.ensures_change.mpr ?_)))
    refine ensures_ite.mpr ?_
    split
    · refine ends_bind.mpr (Work.ensures_change.mpr ?_)
      rintro _ ⟨⟩
      exact other_usedUpText node most
    · refine ends_bind.mpr (Work.ensures_change.mpr (ends_bind.mpr
        (Ensures.mono ?_ (ends_holds _))))
      rintro (fault | goes) scene h
      · exact other_message h
      refine ensures_ite.mpr ?_
      split
      · refine ends_bind.mpr (Work.ensures_change.mpr (ends_bind.mpr (Work.ensures_note.mpr ?_)))
        rintro _ ⟨⟩
      · refine ensures_leave (fun fault hn => ?_) fun nex _ => ?_
        · rw [Node.eq_unprintable_of_saveName hn]
          exact other_unprintable
        · rintro _ ⟨⟩
  · rename_i fault hb
    exact other_message (ofSize_bound hb)

theorem ensures_execute_other (hw : scene.context.loopEdges.get? node.id = some true) :
    (execute node).Ensures scene fun result _ =>
      ∀ text, (Attempt.outcomeOf node result).errorMessage = some text → Other text := by
  unfold execute
  refine ensures_bind.mpr (Work.ensures_context.mpr ?_)
  dsimp only
  rw [hw]
  refine Ensures.mono ?_ ends_visit
  rintro (fault | outcome) scene' h text ht
  · cases ht
    exact h
  · exact h text ht

end Step.Loop

/-- Loops are run by the executor that comes with the engine, and the others do not write which loops
have a way back. -/
def Engine.MindsLoops (engine : Engine) : Prop :=
  ∀ entry ∈ engine.registry.entries,
    Step.Standard entry ∨ entry.1 ≠ .loop ∧ ∀ node, Work.Keeps Context.loopEdges (entry.2 node)

/-- The node that its id stands for, or the start node of a flow that has none. -/
def FlowGraph.Meant (graph : FlowGraph) (node : Node) : Prop :=
  graph.node? node.id = some node ∨ graph.start? = none ∧ node = .defaultStart

theorem Context.apart_loopEdges : Context.Apart Context.loopEdges :=
  ⟨fun _ _ _ => rfl, fun _ _ _ => rfl, fun _ _ _ => rfl, fun _ _ => rfl⟩

theorem FlowGraph.Valid.meant {graph : FlowGraph} {types : List NodeType} {node : Node}
    (h : graph.Valid types) (ha : graph.Addressed node) : graph.Meant node := by
  rcases ha with rfl | ht
  · unfold Engine.startOf
    cases hs : graph.start? with
    | none => exact Or.inr ⟨hs, rfl⟩
    | some start => exact Or.inl (node?_of_mem h.ids (List.mem_of_find?_eq_some hs))
  · exact Or.inl (node?_of_mem h.ids (target?_eq_some ht).1)

namespace Engine

variable {engine : Engine} {graph : FlowGraph} {types : List NodeType} {executionId : String}
  {payload : Entries Value} {place : Place}

theorem MindsLoops.keeps (h : engine.MindsLoops) : engine.Keeps Context.loopEdges := by
  intro entry he node
  rcases h entry he with ⟨settings, connectors, launcher, hx⟩ | ⟨-, hk⟩
  · exact Step.keeps_executor Context.apart_loopEdges node settings connectors launcher hx
  · exact hk node

theorem MindsLoops.executor (h : engine.MindsLoops) {id : Option String} {executor : Executor}
    (hg : engine.registry.get .loop id = .ok executor) : executor = Step.Loop.execute := by
  rcases h _ (Registry.mem_of_get hg) with ⟨settings, connectors, launcher, hx⟩ | ⟨hn, -⟩
  · exact (Option.some.inj hx).symm
  · exact absurd rfl hn

theorem supports_of_valid (hv : graph.Valid types) (hstart : .start ∈ types)
    (hs : ∀ type, engine.registry.supports type = true ↔ type ∈ types) : engine.Supports graph :=
  ⟨(hs .start).mpr hstart, fun node hn => (hs node.type).mpr (hv.supported node hn)⟩

theorem Supports.ensures_follow (hs : engine.Supports graph) :
    (engine.follow graph executionId payload).Ensures place fun result _ =>
      ∀ type node, result ≠ .error (.noExecutor type node) := by
  cases hl : Limit.least ">=" (engine.limit graph) with
  | error fault =>
    refine Engine.ensures_follow.mpr fun now => ensures_perform.mpr ?_
    rw [hl]
    cases hn : (startOf graph).saveName with
    | error fault' =>
      rintro type node ⟨⟩
      cases Node.eq_unprintable_of_saveName hn
    | ok name =>
      rintro type node ⟨⟩
      revert hl
      unfold Limit.least
      split <;> rintro ⟨⟩
  | ok most =>
    refine Ensures.mono ?_ (ends_follow hl (fun _ walk _ => walk.Reachable graph)
      RetryPolicy.Illegible ?_ (fun _ => .refl) ?_ ?_ ?_)
    · rintro (fault | passage) place h type node he
      · cases he
        cases h
      · cases he
    · exact fun fault hn => Node.eq_unprintable_of_saveName hn ▸ .unprintable
    · rintro left node queue ⟨_, visits, failed, _⟩ scene rfl rfl hr
      obtain ⟨executor, hg⟩ :=
        Registry.exists_get ((hr.known node List.mem_cons_self).supports hs) (some node.id)
      refine ends_visit ?_
      rw [hg]
      refine Ensures.mono ?_ (Attempt.ends_run executor node _)
      rintro (fault | outcome) scene h
      · exact h.1
      · cases hn : recordable node with
        | error fault =>
          have hbreaks : Breaks engine graph fault := breaks_of_recordable ⟨queue, failed, hr⟩ hn
          exact hbreaks.illegible
        | ok => exact hr.tail (Turn.after_step graph node outcome queue visits failed _)
    · rintro node queue ⟨_, visits, failed, _⟩ context rfl rfl hr
      exact hr.tail (.overflow node queue visits failed)
    · intro node queue walk context _ _ _ fault hs
      exact Value.eq_unprintable_of_shown hs ▸ .unprintable

theorem loopEdges_turnOf (graph : FlowGraph) (node : Node) (outcome : Outcome) (walk : Walk)
    (context : Context) :
    (turnOf graph node outcome walk context).context.loopEdges = context.loopEdges := by
  obtain ⟨nodes, aliases, nex, hr, -⟩ := recorded_eq node outcome context
  obtain ⟨message, ha⟩ := Turn.after_context graph node outcome walk (recorded node outcome context)
  rw [turnOf, ha, hr]

def WaysBack (graph : FlowGraph) (context : Context) : Prop :=
  ∀ node ∈ graph.nodes, node.type = .loop → context.loopEdges.get? node.id = some true

theorem WaysBack.congr {context context' : Context} (h : WaysBack graph context)
    (he : context'.loopEdges = context.loopEdges) : WaysBack graph context' := by
  intro node hn hl
  rw [he]
  exact h node hn hl

theorem waysBack_opening (hv : graph.Valid types) (now : Instant) :
    WaysBack graph (opening graph executionId payload now) := by
  intro node hn hl
  rw [(loops_opening executionId payload now hn hl).1, hv.wayBack node hn hl]

theorem yields_run_other {node : Node} {scene : Scene}
    (hw : scene.context.loopEdges.get? node.id = some true) :
    (Attempt.run Step.Loop.execute node).Yields scene fun outcome scene' =>
      scene'.context.loopEdges = scene.context.loopEdges ∧
        ∀ text, outcome.errorMessage = some text → Step.Loop.Other text := by
  -- Related are the edges before and after; what an outcome tells hangs on those before it.
  refine Yields.mono ?_ (Attempt.yields_run (fun before outcome after =>
    after.loopEdges = before.loopEdges ∧ (before.loopEdges.get? node.id = some true →
      ∀ text, outcome.errorMessage = some text → Step.Loop.Other text)) ?_ ?_ ?_ scene)
  · rintro outcome scene' ⟨he, ht⟩
    exact ⟨he, ht hw⟩
  · intro scene
    by_cases hw : scene.context.loopEdges.get? node.id = some true
    · refine Ensures.mono ?_ (Ensures.and
        ((Step.Loop.keeps_execute Context.apart_loopEdges node).same scene)
        (Step.Loop.ensures_execute_other hw))
      exact fun result scene' h => ⟨h.1, fun _ => h.2⟩
    · refine Ensures.mono ?_ ((Step.Loop.keeps_execute Context.apart_loopEdges node).same scene)
      exact fun result scene' h => ⟨h, fun hw' => absurd hw' hw⟩
  · rintro c o c' o' c'' ⟨he, -⟩ - ⟨he', ht'⟩
    exact ⟨he'.trans he, fun hw => ht' (he ▸ hw)⟩
  · rintro c o c' text ⟨he, ht⟩ -
    exact ⟨he, ht⟩

/-- All the way through a run its loops are known to have a way back, and none tells otherwise. -/
theorem Reaches.waysBack {walk : Walk} {context : Context} (hv : graph.Valid types)
    (hm : engine.MindsLoops) (h : Reaches engine graph executionId payload walk context) :
    WaysBack graph context ∧ ∀ v ∈ walk.visits, v.node.type = .loop →
      ∀ text, v.outcome.errorMessage = some text → Step.Loop.Other text := by
  refine h.invariant (fun walk context => WaysBack graph context ∧ ∀ v ∈ walk.visits,
    v.node.type = .loop → ∀ text, v.outcome.errorMessage = some text → Step.Loop.Other text)
    ?_ ?_ ?_ ?_
  · exact fun now => ⟨waysBack_opening hv now, by simp [Walk.starting]⟩
  · rintro walk scene node queue executor hr he hq hg ⟨hw, hvisits⟩
    have hknown : graph.Known node := hr.reachable.known node (hq ▸ List.mem_cons_self)
    have hrun : (Attempt.run executor node).Yields (entered node scene) fun outcome scene' =>
        scene'.context.loopEdges = scene.context.loopEdges ∧ (node.type = .loop →
          ∀ text, outcome.errorMessage = some text → Step.Loop.Other text) := by
      by_cases hl : node.type = .loop
      · have hn : node ∈ graph.nodes := by
          rcases hknown with hn | rfl
          · exact hn
          · cases hl
        obtain rfl := hm.executor (hl ▸ hg)
        refine Yields.mono ?_ (@yields_run_other node (entered node scene) (hw node hn hl))
        exact fun outcome scene' h => ⟨h.1, fun _ => h.2⟩
      · refine Ensures.mono ?_ ((Attempt.keeps_run (hm.keeps.of_get hg) fun _ _ => rfl).same _)
        exact fun result scene' h outcome _ => ⟨h, fun hl' => absurd hl' hl⟩
    refine hrun.mono ?_
    rintro outcome scene' ⟨hedges, htold⟩
    refine ⟨hw.congr ((loopEdges_turnOf _ _ _ _ _).trans hedges), ?_⟩
    rw [turnOf, Turn.after_visits]
    intro v hmem
    rcases List.mem_append.mp hmem with hmem | hmem
    · exact hvisits v hmem
    · rw [List.mem_singleton.mp hmem]
      exact htold
  · exact fun walk context node queue text _ _ h => ⟨h.1.congr rfl, h.2⟩
  · exact fun walk context now h => ⟨h.1.congr rfl, h.2⟩

theorem Arises.waysBack {context : Context} (hv : graph.Valid types) (hm : engine.MindsLoops)
    (h : Arises engine graph executionId payload context) : WaysBack graph context := by
  refine h.invariant (WaysBack graph) (fun walk context hr => (hr.waysBack hv hm).1) ?_ ?_
  · exact fun context id hw => hw.congr rfl
  · intro node executor scene hg hw
    exact Ensures.mono (fun _ _ he => hw.congr he) ((hm.keeps.of_get hg).same scene)

/-- A run of a flow in which the check finds nothing, by an engine with executors for the types that
the check was told of. Whatever executors do, none is missed, all nodes that have their turn are
meant by their ids, and all edges that an outcome activates are followed. While executors leave to
the engine which loops have a way back, no loop ends the run for want of one. -/
theorem follow_structural (engine : Engine) (graph : FlowGraph) (types : List NodeType)
    (executionId : String) (payload : Entries Value) (place : Place) (hstart : .start ∈ types)
    (hclean : graph.problems (some types) = [])
    (hsupports : ∀ type, engine.registry.supports type = true ↔ type ∈ types) :
    ((engine.follow graph executionId payload).Ensures place fun result _ =>
      (∀ type node, result ≠ .error (.noExecutor type node)) ∧
        ∀ passage, result = .ok passage →
          Reaches engine graph executionId payload passage.walk passage.context) ∧
    (∀ walk context, Reaches engine graph executionId payload walk context →
      (∀ node ∈ walk.queue, graph.Meant node ∧ engine.registry.supports node.type = true) ∧
      (∀ v ∈ walk.visits, graph.Meant v.node ∧
        (graph.next v.node.id v.outcome.status).map (·.id) =
          (graph.activated v.node.id v.outcome.status).map (·.target) ∧
        graph.nextWarnings v.node.id v.outcome.status = [])) ∧
    (engine.MindsLoops →
      (∀ context, Arises engine graph executionId payload context →
        ∀ node ∈ graph.nodes, node.type = .loop → context.loopEdges.get? node.id = some true) ∧
      ∀ walk context, Reaches engine graph executionId payload walk context →
        ∀ v ∈ walk.visits, v.node.type = .loop →
          ∀ node, v.outcome.errorMessage ≠ some (Step.Loop.noWayBackText node)) := by
  have hv : graph.Valid types := FlowGraph.problems_eq_nil_iff.mp hclean
  have hs : engine.Supports graph := supports_of_valid hv hstart hsupports
  refine ⟨hs.ensures_follow.and follow_reaches, ?_, ?_⟩
  · intro walk context hr
    constructor
    · intro node hn
      exact ⟨hv.meant (hr.reachable.addressed node hn),
        (hr.reachable.known node hn).supports hs⟩
    · intro v hvisit
      exact ⟨hv.meant (hr.reachable.visited_addressed v hvisit), hv.ids_next _ _,
        hv.nextWarnings_eq_nil _ _⟩
  · intro hm
    refine ⟨fun context ha => ha.waysBack hv hm, ?_⟩
    intro walk context hr v hvisit hl node ht
    exact (hr.waysBack hv hm).2 v hvisit hl _ ht node rfl

end Engine

namespace Structured

def loop : Node :=
  ⟨"loop", .loop, "", [("condition", .text "loop.index < 2"), ("maxIterations", .int 5)], []⟩

def flow : FlowGraph :=
  .plain [.plainStart, .plainMapper "body" "1", loop, .plainEnd]
    [("start", "body", .always), ("body", "loop", .always), ("loop", "body", .continuing),
      ("loop", "done", .success)]

def types : List NodeType := [.start, .mapper, .loop, .success]

theorem supports_iff (type : NodeType) :
    Engine.plain.registry.supports type = true ↔ type ∈ types := by
  cases type <;> decide

theorem clean : flow.problems (some types) = [] := by decide

/-- Its run misses no executor, and its loop is known to have a way back at each call. -/
theorem follow_clean :
    ((Engine.plain.follow flow "run" []).Ensures .outside fun result _ =>
      ∀ type node, result ≠ .error (.noExecutor type node)) ∧
    ∀ context, Engine.Arises .plain flow "run" [] context →
      context.loopEdges.get? "loop" = some true := by
  have h := Engine.follow_structural .plain flow types "run" [] .outside (by decide) clean
    supports_iff
  refine ⟨Ensures.mono (fun _ _ hr => hr.1) h.1, fun context ha => ?_⟩
  have hminds : Engine.plain.MindsLoops := fun entry he => Or.inl (Engine.plain_standard entry he)
  exact (h.2.2 hminds).1 context ha loop (by decide) rfl

end Structured

end FlowEngine
