import FlowEngine.Proofs.Run.Walk
import FlowEngine.Proofs.Work.Keeps

/-!
# From work to walks

A run is work, but the way it goes depends on it only through the outcomes of its nodes. The rules
here take a postcondition through a visit, through the walk and through a whole run, so that what is
said of runs elsewhere speaks of walks and contexts alone.
-/

namespace FlowEngine.Engine

open Doing

variable {engine : Engine} {graph : FlowGraph} {node : Node} {walk : Walk} {scene : Scene}

/-- The scene when a node has its turn. -/
def entered (node : Node) (scene : Scene) : Scene where
  context := { scene.context with currentNode := some node.id }
  place := { scene.place with trace := scene.place.trace.put "node_id" (.text node.id) }

def recorded (node : Node) (outcome : Outcome) (context : Context) : Context :=
  if node.type == .start then context else context.record node outcome

/-- What has to be read before an outcome is recorded. That of a start node is there already. -/
def recordable (node : Node) : Except Fault Unit :=
  if node.type == .start then .ok () else node.saveName.map fun _ => ()

theorem recordable_of_saveName {name : Option String} (h : node.saveName = .ok name) :
    recordable node = .ok () := by
  rw [recordable, h]
  exact ite_self _

theorem exists_saveName_of_recordable (hs : node.type ≠ .start) (h : recordable node = .ok ()) :
    ∃ name, node.saveName = .ok name := by
  rw [recordable, beq_eq_false_iff_ne.mpr hs, if_neg Bool.false_ne_true] at h
  cases hn : node.saveName with
  | ok name => exact ⟨name, rfl⟩
  | error fault =>
    rw [hn] at h
    cases h

def turnOf (graph : FlowGraph) (node : Node) (outcome : Outcome) (walk : Walk)
    (context : Context) : Turn :=
  Turn.after graph node outcome walk (recorded node outcome context)

theorem ensures_enter {post : Except Fault Unit → Scene → Prop} :
    (enter node).Ensures scene post ↔ post (.ok ()) (entered node scene) := Iff.rfl

theorem ensures_keepOutcome {outcome : Outcome} {post : Except Fault Unit → Scene → Prop} :
    (keepOutcome node outcome).Ensures scene post ↔
      match recordable node with
      | .error fault => post (.error fault) scene
      | .ok () => post (.ok ()) { scene with context := recorded node outcome scene.context } := by
  unfold keepOutcome recordable recorded
  split
  · rfl
  · simp only [ensures_bind, ensures_ofExcept]
    cases node.saveName with
    | error fault => rfl
    | ok name => simp [Except.map]

/-- A visit runs the executor of its node; all else about it is settled by the outcome. -/
theorem ensures_visit {post : Except Fault Walk → Scene → Prop} :
    (visit engine graph node walk).Ensures scene post ↔
      match engine.registry.get node.type (some node.id) with
      | .error fault => post (.error fault) scene
      | .ok executor =>
        (Attempt.run executor node).Ensures scene fun result scene =>
          match result with
          | .error fault => post (.error fault) scene
          | .ok outcome =>
            match recordable node with
            | .error fault => post (.error fault) scene
            | .ok () =>
              let turn := turnOf graph node outcome walk scene.context
              post (.ok turn.walk) { scene with context := turn.context } := by
  unfold visit
  simp only [ensures_bind, Work.ensures_context, Work.ensures_note, Work.ensures_emitFor,
    ensures_ofExcept, ensures_keepOutcome, Work.ensures_change, Work.ensures_noteAll,
    ensures_pure]
  cases engine.registry.get node.type (some node.id) with
  | error fault => rfl
  | ok executor =>
    refine Dialogue.always_iff ?_
    rintro ⟨fault | outcome, scene⟩
    · rfl
    · cases recordable node <;> rfl

theorem ends_visit {post : Walk → Scene → Prop} {broken : Fault → Prop}
    (h : match engine.registry.get node.type (some node.id) with
      | .error fault => broken fault
      | .ok executor =>
        (Attempt.run executor node).Ends scene (fun outcome scene =>
          match recordable node with
          | .error fault => broken fault
          | .ok () =>
            let turn := turnOf graph node outcome walk scene.context
            post turn.walk { scene with context := turn.context }) broken) :
    (visit engine graph node walk).Ends scene post broken := by
  refine ensures_visit.mpr ?_
  cases hg : engine.registry.get node.type (some node.id) with
  | error fault => simpa only [hg] using h
  | ok executor =>
    simp only [hg] at h
    refine Ensures.mono ?_ h
    rintro (fault | outcome) scene ho
    · exact ho
    · cases hr : recordable node <;> simpa only [hr] using ho

theorem yields_visit {post : Walk → Scene → Prop}
    (h : ∀ executor, engine.registry.get node.type (some node.id) = .ok executor →
      (Attempt.run executor node).Yields scene fun outcome scene =>
        let turn := turnOf graph node outcome walk scene.context
        post turn.walk { scene with context := turn.context }) :
    (visit engine graph node walk).Yields scene post := by
  have hends : (visit engine graph node walk).Ends scene post fun _ => True := by
    refine ends_visit ?_
    split
    · trivial
    · rename_i executor hg
      refine Ends.mono (fun outcome scene ho => ?_) (h executor hg).ends
      cases recordable node with
      | error fault => trivial
      | ok => exact ho
  exact hends.yields

theorem yields_visit_recordable :
    (visit engine graph node walk).Yields scene fun _ _ => recordable node = .ok () := by
  have hends : (visit engine graph node walk).Ends scene (fun _ _ => recordable node = .ok ())
      fun _ => True := by
    refine ends_visit ?_
    split
    · trivial
    · refine ensures_of_forall fun result scene' => ?_
      cases result with
      | error fault => trivial
      | ok outcome => cases hn : recordable node <;> trivial
  exact hends.yields

theorem ensures_overflow {limit : Value} {post : Except Fault Walk → Scene → Prop} :
    (overflow limit node walk).Ensures scene post ↔
      match limit.shown with
      | .error fault => post (.error fault) scene
      | .ok _ =>
        post (.ok { walk with failed := true, ending := some .overflow })
          { scene with context := scene.context.fail (overflowText limit node) } := by
  unfold overflow
  simp only [ensures_bind, ensures_ofExcept]
  cases limit.shown with
  | error fault => rfl
  | ok text => simp

theorem walkOn_over (engine : Engine) (graph : FlowGraph) (limit : Value) (left : Nat)
    (ho : walk.isOver = true) : walkOn engine graph limit left walk = pure walk := by
  unfold walkOn
  split
  · rfl
  · rfl
  · rename_i he hq
    rw [Walk.isOver, he, hq] at ho
    cases ho

/-- What holds at the start of a walk and is kept by each visit and by an overflow holds at its end,
where the walk is over. The number is how many nodes may still be visited. -/
theorem ends_walkOn {limit : Value} (inv : Nat → Walk → Scene → Prop) (broken : Fault → Prop)
    (visited : ∀ (left : Nat) (node : Node) (queue : List Node) (walk : Walk) (scene : Scene),
      walk.ending = none → walk.queue = node :: queue → inv (left + 1) walk scene →
      (visit engine graph node { walk with queue }).Ends (entered node scene) (inv left) broken)
    (overflowed : ∀ (node : Node) (queue : List Node) (walk : Walk) (scene : Scene),
      walk.ending = none → walk.queue = node :: queue → inv 0 walk scene →
      inv 0 { walk with queue, failed := true, ending := some .overflow }
        { entered node scene with
          context := (entered node scene).context.fail (overflowText limit node) })
    (untold : ∀ (node : Node) (queue : List Node) (walk : Walk) (scene : Scene),
      walk.ending = none → walk.queue = node :: queue → inv 0 walk scene →
      ∀ fault, limit.shown = .error fault → broken fault)
    (left : Nat) (hi : inv left walk scene) :
    (walkOn engine graph limit left walk).Ends scene
      (fun walk scene => (∃ left, inv left walk scene) ∧ walk.isOver = true) broken := by
  induction left generalizing walk scene with
  | zero =>
    unfold walkOn
    split
    · rename_i ending _ he
      exact ⟨⟨0, hi⟩, by simp [Walk.isOver, he]⟩
    · rename_i he hq
      exact ⟨⟨0, hi⟩, by simp [Walk.isOver, hq]⟩
    · rename_i node queue he hq
      refine ends_bind.mpr (ensures_enter.mpr (ensures_overflow.mpr ?_))
      cases hs : limit.shown with
      | error fault => exact untold node queue walk scene he hq hi fault hs
      | ok text => exact ⟨⟨0, overflowed node queue walk scene he hq hi⟩, rfl⟩
  | succ left ih =>
    unfold walkOn
    split
    · rename_i ending _ he
      exact ⟨⟨left + 1, hi⟩, by simp [Walk.isOver, he]⟩
    · rename_i he hq
      exact ⟨⟨left + 1, hi⟩, by simp [Walk.isOver, hq]⟩
    · rename_i node queue he hq
      refine ends_bind.mpr (ensures_enter.mpr (ends_bind.mpr ?_))
      exact Ends.mono (fun walk scene hw => ih hw) (visited left node queue walk scene he hq hi)

def closed (walk : Walk) (now : Instant) (context : Context) : Context :=
  { context with
    completedAt := some now
    status := if walk.failed then .failure else .success }

theorem ensures_conclude {post : Except Fault Unit → Scene → Prop} :
    (conclude walk).Ensures scene post ↔
      ∀ now, post (.ok ()) { scene with context := closed walk now scene.context } := by
  unfold conclude
  simp only [ensures_bind, Work.ensures_change, Work.ensures_context,
    Work.ensures_note]
  rfl

variable {executionId : String} {payload : Entries Value} {place : Place}

/-- A run opens its context, walks, and closes the context with what the walk tells. -/
theorem ensures_follow {post : Except Fault Passage → Place → Prop} :
    (engine.follow graph executionId payload).Ensures place post ↔
      ∀ now,
        let trace := place.trace.putAll
          [("flow_id", .text graph.id), ("execution_id", .text executionId)]
        (engine.perform graph).Ensures
          ⟨opening graph executionId payload now, { place with trace }⟩
          fun result scene => post (result.map fun walk => ⟨walk, scene.context⟩)
            { scene.place with trace := place.trace } :=
  forall_congr' fun _ => Dialogue.always_bind

theorem ensures_perform {post : Except Fault Walk → Scene → Prop} :
    (engine.perform graph).Ensures scene post ↔
      match (startOf graph).saveName, Limit.least ">=" (engine.limit graph) with
      | .error fault, _ => post (.error fault) scene
      | _, .error fault => post (.error fault) scene
      | .ok _, .ok most =>
        (walkOn engine graph (engine.limit graph) most (Walk.starting (startOf graph))).Ensures
          scene fun result scene =>
            match result with
            | .error fault => post (.error fault) scene
            | .ok walk =>
              ∀ now, post (.ok walk) { scene with context := closed walk now scene.context } := by
  unfold perform
  simp only [ensures_bind, Work.ensures_note, ensures_ofExcept, ensures_conclude, ensures_pure,
    ensures_ite, ite_self]
  cases (startOf graph).saveName with
  | error fault => rfl
  | ok name =>
    cases Limit.least ">=" (engine.limit graph) with
    | error fault => rfl
    | ok most =>
      refine Dialogue.always_iff ?_
      rintro ⟨fault | walk, scene⟩ <;> rfl

/-- What holds at the start of a run, is kept by each visit and an overflow, and is not touched by
the closing of the context holds of every run that ends. -/
theorem ends_follow {most : Nat} (hl : Limit.least ">=" (engine.limit graph) = .ok most)
    (inv : Nat → Walk → Context → Prop) (broken : Fault → Prop)
    (unnamed : ∀ fault, (startOf graph).saveName = .error fault → broken fault)
    (opened : ∀ now,
      inv most (Walk.starting (startOf graph)) (opening graph executionId payload now))
    (visited : ∀ (left : Nat) (node : Node) (queue : List Node) (walk : Walk) (scene : Scene),
      walk.ending = none → walk.queue = node :: queue → inv (left + 1) walk scene.context →
      (visit engine graph node { walk with queue }).Ends (entered node scene)
        (fun walk scene => inv left walk scene.context) broken)
    (overflowed : ∀ (node : Node) (queue : List Node) (walk : Walk) (context : Context),
      walk.ending = none → walk.queue = node :: queue → inv 0 walk context →
      inv 0 { walk with queue, failed := true, ending := some .overflow }
        ({ context with currentNode := some node.id }.fail
          (overflowText (engine.limit graph) node)))
    (untold : ∀ (node : Node) (queue : List Node) (walk : Walk) (context : Context),
      walk.ending = none → walk.queue = node :: queue → inv 0 walk context →
      ∀ fault, (engine.limit graph).shown = .error fault → broken fault) :
    (engine.follow graph executionId payload).Ends place (fun passage _ =>
      (∃ name, (startOf graph).saveName = .ok name) ∧
        ∃ left now context, inv left passage.walk context ∧ passage.walk.isOver = true ∧
          passage.context = closed passage.walk now context) broken := by
  refine ensures_follow.mpr fun now => ensures_perform.mpr ?_
  rw [hl]
  cases hn : (startOf graph).saveName with
  | error fault => exact unnamed fault hn
  | ok name =>
    refine Ensures.mono ?_ (ends_walkOn (fun left walk scene => inv left walk scene.context) broken
      visited (fun node queue walk scene => overflowed node queue walk scene.context)
      (fun node queue walk scene => untold node queue walk scene.context) most ?_)
    rotate_left
    · exact opened now
    rintro (fault | walk) scene h
    · exact h
    · obtain ⟨⟨left, hi⟩, ho⟩ := h
      exact fun now => ⟨⟨name, rfl⟩, left, now, scene.context, hi, ho, rfl⟩

theorem yields_follow_unordered {fault : Fault} {post : Passage → Place → Prop}
    (hl : Limit.least ">=" (engine.limit graph) = .error fault) :
    (engine.follow graph executionId payload).Yields place post := by
  refine ensures_follow.mpr fun now => ensures_perform.mpr ?_
  rw [hl]
  cases (startOf graph).saveName with
  | error fault => rintro _ ⟨⟩
  | ok name => rintro _ ⟨⟩

/-- The rule for runs that end, where neither the limit nor the number of visits matters. -/
theorem yields_follow (inv : Walk → Context → Prop)
    (opened : ∀ now, inv (Walk.starting (startOf graph)) (opening graph executionId payload now))
    (visited : ∀ (node : Node) (queue : List Node) (walk : Walk) (scene : Scene),
      walk.ending = none → walk.queue = node :: queue → inv walk scene.context →
      (visit engine graph node { walk with queue }).Yields (entered node scene)
        fun walk scene => inv walk scene.context)
    (overflowed : ∀ (node : Node) (queue : List Node) (walk : Walk) (context : Context) text,
      walk.ending = none → walk.queue = node :: queue → inv walk context →
      inv { walk with queue, failed := true, ending := some .overflow }
        ({ context with currentNode := some node.id }.fail text)) :
    (engine.follow graph executionId payload).Yields place fun passage _ =>
      ∃ now context, inv passage.walk context ∧ passage.walk.isOver = true ∧
        passage.context = closed passage.walk now context := by
  cases hl : Limit.least ">=" (engine.limit graph) with
  | error fault => exact yields_follow_unordered hl
  | ok most =>
    refine Yields.mono ?_ (ends_follow hl (fun _ => inv) (fun _ => True) (fun _ _ => trivial) opened
      (fun _ node queue walk scene he hq hi => (visited node queue walk scene he hq hi).ends)
      (fun node queue walk context => overflowed node queue walk context _)
      fun _ _ _ _ _ _ _ _ _ => trivial).yields
    rintro passage _ ⟨-, -, h⟩
    exact h

/-- Every run that ends has gone a walk that its graph allows, up to its end. -/
theorem follow_reachable :
    (engine.follow graph executionId payload).Yields place fun passage _ =>
      Walk.Reachable graph passage.walk ∧ passage.walk.isOver = true := by
  refine Yields.mono ?_ (yields_follow (fun walk _ => Walk.Reachable graph walk) ?_ ?_ ?_)
  · rintro passage _ ⟨now, context, hr, ho, -⟩
    exact ⟨hr, ho⟩
  · exact fun _ => Relation.ReflTransGen.refl
  · rintro node queue ⟨_, visits, failed, _⟩ scene rfl rfl hr
    refine yields_visit fun executor _ => ensures_of_forall ?_
    exact fun _ _ outcome _ => hr.tail (Turn.after_step graph node outcome queue visits failed _)
  · rintro node queue ⟨_, visits, failed, _⟩ context text rfl rfl hr
    exact hr.tail (.overflow node queue visits failed)

theorem follow_closed :
    (engine.follow graph executionId payload).Yields place fun passage _ =>
      ∃ now context, passage.context = closed passage.walk now context := by
  refine Yields.mono ?_ (yields_follow (fun _ _ => True) ?_ ?_ ?_)
  · rintro passage _ ⟨now, context, -, -, hc⟩
    exact ⟨now, context, hc⟩
  · exact fun _ => trivial
  · exact fun _ _ _ _ _ _ _ => ensures_of_forall fun _ _ _ _ => trivial
  · exact fun _ _ _ _ _ _ _ _ => trivial

theorem follow_status :
    (engine.follow graph executionId payload).Yields place fun passage _ =>
      passage.context.status = if passage.walk.failed then .failure else .success := by
  refine Yields.mono ?_ follow_closed
  rintro passage _ ⟨now, context, hc⟩
  rw [hc]
  rfl

theorem recorded_eq (node : Node) (outcome : Outcome) (context : Context) :
    ∃ nodes aliases nex, recorded node outcome context = { context with nodes, aliases, nex } ∧
      nodes = if node.type = .start then context.nodes else context.nodes.put node.id outcome := by
  unfold recorded Context.record
  by_cases hs : node.type = .start
  · simp only [hs, beq_self_eq_true, if_true]
    exact ⟨context.nodes, context.aliases, context.nex, rfl, rfl⟩
  · simp only [beq_eq_false_iff_ne.mpr hs, Bool.false_eq_true, if_false, if_neg hs]
    cases (Context.nameToSave? node).filter isSaveName with
    | none => exact ⟨_, _, context.nex, rfl, rfl⟩
    | some name => exact ⟨_, _, _, rfl, rfl⟩

theorem order_turnOf (walk : Walk) (outcome : Outcome) (context : Context) :
    (turnOf graph node outcome walk context).context.order = context.order ++ [node.id] := by
  obtain ⟨nodes, aliases, nex, hr, -⟩ := recorded_eq node outcome context
  obtain ⟨message, ha⟩ := Turn.after_context graph node outcome walk (recorded node outcome context)
  rw [turnOf, ha, hr]

theorem executed_turnOf (walk : Walk) (outcome : Outcome) (context : Context) :
    (turnOf graph node outcome walk context).walk.executed = walk.executed ++ [node.id] := by
  rw [turnOf, Walk.executed, Turn.after_visits]
  simp [Walk.executed]

theorem order_opening (graph : FlowGraph) (executionId : String) (payload : Entries Value)
    (now : Instant) : (opening graph executionId payload now).order = [] := by
  unfold opening Context.noteLoops Context.seed
  cases (startOf graph).saveName?.filter isSaveName <;> rfl

theorem loopStates_opening (graph : FlowGraph) (executionId : String) (payload : Entries Value)
    (now : Instant) : (opening graph executionId payload now).loopStates = [] := by
  unfold opening Context.noteLoops Context.seed
  cases (startOf graph).saveName?.filter isSaveName <;> rfl

theorem loops_opening (executionId : String) (payload : Entries Value) (now : Instant)
    (hn : node ∈ graph.nodes) (hl : node.type = .loop) :
    (opening graph executionId payload now).loopEdges.get? node.id =
        some (graph.hasContinueEdge node.id) ∧
      (opening graph executionId payload now).loopBodies.get? node.id =
        some (graph.loopBody node.id) := by
  have hm : node.id ∈ (graph.nodes.filter (·.type == .loop)).map (·.id) :=
    List.mem_map_of_mem (List.mem_filter.mpr ⟨hn, by simp [hl]⟩)
  exact ⟨Entries.get?_putAll_map _ _ hm, Entries.get?_putAll_map _ _ hm⟩

theorem follow_order :
    (engine.follow graph executionId payload).Yields place fun passage _ =>
      engine.Keeps Context.order → passage.context.order = passage.walk.executed := by
  by_cases hk : engine.Keeps Context.order
  · refine Yields.mono ?_
      (yields_follow (fun walk context => context.order = walk.executed) ?_ ?_ ?_)
    · rintro passage _ ⟨now, context, ho, -, hc⟩ -
      rw [hc]
      exact ho
    · exact fun now => order_opening graph executionId payload now
    · rintro node queue walk scene he hq ho
      refine yields_visit fun executor hg => ?_
      refine Ensures.mono ?_ ((Attempt.keeps_run (hk.of_get hg) fun _ _ => rfl).same _)
      rintro result scene' hs outcome -
      simp only [order_turnOf, executed_turnOf, hs]
      exact congrArg (· ++ [node.id]) ho
    · rintro node queue walk context text - - ho
      exact ho
  · exact ensures_of_forall fun _ _ passage _ h => absurd h hk

end FlowEngine.Engine
