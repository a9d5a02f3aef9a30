import FlowEngine.Proofs.Run.Passage

/-!
# Runs that come to an end

Rules for runs whose result has to be there: no part of them may end in a fault. A node is served
when its executor succeeds on every call and leaves the records of the run alone.
-/

namespace FlowEngine

open Doing

def Context.records (context : Context) :
    List String × Entries Outcome × Entries LoopState × Entries Bool × Entries (List String) :=
  (context.order, context.nodes, context.loopStates, context.loopEdges, context.loopBodies)

/-- Of the records, those of two contexts differ at most in an outcome that was recorded. -/
structure Context.Records (node : Node) (outcome : Outcome) (before after : Context) : Prop where
  order : after.order = before.order
  nodes : after.nodes =
    if node.type = .start then before.nodes else before.nodes.put node.id outcome
  loopStates : after.loopStates = before.loopStates
  loopEdges : after.loopEdges = before.loopEdges
  loopBodies : after.loopBodies = before.loopBodies

/-- Work that succeeds whenever it is done, and leaves the records of the run alone. -/
def Work.Succeeds (x : Work Outcome) : Prop :=
  ∀ scene, x.Gives scene fun outcome scene' =>
    outcome.status = .success ∧ outcome.halts = false ∧
      scene'.context.records = scene.context.records

/-- The engine has an executor for a node, which always succeeds, and what the node says of retries
and of saving can be read. -/
def Engine.Serves (engine : Engine) (node : Node) : Prop :=
  ∃ executor policy name, engine.registry.get node.type (some node.id) = .ok executor ∧
    RetryPolicy.ofConfig node.config = .ok policy ∧ node.saveName = .ok name ∧
      (executor node).Succeeds

namespace Turn

variable (graph : FlowGraph) {node next : Node} {outcome : Outcome} (visits : List Visit)
  (context : Context)

theorem after_eq_goOn (ht : node.type.isTerminal = false) (hh : outcome.halts = false)
    (walk : Walk) :
    after graph node outcome walk context =
      goOn graph node outcome { walk with visits := walk.visits ++ [⟨node, outcome⟩] }
        { context with order := context.order ++ [node.id] } := by
  simp [after, ht, hh]

section GoOn

variable {queue queue' : List Node} (ht : node.type.isTerminal = false) (hh : outcome.halts = false)
  (hs : outcome.status ≠ .failure)

include ht hh hs

theorem after_queued
    (he : Walk.enqueue (visits.map (·.node.id) ++ [node.id]) outcome.status queue
      (endsLast (graph.next node.id outcome.status)) = .ok queue') :
    (after graph node outcome ⟨queue, visits, false, none⟩ context).walk =
        ⟨queue', visits ++ [⟨node, outcome⟩], false, none⟩ ∧
      (after graph node outcome ⟨queue, visits, false, none⟩ context).context =
        { context with order := context.order ++ [node.id] } := by
  rw [after_eq_goOn graph context ht hh]
  simp [goOn, queueNext, Walk.executed, hs, he]

theorem after_refused
    (he : Walk.enqueue (visits.map (·.node.id) ++ [node.id]) outcome.status queue
      (endsLast (graph.next node.id outcome.status)) = .error next) :
    (after graph node outcome ⟨queue, visits, false, none⟩ context).walk =
        ⟨queue, visits ++ [⟨node, outcome⟩], true, some .cycle⟩ ∧
      (after graph node outcome ⟨queue, visits, false, none⟩ context).context =
        { context with order := context.order ++ [node.id] }.fail (cycleText node next) := by
  rw [after_eq_goOn graph context ht hh]
  simp [goOn, queueNext, Walk.executed, hs, he]

end GoOn

theorem enqueue_singleton (executed : List String) (status : Status) (next : Node) :
    Walk.enqueue executed status [] (endsLast [next]) =
      if Walk.mayEnter executed status next then .ok [next] else .error next := by
  cases h : next.type.isTerminal <;> simp [endsLast, h, Walk.enqueue]

/-- Where one node comes next and none waits, it alone waits afterwards. -/
theorem after_next (ht : node.type.isTerminal = false) (hh : outcome.halts = false)
    (hs : outcome.status ≠ .failure) (hn : graph.next node.id outcome.status = [next])
    (hm : Walk.mayEnter (visits.map (·.node.id) ++ [node.id]) outcome.status next = true) :
    (after graph node outcome ⟨[], visits, false, none⟩ context).walk =
        ⟨[next], visits ++ [⟨node, outcome⟩], false, none⟩ ∧
      (after graph node outcome ⟨[], visits, false, none⟩ context).context =
        { context with order := context.order ++ [node.id] } :=
  after_queued graph visits context ht hh hs (by rw [hn, enqueue_singleton, if_pos hm])

theorem after_end (ht : node.type.isTerminal = true) (hs : outcome.status = .success) :
    (after graph node outcome ⟨[], visits, false, none⟩ context).walk =
        ⟨[], visits ++ [⟨node, outcome⟩], false, some .terminal⟩ ∧
      (after graph node outcome ⟨[], visits, false, none⟩ context).context =
        { context with order := context.order ++ [node.id] } := by
  simp [after, ht, atEnd, hs]

end Turn

namespace Attempt

variable {executor : Executor} {node : Node} {scene : Scene} {policy : RetryPolicy}
  {post : Outcome → Scene → Prop}

theorem gives_once (h : (executor node).Gives scene post) :
    (once executor node).Gives scene post := by
  refine ensures_bind.mpr (ensures_attempt.mpr (Ensures.mono ?_ h))
  rintro _ scene' ⟨outcome, rfl, hp⟩
  exact ⟨outcome, rfl, hp⟩

theorem gives_series {left made : Nat} {delay : Double}
    (h : (executor node).Gives scene fun outcome scene' =>
      callsForMore outcome = false ∧ post outcome scene') :
    (series executor node policy left made delay).Gives scene post := by
  cases left with
  | zero => exact gives_once (Gives.mono (fun _ _ ho => ho.2) h)
  | succ left =>
    refine gives_bind.mpr (Gives.mono ?_ (gives_once h))
    rintro outcome scene' ⟨hc, ho⟩
    rw [hc]
    exact ⟨outcome, rfl, ho⟩

theorem gives_run (hp : RetryPolicy.ofConfig node.config = .ok policy)
    (h : (executor node).Gives scene fun outcome scene' =>
      callsForMore outcome = false ∧ post outcome scene') :
    (run executor node).Gives scene post := by
  refine gives_bind.mpr (Work.ensures_noteAll.mpr ⟨_, rfl, ?_⟩)
  exact gives_bind.mpr (ensures_ofExcept.mpr ⟨policy, hp, gives_series h⟩)

end Attempt

namespace Engine

variable {engine : Engine} {graph : FlowGraph} {node : Node} {walk : Walk} {scene : Scene}
  {limit : Value} {post : Walk → Scene → Prop}

theorem gives_visit {executor : Executor} {name : Option String}
    (hg : engine.registry.get node.type (some node.id) = .ok executor)
    (hn : node.saveName = .ok name)
    (h : (Attempt.run executor node).Gives scene fun outcome scene' =>
      let turn := turnOf graph node outcome walk scene'.context
      post turn.walk { scene' with context := turn.context }) :
    (visit engine graph node walk).Gives scene post := by
  refine ensures_visit.mpr ?_
  rw [hg]
  simp only [recordable_of_saveName hn]
  refine Ensures.mono ?_ h
  rintro _ scene' ⟨outcome, rfl, hp⟩
  exact ⟨_, rfl, hp⟩

theorem records_recorded {before context : Context} (node : Node) (outcome : Outcome)
    (h : context.records = before.records) :
    Context.Records node outcome before (recorded node outcome context) := by
  simp only [Context.records, Prod.mk.injEq] at h
  obtain ⟨horder, hnodes, hstates, hedges, hbodies⟩ := h
  obtain ⟨nodes, aliases, nex, hr, rfl⟩ := recorded_eq node outcome context
  rw [hr]
  exact ⟨horder, by simp only [hnodes], hstates, hedges, hbodies⟩

/-- A node that is served has a successful outcome, and only that is recorded. -/
theorem Serves.gives_visit (hs : engine.Serves node)
    (h : ∀ (outcome : Outcome) (context : Context) (place : Place), outcome.status = .success →
      outcome.halts = false → Context.Records node outcome scene.context context →
      let turn := Turn.after graph node outcome walk context
      post turn.walk ⟨turn.context, place⟩) :
    (visit engine graph node walk).Gives scene post := by
  obtain ⟨executor, policy, name, hg, hp, hn, hx⟩ := hs
  refine Engine.gives_visit hg hn (Attempt.gives_run hp (Gives.mono ?_ (hx scene)))
  rintro outcome scene' ⟨hstatus, hh, hr⟩
  refine ⟨?_, h outcome _ scene'.place hstatus hh (records_recorded node outcome hr)⟩
  rw [Attempt.callsForMore, hstatus]
  rfl

theorem gives_walkOn_over {left : Nat} (ho : walk.isOver = true) (h : post walk scene) :
    (walkOn engine graph limit left walk).Gives scene post := by
  rw [walkOn_over engine graph limit left ho]
  exact ⟨walk, rfl, h⟩

theorem gives_walkOn {left : Nat} {queue : List Node} {visits : List Visit} {failed : Bool}
    (h : (visit engine graph node ⟨queue, visits, failed, none⟩).Gives (entered node scene)
      fun walk scene => (walkOn engine graph limit left walk).Gives scene post) :
    (walkOn engine graph limit (left + 1) ⟨node :: queue, visits, failed, none⟩).Gives scene
      post := by
  unfold walkOn
  exact gives_bind.mpr (ensures_enter.mpr ⟨(), rfl, gives_bind.mpr h⟩)

section Serves

variable {left : Nat} {queue queue' : List Node} {visits : List Visit}

theorem Serves.gives_queued (hs : engine.Serves node) (ht : node.type.isTerminal = false)
    (he : Walk.enqueue (visits.map (·.node.id) ++ [node.id]) .success queue
      (endsLast (graph.next node.id .success)) = .ok queue')
    (h : ∀ (outcome : Outcome) (scene : Scene), outcome.status = .success →
      (walkOn engine graph limit left ⟨queue', visits ++ [⟨node, outcome⟩], false, none⟩).Gives
        scene post) :
    (walkOn engine graph limit (left + 1) ⟨node :: queue, visits, false, none⟩).Gives scene
      post := by
  refine gives_walkOn (hs.gives_visit fun outcome context place hstatus hh _ => ?_)
  have hw := (Turn.after_queued graph visits context ht hh (by simp [hstatus]) (hstatus ▸ he)).1
  simp only [hw]
  exact h outcome _ hstatus

theorem Serves.gives_end (hs : engine.Serves node) (ht : node.type.isTerminal = true)
    (h : ∀ (outcome : Outcome) (scene : Scene), outcome.status = .success →
      post ⟨queue, visits ++ [⟨node, outcome⟩], false, some .terminal⟩ scene) :
    (walkOn engine graph limit (left + 1) ⟨node :: queue, visits, false, none⟩).Gives scene
      post := by
  refine gives_walkOn (hs.gives_visit fun outcome context place hstatus _ _ => ?_)
  have hw : (Turn.after graph node outcome ⟨queue, visits, false, none⟩ context).walk =
      ⟨queue, visits ++ [⟨node, outcome⟩], false, some .terminal⟩ := by
    simp [Turn.after, ht, Turn.atEnd, hstatus]
  simp only [hw]
  exact gives_walkOn_over rfl (h outcome _ hstatus)

end Serves

theorem gives_follow {executionId : String} {payload : Entries Value} {place : Place} {most : Nat}
    {post : Passage → Prop} {name : Option String} (hn : (startOf graph).saveName = .ok name)
    (hl : Limit.least ">=" (engine.limit graph) = .ok most)
    (h : ∀ now trace, (walkOn engine graph (engine.limit graph) most
      (Walk.starting (startOf graph))).Gives
        ⟨opening graph executionId payload now, { place with trace }⟩
        fun walk scene => ∀ now, post ⟨walk, closed walk now scene.context⟩) :
    (engine.follow graph executionId payload).Gives place fun passage _ => post passage := by
  refine ensures_follow.mpr fun now => ensures_perform.mpr ?_
  rw [hn, hl]
  refine Ensures.mono ?_ (h now _)
  rintro _ scene ⟨walk, rfl, hp⟩ now
  exact ⟨_, rfl, hp now⟩

end Engine

end FlowEngine
