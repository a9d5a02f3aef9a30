import FlowEngine.Proofs.Run.Message
import FlowEngine.Proofs.Run.Retry
import FlowEngine.Proofs.Step.Plain

/-!
# The rest of a run

What is left of a run depends on the visit that comes next through the outcome of its attempts. When
they end by themselves, the run goes on from their last outcome; when a wait was cancelled, the run
is over.
-/

namespace FlowEngine

open Doing

namespace Engine

variable {engine : Engine} {graph : FlowGraph} {node : Node} {walk : Walk} {outcome : Outcome}
  {scene : Scene} {τ : Type}

def settle (graph : FlowGraph) (node : Node) (walk : Walk) (outcome : Outcome) : Work Walk := do
  keepOutcome node outcome
  let saved := (← Work.context).nex
  Work.emitFor node fun flow execution id =>
    Event.nodeCompleted flow execution id outcome.status.name saved
  let turn := Turn.after graph node outcome walk (← Work.context)
  Work.change fun _ => turn.context
  Work.noteAll turn.lines
  return turn.walk

theorem served_keepOutcome (serve : (r : Request) → τ → r.Reply × τ)
    (hn : recordable node = .ok ()) (outcome : Outcome) (scene : Scene) (t : τ) :
    ∃ t', Hears serve t t' ∧ (keepOutcome node outcome).served serve scene t =
      ((.ok (), { scene with context := recorded node outcome scene.context }), t') := by
  unfold recordable at hn
  unfold keepOutcome recorded
  cases hs : node.type == .start with
  | true => exact ⟨t, .nothing t, rfl⟩
  | false =>
    cases hname : node.saveName with
    | error fault => simp [hs, hname, Except.map] at hn
    | ok name =>
      obtain ⟨t', ht, htold⟩ := (Work.tells_noteAll (scene.context.recordWarnings node)).served_bind
        (f := fun _ => Work.change fun context => context.record node outcome) serve scene t
      exact ⟨t', ht, htold⟩

theorem served_settle_error (serve : (r : Request) → τ → r.Reply × τ) (graph : FlowGraph)
    {fault : Fault} (hn : recordable node = .error fault) (walk : Walk) (outcome : Outcome)
    (scene : Scene) (t : τ) :
    (settle graph node walk outcome).served serve scene t = ((.error fault, scene), t) := by
  unfold recordable at hn
  have hkeep : (keepOutcome node outcome).served serve scene t = ((.error fault, scene), t) := by
    unfold keepOutcome
    cases hs : node.type == .start with
    | true => simp [hs] at hn
    | false =>
      cases hname : node.saveName with
      | ok name => simp [hs, hname, Except.map] at hn
      | error fault' =>
        simp only [hs, hname, Except.map, Bool.false_eq_true, if_false, Except.error.injEq] at hn
        rw [← hn]
        rfl
  rw [settle, served_bind, hkeep]

theorem served_settle (serve : (r : Request) → τ → r.Reply × τ) (graph : FlowGraph)
    (hn : recordable node = .ok ()) (walk : Walk) (outcome : Outcome) (scene : Scene) (t : τ) :
    let turn := turnOf graph node outcome walk scene.context
    ∃ t', Hears serve t t' ∧ (settle graph node walk outcome).served serve scene t =
      ((.ok turn.walk, { scene with context := turn.context }), t') := by
  intro turn
  obtain ⟨t₁, ht₁, hkeep⟩ := served_keepOutcome serve hn outcome scene t
  obtain ⟨t₂, ht₂, hemit⟩ := (Work.tells_emitFor node fun flow execution id =>
    Event.nodeCompleted flow execution id outcome.status.name
      (recorded node outcome scene.context).nex).served_bind
    (f := fun _ => do
      let turn := Turn.after graph node outcome walk (← Work.context)
      Work.change fun _ => turn.context
      Work.noteAll turn.lines
      return turn.walk) serve { scene with context := recorded node outcome scene.context } t₁
  obtain ⟨t₃, ht₃, hlines⟩ := (Work.tells_noteAll turn.lines).served_bind
    (f := fun _ => pure turn.walk) serve { scene with context := turn.context } t₂
  refine ⟨t₃, (ht₁.trans ht₂).trans ht₃, ?_⟩
  rw [settle, served_bind, hkeep]
  exact hemit.trans hlines

/-- What a visit does once it has told that it begins. -/
def enact (engine : Engine) (graph : FlowGraph) (node : Node) (walk : Walk) : Work Walk := do
  let executor ← ofExcept (engine.registry.get node.type (some node.id))
  Attempt.run executor node >>= settle graph node walk

theorem visit_eq (engine : Engine) (graph : FlowGraph) (node : Node) (walk : Walk) :
    visit engine graph node walk = (do
      let context ← Work.context
      Work.note (Log.line .info Log.Logger.engine
        ("▶ Step " ++ toString (context.order.length + 1) ++ ": " ++ node.displayName ++ " (" ++
          node.type.name ++ ")"))
      Work.emitFor node Event.nodeStarted
      enact engine graph node walk) := rfl

theorem served_visit (serve : (r : Request) → τ → r.Reply × τ) (graph : FlowGraph) (walk : Walk)
    {executor : Executor} (hg : engine.registry.get node.type (some node.id) = .ok executor)
    (scene : Scene) (t : τ) :
    ∃ t', Hears serve t t' ∧ (visit engine graph node walk).served serve scene t =
      (Attempt.run executor node >>= settle graph node walk).served serve scene t' := by
  have henact : enact engine graph node walk =
      Attempt.run executor node >>= settle graph node walk := by
    rw [enact, hg]
    rfl
  rw [visit_eq, henact, served_bind]
  obtain ⟨t₁, ht₁, hnote⟩ := (Work.tells_note (Log.line .info Log.Logger.engine
    ("▶ Step " ++ toString (scene.context.order.length + 1) ++ ": " ++ node.displayName ++ " (" ++
      node.type.name ++ ")"))).served_bind
    (f := fun _ => do
      Work.emitFor node Event.nodeStarted
      Attempt.run executor node >>= settle graph node walk) serve scene t
  obtain ⟨t₂, ht₂, hemit⟩ := (Work.tells_emitFor node Event.nodeStarted).served_bind
    (f := fun _ => Attempt.run executor node >>= settle graph node walk) serve scene t₁
  exact ⟨t₂, ht₁.trans ht₂, hnote.trans hemit⟩

/-- What is left of a run that has come to a walk: the visits to come, and the end. -/
def rest (engine : Engine) (graph : FlowGraph) (limit : Value) (left : Nat) (walk : Walk) :
    Work Walk := do
  let walk ← walkOn engine graph limit left walk
  conclude walk
  return walk

/-- When a run begins, all of it is left. -/
theorem perform_eq (engine : Engine) (graph : FlowGraph) :
    engine.perform graph = (do
      if graph.start?.isNone then
        Work.note (Log.line .warning Log.Logger.engine
          ("Flow '" ++ graph.id ++ "' has no START node; using an empty default"))
      let _ ← ofExcept (startOf graph).saveName
      Work.note (Log.line .info Log.Logger.engine
        ("🚀 Starting flow '" ++ (if graph.name.isEmpty then graph.id else graph.name) ++ "'"))
      let most ← ofExcept (Limit.least ">=" (engine.limit graph))
      rest engine graph (engine.limit graph) most (Walk.starting (startOf graph))) := rfl

/-- A failure that halts the run ends the walk, and a message that is there stays. -/
theorem turnOf_halted (graph : FlowGraph) (node : Node) (walk : Walk) {context : Context}
    {text : String} (hs : outcome.status = .failure) (hh : outcome.halts = true)
    (hm : context.errorMessage = some text) :
    (turnOf graph node outcome walk context).walk.isOver = true ∧
      (turnOf graph node outcome walk context).walk.failed = true ∧
      (turnOf graph node outcome walk context).context.errorMessage = some text := by
  rw [← errorMessage_recorded node outcome context] at hm
  unfold turnOf Turn.after
  split
  · simp [Turn.atEnd, hs, Walk.isOver, Context.failUnlessFailed, hm]
  · simp [Turn.halt, Walk.isOver, Context.failUnlessFailed, hm]

theorem ensures_rest_over (engine : Engine) (graph : FlowGraph) (limit : Value) (left : Nat)
    (scene : Scene) (ho : walk.isOver = true) :
    (rest engine graph limit left walk).Ensures scene fun result scene' =>
      result = .ok walk ∧ ∃ now, scene'.context = closed walk now scene.context := by
  unfold rest
  rw [walkOn_over _ _ _ _ ho, pure_bind]
  exact ensures_bind.mpr (ensures_conclude.mpr fun now => ⟨rfl, now, rfl⟩)

theorem served_rest_halted (serve : (r : Request) → τ → r.Reply × τ) (engine : Engine)
    (graph : FlowGraph) (hn : recordable node = .ok ()) (walk : Walk) (outcome : Outcome)
    (scene : Scene) {text : String} (limit : Value) (left : Nat) (hs : outcome.status = .failure)
    (hh : outcome.halts = true) (hm : scene.context.errorMessage = some text) (t : τ) :
    ∃ walk' ended t',
      (settle graph node walk outcome >>= rest engine graph limit left).served serve scene t =
        ((.ok walk', ended), t') ∧
      walk'.visits = walk.visits ++ [⟨node, outcome⟩] ∧
      ended.context.status = .failure ∧ ended.context.errorMessage = some text := by
  obtain ⟨t₁, -, hsettle⟩ := served_settle serve graph hn walk outcome scene t
  obtain ⟨hover, hfailed, hmessage⟩ := turnOf_halted graph node walk hs hh hm
  have hrest := ensures_rest_over engine graph limit left
    { scene with context := (turnOf graph node outcome walk scene.context).context } hover
  obtain ⟨hresult, now, hclosed⟩ := hrest.served serve t₁
  rw [served_bind_ok hsettle]
  refine ⟨_, _, _, Prod.ext (Prod.ext hresult rfl) rfl, Turn.after_visits _ _ _ _ _, ?_⟩
  rw [hclosed]
  exact ⟨by rw [closed, hfailed]; rfl, hmessage⟩

theorem rest_succ {queue : List Node} (limit : Value) (left : Nat) (he : walk.ending = none)
    (hq : walk.queue = node :: queue) :
    rest engine graph limit (left + 1) walk = (do
      enter node
      visit engine graph node { walk with queue } >>= rest engine graph limit left) := by
  rw [rest, walkOn, he, hq]
  simp only [LawfulMonad.bind_assoc]
  rfl

/-- Every visit follows the policy of its node, and the run goes on from the last outcome unless a
wait was cancelled. Where the outcome cannot be recorded, that is the end of the run. -/
theorem rest_follows_policy (engine : Engine) (graph : FlowGraph) (walk : Walk)
    {executor : Executor} {policy : RetryPolicy} {queue : List Node}
    (he : walk.ending = none) (hq : walk.queue = node :: queue)
    (hg : engine.registry.get node.type (some node.id) = .ok executor)
    (hp : RetryPolicy.ofConfig node.config = .ok policy)
    (serve : (r : Request) → τ → r.Reply × τ) (limit : Value) (left : Nat) (scene : Scene) (t : τ) :
    ∃ t₀ before last scene' t', Hears serve t t₀ ∧ before.length + 1 ≤ 11 ∧
      (Attempt.Ended executor node serve policy 0 policy.maxRetries (entered node scene, t₀) before
          last (scene', t') ∧
        (Attempt.run executor node).served serve (entered node scene) t₀ =
          ((.ok last, scene'), t') ∧
        (match recordable node with
        | .error fault =>
          (rest engine graph limit (left + 1) walk).served serve scene t =
            ((.error fault, scene'), t')
        | .ok () =>
          let turn := turnOf graph node last { walk with queue } scene'.context
          ∃ t'', Hears serve t' t'' ∧
            (rest engine graph limit (left + 1) walk).served serve scene t =
              (rest engine graph limit left turn.walk).served serve
                { scene' with context := turn.context } t'') ∨
      Attempt.Cancelled executor node serve policy 0 policy.maxRetries (entered node scene, t₀)
          before last (scene', t') ∧
        let text := Attempt.cancelledText node (before.length + 1) policy.maxRetries last
        (Attempt.run executor node).served serve (entered node scene) t₀ =
          ((.ok { last with halts := true },
            { scene' with context := scene'.context.fail text }), t') ∧
        match recordable node with
        | .error fault =>
          (rest engine graph limit (left + 1) walk).served serve scene t =
            ((.error fault, { scene' with context := scene'.context.fail text }), t')
        | .ok () =>
          ∃ walk' ended t'',
            (rest engine graph limit (left + 1) walk).served serve scene t =
              ((.ok walk', ended), t'') ∧
            walk'.visits = walk.visits ++ [⟨node, { last with halts := true }⟩] ∧
            ended.context.status = .failure ∧ ended.context.errorMessage = some text) := by
  have hcap : policy.maxRetries ≤ 10 := RetryPolicy.maxRetries_le_of_ofConfig hp
  obtain ⟨t₀, ht₀, hvisit⟩ :=
    served_visit serve graph { walk with queue } hg (entered node scene) t
  have hrest : (rest engine graph limit (left + 1) walk).served serve scene t =
      (Attempt.run executor node >>= settle graph node { walk with queue } >>=
        rest engine graph limit left).served serve (entered node scene) t₀ := by
    have henter : (enter node).served serve scene t = ((.ok (), entered node scene), t) := rfl
    rw [rest_succ limit left he hq, served_bind_ok henter, served_bind, hvisit, ← served_bind]
  obtain ⟨before, last, scene', t', ⟨hends, hrun⟩ | ⟨hcancelled, hrun⟩⟩ :=
    Attempt.run_course executor node serve hp (entered node scene) t₀
  · have hlength : before.length ≤ policy.maxRetries := by
      rcases hends.stops with ⟨-, h⟩ | h <;> omega
    refine ⟨t₀, before, last, scene', t', ht₀, by omega, Or.inl ⟨hends, hrun, ?_⟩⟩
    rw [hrest, LawfulMonad.bind_assoc, served_bind_ok hrun]
    cases hn : recordable node with
    | error fault =>
      rw [served_bind, served_settle_error serve graph hn { walk with queue } last scene' t']
    | ok =>
      obtain ⟨t'', ht, hsettle⟩ := served_settle serve graph hn { walk with queue } last scene' t'
      exact ⟨t'', ht, served_bind_ok hsettle⟩
  · have hroom := hcancelled.room
    refine ⟨t₀, before, last, scene', t', ht₀, by omega, Or.inr ⟨hcancelled, hrun, ?_⟩⟩
    rw [hrest, LawfulMonad.bind_assoc, served_bind_ok hrun]
    cases hn : recordable node with
    | error fault => rw [served_bind, served_settle_error serve graph hn { walk with queue } _ _ t']
    | ok =>
      refine served_rest_halted serve engine graph hn _ _ _ limit left ?_ ?_ ?_ t'
      · exact (Attempt.callsForMore_iff.mp hcancelled.more).1
      · rfl
      · rfl

end Engine

namespace Refused

def start : Node :=
  ⟨"start", .start, "", [("retry", .object [("maxRetries", .int 2)])], []⟩

def flow : FlowGraph := .plain [start] []

def outcome : Outcome := Outcome.failedWith start "refused"

def refuse : Executor := fun _ => pure outcome

def engine : Engine where
  registry := { entries := [(.start, refuse)], nodup := by decide }
  maxSteps := .int 5000

def cancel : (r : Request) → Unit → r.Reply × Unit
  | .pause _, _ => (true, ())
  | r, _ => (r.someReply, ())

def scene : Scene := ⟨Engine.opening flow "run" [] (Request.someReply .now), .outside⟩

variable {policy : RetryPolicy} {before : List Outcome} {last : Outcome}
  {back : List Attempt.Move} {a b : Scene × Unit}

theorem before_eq_nil
    (hc : Attempt.Course refuse start cancel a (Attempt.rounds policy 0 before ++ back) b) :
    before = [] := by
  cases before with
  | nil => rfl
  | cons first rest =>
    have hwait : .wait (policy.wait 0) false ∈ Attempt.rounds policy 0 (first :: rest) ++ back := by
      simp [Attempt.rounds]
    obtain ⟨t, h⟩ := hc.reply_of_mem hwait
    cases h

theorem last_eq (hc : Attempt.Course refuse start cancel a (.call last :: back) b) :
    last = outcome := by
  obtain ⟨scene, t, h⟩ := hc.outcome_of_mem List.mem_cons_self
  exact h

/-- Though two more attempts are granted, the first wait ends the run. -/
theorem refused_once :
    ∃ walk ended, (Engine.rest engine flow (.int 5000) 5000 (Walk.starting start)).served cancel
        scene () = ((.ok walk, ended), ()) ∧
      walk.visits = [⟨start, { outcome with halts := true }⟩] ∧
      ended.context.status = .failure ∧ ended.context.errorMessage =
        some "Run cancelled while node 'start' waited to retry (attempt 1 of 2): refused" := by
  have hpolicy : RetryPolicy.ofConfig start.config = .ok ⟨2, 1000, .ofNat 2⟩ := by decide
  obtain ⟨t₀, before, last, scene', t', -, -, ⟨he, -⟩ | ⟨hc, -, walk', ended, t'', hr, hw⟩⟩ :=
    Engine.rest_follows_policy engine flow (Walk.starting start) rfl rfl rfl hpolicy cancel
      (.int 5000) 4999 scene ()
  · obtain rfl := before_eq_nil he.course
    obtain rfl := last_eq he.course
    rcases he.stops with ⟨h, -⟩ | h <;> cases h
  · obtain rfl := before_eq_nil hc.course
    obtain rfl := last_eq hc.course
    exact ⟨walk', ended, hr, hw⟩

end Refused

end FlowEngine
