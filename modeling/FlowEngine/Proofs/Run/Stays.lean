import FlowEngine.Proofs.Dispatch.Finalised
import FlowEngine.Proofs.Run.Retry
import FlowEngine.Proofs.Work.Observed

/-!
# What is told of a run

A run stays at one node after the other. Of each stay it tells that it begins, of every attempt that
ended in a fault, of every further attempt before the wait for it, and how the stay ended. Nothing else
is told, and nothing of a node at which a run that is too long stops.
-/

namespace FlowEngine

open Doing

namespace Attempt

/-- An attempt: what the executor asked, how it ended, and the scene it left. -/
structure Trial where
  asked : List Exchange
  result : Except Fault Outcome
  scene : Scene

inductive Made (executor : Executor) (node : Node) : Scene → List Trial → Scene → Prop where
  | nothing (scene : Scene) : Made executor node scene [] scene
  | next {scene : Scene} {trial : Trial} {trials : List Trial} {scene' : Scene}
      (h : (executor node).Path scene trial.asked trial.result trial.scene)
      (rest : Made executor node trial.scene trials scene') :
      Made executor node scene (trial :: trials) scene'

namespace Trial

def outcome (node : Node) (trial : Trial) : Outcome := outcomeOf node trial.result

def faultNews (node : Node) (trial : Trial) : List Event :=
  match trial.result with
  | .error fault =>
    [Event.nodeError (some trial.scene.context.flowId) (some trial.scene.context.executionId)
      (some node.id) fault.message]
  | .ok _ => []

def retryNews (node : Node) (policy : RetryPolicy) (made : Nat) (trial : Trial) : Event :=
  Event.nodeRetrying (some trial.scene.context.flowId) (some trial.scene.context.executionId)
    (some node.id) (made + 1 : Nat) policy.maxRetries (.double (policy.wait made))
    ((trial.outcome node).errorMessage.getD "")

end Trial

structure Trials where
  before : List Trial
  last : Trial
  cancelled : Bool

namespace Trials

variable (node : Node) (policy : RetryPolicy) (made : Nat) (trials : Trials)

def all : List Trial := trials.before ++ [trials.last]

def events : List Event :=
  (trials.before.zipIdx made).flatMap
      (fun (trial, k) => trial.faultNews node ++ [trial.retryNews node policy k]) ++
    trials.last.faultNews node ++
    if trials.cancelled then [trials.last.retryNews node policy (made + trials.before.length)] else []

def outcome : Outcome :=
  if trials.cancelled then { trials.last.outcome node with halts := true } else trials.last.outcome node

/-- The scene after the attempts. A wait that was cancelled leaves its message. -/
def scene : Scene :=
  if trials.cancelled then
    { trials.last.scene with
      context := trials.last.scene.context.fail
        (cancelledText node (made + trials.before.length + 1) policy.maxRetries
          (trials.last.outcome node)) }
  else trials.last.scene

/-- All attempts but the last one were followed by another because they asked for it, and there was
none after the last one: it did not ask, no attempt was left, or the wait was cancelled. -/
structure Ran (executor : Executor) (left : Nat) (start : Scene) : Prop where
  made : Made executor node start trials.all trials.last.scene
  asked : ∀ trial ∈ trials.before, callsForMore (trial.outcome node) = true
  granted : trials.before.length ≤ left
  ended : if trials.cancelled then
      trials.before.length < left ∧ callsForMore (trials.last.outcome node) = true
    else trials.before.length = left ∨ callsForMore (trials.last.outcome node) = false

/-- One more attempt in front. -/
def cons (trial : Trial) : Trials := { trials with before := trial :: trials.before }

theorem scene_cons (trial : Trial) :
    (trials.cons trial).scene node policy made = trials.scene node policy (made + 1) := by
  have hlength : made + (trials.before.length + 1) = made + 1 + trials.before.length := by omega
  simp [scene, cons, hlength]

theorem events_cons (trial : Trial) :
    (trials.cons trial).events node policy made =
      trial.faultNews node ++ trial.retryNews node policy made ::
        trials.events node policy (made + 1) := by
  have hlength : made + (trials.before.length + 1) = made + 1 + trials.before.length := by omega
  simp [events, cons, hlength]

variable {node trials} {executor : Executor} {left : Nat} {start : Scene} {trial : Trial}

theorem Ran.cons (h : (executor node).Path start trial.asked trial.result trial.scene)
    (hmore : callsForMore (trial.outcome node) = true)
    (hran : trials.Ran node executor left trial.scene) :
    (trials.cons trial).Ran node executor (left + 1) start where
  made := .next h hran.made
  asked := List.forall_mem_cons.mpr ⟨hmore, hran.asked⟩
  granted := Nat.succ_le_succ hran.granted
  ended := by simpa [Trials.cons] using hran.ended

end Trials

end Attempt

open Attempt

theorem Doing.path_bind_ok {σ α β : Type} {x : Doing σ α} {f : α → Doing σ β} {s s' : σ}
    {t : List Exchange} {b : β} (h : (x >>= f).Path s t (.ok b) s') :
    ∃ t₁ t₂ a s₁, t = t₁ ++ t₂ ∧ x.Path s t₁ (.ok a) s₁ ∧ (f a).Path s₁ t₂ (.ok b) s' := by
  obtain ⟨t₁, t₂, first, s₁, rfl, h₁, h₂⟩ := path_bind.mp h
  cases first with
  | ok a => exact ⟨t₁, t₂, a, s₁, rfl, h₁, h₂⟩
  | error fault =>
    obtain ⟨-, hr, -⟩ := h₂
    cases hr

namespace Exchange

/-- A row in which these events are published, and of which what these attempts asked is a part. -/
structure Carries (t : List Exchange) (events : List Event) (trials : List Trial) : Prop where
  published : published t = events
  asked : (trials.flatMap (·.asked)).Sublist t

variable {t t' : List Exchange} {events events' : List Event} {trials trials' : List Trial}

theorem Carries.append (h : Carries t events trials) (h' : Carries t' events' trials') :
    Carries (t ++ t') (events ++ events') (trials ++ trials') := by
  constructor
  · rw [published_append, h.published, h'.published]
  · rw [List.flatMap_append]
    exact h.asked.append h'.asked

theorem AreLog.carries (h : AreLog t) : Carries t [] [] := ⟨h.published, List.nil_sublist t⟩

theorem AreLog.carries_append (h : AreLog t) (h' : Carries t' events trials) :
    Carries (t ++ t') events trials := by
  simpa using h.carries.append h'

theorem Carries.append_areLog (h : Carries t events trials) (h' : AreLog t') :
    Carries (t ++ t') events trials := by
  simpa using h.append h'.carries

theorem carries_publish {event : Event} {reply : Option String} (h : AreLog t) :
    Carries (⟨.publish event, reply⟩ :: t) [event] [] := by
  refine ⟨?_, List.nil_sublist _⟩
  have ht := h.published
  unfold published at ht ⊢
  rw [List.filterMap_cons, ht]
  rfl

theorem published_eq_nil (h : ∀ e ∈ t, e.request.publishes = false) : published t = [] := by
  rw [published, List.filterMap_eq_nil_iff]
  intro e he
  have hquiet := h e he
  obtain ⟨request, reply⟩ := e
  cases request with
  | publish event => cases hquiet
  | _ => rfl

end Exchange

open Exchange

namespace Work

variable {scene scene' : Scene} {t : List Exchange} {result : Except Fault Unit} {node : Node}

theorem path_change {f : Context → Context} (h : (change f).Path scene t result scene') :
    t = [] ∧ result = .ok () ∧ scene' = { scene with context := f scene.context } := by
  obtain ⟨rfl, he⟩ := Dialogue.path_done.mp h
  cases he
  exact ⟨rfl, rfl, rfl⟩

theorem path_emitFor {event : (flow execution node : Option String) → Event}
    (h : (emitFor node event).Path scene t result scene') :
    Carries t [event (some scene.context.flowId) (some scene.context.executionId) (some node.id)] [] ∧
      result = .ok () ∧ scene' = scene := by
  obtain ⟨reply, told, rfl, ht, hresult, hscene⟩ := path_emit (path_context.mp h)
  exact ⟨carries_publish ht, hresult, hscene⟩

end Work

namespace Attempt

variable {executor : Executor} {node : Node} {policy : RetryPolicy} {scene scene' : Scene}
  {t : List Exchange} {result : Except Fault Outcome} {left made : Nat}

theorem carries_own (hs : (executor node).Silent) (h : (executor node).Path scene t result scene') :
    Carries t [] [⟨t, result, scene'⟩] := by
  constructor
  · exact published_eq_nil (hs _ _ _ _ h)
  · simp

theorem path_once (hs : (executor node).Silent)
    (h : (once executor node).Path scene t result scene') :
    ∃ trial : Trial, (executor node).Path scene trial.asked trial.result trial.scene ∧
      trial.scene = scene' ∧ result = .ok (trial.outcome node) ∧
      Carries t (trial.faultNews node) [trial] := by
  obtain ⟨own, more, _, scene₁, rfl, hattempt, hrest⟩ := path_bind.mp h
  obtain ⟨ended, rfl, hown⟩ := path_attempt.mp hattempt
  have hcarries : Carries own [] [⟨own, ended, scene₁⟩] := carries_own hs hown
  cases ended with
  | ok outcome =>
    obtain ⟨rfl, rfl, rfl⟩ := path_pure.mp hrest
    exact ⟨⟨own, .ok outcome, scene'⟩, hown, rfl, rfl, hcarries.append_areLog areLog_nil⟩
  | error fault =>
    obtain ⟨t₁, t₂, _, scene₂, rfl, hnote, htold⟩ := path_bind.mp hrest
    obtain ⟨hlog, rfl, rfl⟩ := Work.path_note hnote
    obtain ⟨t₃, t₄, _, scene₃, rfl, hemit, hpure⟩ := path_bind.mp htold
    obtain ⟨hevent, rfl, rfl⟩ := Work.path_emitFor hemit
    obtain ⟨rfl, rfl, rfl⟩ := path_pure.mp hpure
    exact ⟨⟨own, .error fault, scene'⟩, hown, rfl, rfl,
      hcarries.append (hlog.carries_append (hevent.append_areLog areLog_nil))⟩

theorem path_announce {most : Nat} {delay : Double} {outcome : Outcome} {result : Except Fault Unit}
    (h : (announce node made most delay outcome).Path scene t result scene') :
    Carries t [Event.nodeRetrying (some scene.context.flowId) (some scene.context.executionId)
      (some node.id) made most (.double delay) (outcome.errorMessage.getD "")] [] ∧
      result = .ok () ∧ scene' = scene := by
  obtain ⟨t₁, t₂, _, scene₁, rfl, hnote, hemit⟩ := path_bind.mp h
  obtain ⟨hlog, rfl, rfl⟩ := Work.path_note hnote
  obtain ⟨htold, hresult, hscene⟩ := Work.path_emitFor hemit
  exact ⟨hlog.carries_append htold, hresult, hscene⟩

theorem path_cancel {most : Nat} {outcome : Outcome}
    (h : (cancel node made most outcome).Path scene t result scene') :
    AreLog t ∧ result = .ok { outcome with halts := true } ∧
      scene' = { scene with context := scene.context.fail (cancelledText node made most outcome) } := by
  obtain ⟨t₁, t₂, _, scene₁, rfl, hnote, hrest⟩ := path_bind.mp h
  obtain ⟨hlog, rfl, rfl⟩ := Work.path_note hnote
  obtain ⟨t₃, t₄, _, scene₂, rfl, hchange, hpure⟩ := path_bind.mp hrest
  obtain ⟨rfl, rfl, rfl⟩ := Work.path_change hchange
  obtain ⟨rfl, rfl, rfl⟩ := path_pure.mp hpure
  exact ⟨by simpa using hlog, rfl, rfl⟩

theorem path_series (hs : (executor node).Silent)
    (h : (series executor node policy left made (policy.wait made)).Path scene t result scene') :
    ∃ trials : Trials, trials.Ran node executor left scene ∧
      result = .ok (trials.outcome node) ∧ scene' = trials.scene node policy made ∧
      Carries t (trials.events node policy made) trials.all := by
  -- By the number of attempts left: after each one that is followed by another the rest is a series.
  induction left generalizing made scene t with
  | zero =>
    obtain ⟨trial, hpath, rfl, rfl, hcarries⟩ := path_once hs h
    refine ⟨⟨[], trial, false⟩, ⟨?_, by simp, Nat.le_refl 0, .inl rfl⟩, rfl, rfl, ?_⟩
    · exact .next hpath (.nothing _)
    · simpa [Trials.events, Trials.all] using hcarries
  | succ left ih =>
    obtain ⟨t₁, t₂, _, scene₁, rfl, honce, hrest⟩ := path_bind.mp h
    obtain ⟨trial, hpath, rfl, rfl, hcarries⟩ := path_once hs honce
    by_cases hmore : callsForMore (trial.outcome node) = true
    · simp only [Then, hmore, if_true] at hrest
      obtain ⟨t₃, t₄, _, scene₂, rfl, hannounce, hwait⟩ := path_bind.mp hrest
      obtain ⟨htold, rfl, rfl⟩ := path_announce hannounce
      obtain ⟨t₅, t₆, _, scene₃, rfl, hpause, hgo⟩ := path_bind.mp hwait
      obtain ⟨reply, rfl, rfl, rfl⟩ := path_ask.mp hpause
      have hpaused : Carries [⟨.pause (policy.wait made), reply⟩] [] [] := ⟨rfl, List.nil_sublist _⟩
      have hfront := hcarries.append (htold.append hpaused)
      cases reply with
      | true =>
        obtain ⟨hlog, rfl, rfl⟩ := path_cancel hgo
        refine ⟨⟨[], trial, true⟩, ⟨.next hpath (.nothing _), by simp, Nat.zero_le _,
          Nat.succ_pos left, hmore⟩, rfl, rfl, ?_⟩
        simpa [Trials.events, Trials.all, Trial.retryNews, List.append_assoc] using
          hfront.append_areLog hlog
      | false =>
        obtain ⟨trials, hran, rfl, rfl, htail⟩ := ih hgo
        refine ⟨trials.cons trial, hran.cons hpath hmore, rfl, (trials.scene_cons ..).symm, ?_⟩
        rw [trials.events_cons]
        simpa [Trial.retryNews, Trials.all, Trials.cons] using hfront.append htail
    · simp only [Then, hmore] at hrest
      obtain ⟨rfl, rfl, rfl⟩ := path_pure.mp hrest
      refine ⟨⟨[], trial, false⟩, ⟨.next hpath (.nothing _), by simp, Nat.zero_le _, .inr ?_⟩,
        rfl, rfl, ?_⟩
      · exact Bool.eq_false_iff.mpr hmore
      · simpa [Trials.events, Trials.all] using hcarries

theorem path_run (hs : (executor node).Silent) (h : (run executor node).Path scene t result scene') :
    (∃ fault, result = .error fault) ∨
      ∃ policy, RetryPolicy.ofConfig node.config = .ok policy ∧
        ∃ trials : Trials, trials.Ran node executor policy.maxRetries scene ∧
          result = .ok (trials.outcome node) ∧ scene' = trials.scene node policy 0 ∧
          Carries t (trials.events node policy 0) trials.all := by
  obtain ⟨t₁, t₂, _, scene₁, rfl, hwarn, hrest⟩ := path_bind.mp h
  obtain ⟨hlog, rfl, rfl⟩ := Work.path_noteAll hwarn
  obtain ⟨t₃, t₄, _, scene₂, rfl, hpolicy, hseries⟩ := path_bind.mp hrest
  obtain ⟨rfl, rfl, rfl⟩ := path_ofExcept.mp hpolicy
  cases hp : RetryPolicy.ofConfig node.config with
  | error fault =>
    rw [hp] at hseries
    exact .inl ⟨fault, hseries.2.1⟩
  | ok policy =>
    rw [hp] at hseries
    obtain ⟨trials, hran, hresult, hscene, hcarries⟩ := path_series hs hseries
    exact .inr ⟨policy, rfl, trials, hran, hresult, hscene, hlog.carries_append hcarries⟩

end Attempt

/-- A stay of a run at a node: the scene in which it began, and the attempts by a policy. -/
structure Stay where
  node : Node
  entered : Scene
  policy : RetryPolicy
  trials : Trials

namespace Stay

def outcome (stay : Stay) : Outcome := stay.trials.outcome stay.node

def visit (stay : Stay) : Visit := ⟨stay.node, stay.outcome⟩

def tried (stay : Stay) : Scene := stay.trials.scene stay.node stay.policy 0

def recorded (stay : Stay) : Context := Engine.recorded stay.node stay.outcome stay.tried.context

def events (stay : Stay) : List Event :=
  Event.nodeStarted (some stay.entered.context.flowId) (some stay.entered.context.executionId)
      (some stay.node.id) ::
    (stay.trials.events stay.node stay.policy 0 ++
      [Event.nodeCompleted (some stay.recorded.flowId) (some stay.recorded.executionId)
        (some stay.node.id) stay.outcome.status.name stay.recorded.nex])

/-- The attempts of a stay are calls of the executor for the node, as its policy grants them. -/
structure Ran (engine : Engine) (stay : Stay) : Prop where
  policy : RetryPolicy.ofConfig stay.node.config = .ok stay.policy
  trials : ∃ executor, engine.registry.get stay.node.type (some stay.node.id) = .ok executor ∧
    stay.trials.Ran stay.node executor stay.policy.maxRetries stay.entered

end Stay

theorem Walk.next_of_not_over {walk : Walk} (h : ¬ walk.isOver = true) :
    ∃ node queue, walk.ending = none ∧ walk.queue = node :: queue := by
  obtain ⟨_ | ⟨node, queue⟩, visits, failed, _ | ending⟩ := walk
  · exact absurd rfl h
  · exact absurd rfl h
  · exact ⟨node, queue, rfl, rfl⟩
  · exact absurd rfl h

namespace Engine

/-- What a walk goes through: stays, each at the node whose turn it is and in the scene that the one
before it left, up to the end of the walk or the node at which it is too long. -/
inductive Stays (engine : Engine) (graph : FlowGraph) (limit : Value) :
    Walk → Scene → List Stay → Walk → Scene → Prop where
  | over {walk : Walk} {scene : Scene} (ho : walk.isOver = true) :
      Stays engine graph limit walk scene [] walk scene
  | overflowed {walk : Walk} {scene : Scene} {node : Node} {queue : List Node}
      (he : walk.ending = none) (hq : walk.queue = node :: queue) :
      Stays engine graph limit walk scene []
        { walk with queue, failed := true, ending := some .overflow }
        { entered node scene with
          context := (entered node scene).context.fail (overflowText limit node) }
  | stayed {walk walk' : Walk} {scene scene' : Scene} {stay : Stay} {queue : List Node}
      {stays : List Stay} (he : walk.ending = none) (hq : walk.queue = stay.node :: queue)
      (hs : stay.entered = entered stay.node scene) (hr : stay.Ran engine)
      (rest : Stays engine graph limit
        (turnOf graph stay.node stay.outcome { walk with queue } stay.tried.context).walk
        { stay.tried with
          context := (turnOf graph stay.node stay.outcome { walk with queue } stay.tried.context).context }
        stays walk' scene') :
      Stays engine graph limit walk scene (stay :: stays) walk' scene'

variable {engine : Engine} {graph : FlowGraph} {limit : Value} {node : Node} {walk walk' : Walk}
  {scene scene' : Scene} {t : List Exchange}

theorem Stays.visits {stays : List Stay} (h : Stays engine graph limit walk scene stays walk' scene') :
    walk'.visits = walk.visits ++ stays.map Stay.visit := by
  induction h with
  | «over» => simp
  | overflowed => simp
  | stayed he hq hs hr rest ih =>
    rw [ih, turnOf, Turn.after_visits, List.append_assoc]
    rfl

theorem path_keepOutcome {outcome : Outcome}
    (h : (keepOutcome node outcome).Path scene t (.ok ()) scene') :
    AreLog t ∧ scene' = { scene with context := recorded node outcome scene.context } := by
  unfold keepOutcome at h
  unfold recorded
  split at h
  · rename_i hstart
    obtain ⟨rfl, -, rfl⟩ := path_pure.mp h
    exact ⟨areLog_nil, by rw [if_pos hstart]⟩
  · rename_i hstart
    obtain ⟨t₁, t₂, name, scene₁, rfl, hname, hrest⟩ := path_bind_ok h
    obtain ⟨rfl, -, rfl⟩ := path_ofExcept.mp hname
    obtain ⟨t₃, t₄, _, scene₂, rfl, hnote, hchange⟩ := path_bind_ok (Work.path_context.mp hrest)
    obtain ⟨hlog, -, rfl⟩ := Work.path_noteAll hnote
    obtain ⟨rfl, -, rfl⟩ := Work.path_change hchange
    exact ⟨by simpa using hlog, by rw [if_neg hstart]⟩

theorem path_visit (hs : engine.Silent) (h : (visit engine graph node walk).Path scene t (.ok walk') scene') :
    ∃ stay : Stay, stay.node = node ∧ stay.entered = scene ∧ stay.Ran engine ∧
      walk' = (turnOf graph node stay.outcome walk stay.tried.context).walk ∧
      scene' = { stay.tried with
        context := (turnOf graph node stay.outcome walk stay.tried.context).context } ∧
      Carries t stay.events stay.trials.all := by
  obtain ⟨t₁, t₂, _, scene₁, rfl, hnote, h₂⟩ := path_bind_ok (Work.path_context.mp h)
  obtain ⟨hlog, -, rfl⟩ := Work.path_note hnote
  obtain ⟨t₃, t₄, _, scene₂, rfl, hstart, h₄⟩ := path_bind_ok h₂
  obtain ⟨hstarted, -, rfl⟩ := Work.path_emitFor hstart
  obtain ⟨t₅, t₆, executor, scene₃, rfl, hget, h₆⟩ := path_bind_ok h₄
  obtain ⟨rfl, hexecutor, rfl⟩ := path_ofExcept.mp hget
  obtain ⟨t₇, t₈, outcome, scene₄, rfl, hrun, h₈⟩ := path_bind_ok h₆
  have hsilent : (executor node).Silent := hs _ (Registry.mem_of_get hexecutor.symm) node
  obtain ⟨fault, hfault⟩ | ⟨policy, hpolicy, trials, hran, hresult, rfl, hcarries⟩ := path_run hsilent hrun
  · cases hfault
  · cases hresult
    obtain ⟨t₉, t₁₀, _, scene₅, rfl, hkeep, h₁₀⟩ := path_bind_ok h₈
    obtain ⟨hkept, rfl⟩ := path_keepOutcome hkeep
    obtain ⟨t₁₁, t₁₂, _, scene₆, rfl, hend, h₁₂⟩ := path_bind_ok (Work.path_context.mp h₁₀)
    obtain ⟨hended, -, rfl⟩ := Work.path_emitFor hend
    obtain ⟨t₁₃, t₁₄, _, scene₇, rfl, hchange, h₁₄⟩ := path_bind_ok (Work.path_context.mp h₁₂)
    obtain ⟨rfl, -, rfl⟩ := Work.path_change hchange
    obtain ⟨t₁₅, t₁₆, _, scene₈, rfl, hlines, hpure⟩ := path_bind_ok h₁₄
    obtain ⟨hlast, -, rfl⟩ := Work.path_noteAll hlines
    obtain ⟨rfl, hwalk, rfl⟩ := path_pure.mp hpure
    refine ⟨⟨node, scene₃, policy, trials⟩, rfl, rfl, ⟨hpolicy, executor, hexecutor.symm, hran⟩, ?_, rfl, ?_⟩
    · exact Except.ok.inj hwalk
    · have hafter := hended.append_areLog (hlast.append areLog_nil)
      have hall := hlog.carries_append (hstarted.append (hcarries.append (hkept.carries_append hafter)))
      simpa [Stay.events, Stay.outcome, Stay.tried, Stay.recorded] using hall

theorem path_overflow (h : (overflow limit node walk).Path scene t (.ok walk') scene') :
    AreLog t ∧ walk' = { walk with failed := true, ending := some .overflow } ∧
      scene' = { scene with context := scene.context.fail (overflowText limit node) } := by
  obtain ⟨t₀, t₁, text, scene₀, rfl, hshown, hopen⟩ := path_bind_ok h
  obtain ⟨rfl, -, rfl⟩ := path_ofExcept.mp hshown
  obtain ⟨t₁, t₂, _, scene₁, rfl, hchange, hrest⟩ := path_bind_ok hopen
  obtain ⟨rfl, -, rfl⟩ := Work.path_change hchange
  obtain ⟨t₃, t₄, _, scene₂, rfl, hnote, hpure⟩ := path_bind_ok hrest
  obtain ⟨hlog, -, rfl⟩ := Work.path_note hnote
  obtain ⟨rfl, hwalk, rfl⟩ := path_pure.mp hpure
  exact ⟨by simpa using hlog, Except.ok.inj hwalk, rfl⟩

theorem path_enter {α : Type} {f : Unit → Work α} {result : Except Fault α} :
    (enter node >>= f).Path scene t result scene' ↔ (f ()).Path (entered node scene) t result scene' :=
  Iff.rfl

theorem path_walkOn (hs : engine.Silent) {left : Nat}
    (h : (walkOn engine graph limit left walk).Path scene t (.ok walk') scene') :
    ∃ stays, Stays engine graph limit walk scene stays walk' scene' ∧
      Carries t (stays.flatMap Stay.events) (stays.flatMap fun stay => stay.trials.all) := by
  -- By the number of visits left, as the walk itself goes.
  induction left generalizing walk scene t with
  | zero =>
    by_cases ho : walk.isOver = true
    · rw [walkOn_over engine graph limit 0 ho] at h
      obtain ⟨rfl, hwalk, rfl⟩ := path_pure.mp h
      cases hwalk
      exact ⟨[], .over ho, areLog_nil.carries⟩
    · obtain ⟨node, queue, he, hq⟩ := Walk.next_of_not_over ho
      unfold walkOn at h
      rw [he, hq] at h
      obtain ⟨hlog, rfl, rfl⟩ := path_overflow (path_enter.mp h)
      exact ⟨[], .overflowed he hq, hlog.carries⟩
  | succ left ih =>
    by_cases ho : walk.isOver = true
    · rw [walkOn_over engine graph limit (left + 1) ho] at h
      obtain ⟨rfl, hwalk, rfl⟩ := path_pure.mp h
      cases hwalk
      exact ⟨[], .over ho, areLog_nil.carries⟩
    · obtain ⟨node, queue, he, hq⟩ := Walk.next_of_not_over ho
      obtain ⟨_, visits, failed, _⟩ := walk
      subst he hq
      obtain ⟨t₁, t₂, walk₁, scene₁, rfl, hvisit, hrest⟩ := path_bind_ok (path_enter.mp h)
      obtain ⟨stay, rfl, hentered, hran, rfl, rfl, hcarries⟩ := path_visit hs hvisit
      obtain ⟨stays, hstays, htold⟩ := ih hrest
      exact ⟨stay :: stays, .stayed rfl rfl hentered hran hstays, hcarries.append htold⟩

theorem path_conclude {result : Except Fault Unit} (h : (conclude walk).Path scene t result scene') :
    published t = [] ∧ ∃ now, scene' = { scene with context := closed walk now scene.context } := by
  obtain ⟨t₁, t₂, _, scene₁, rfl, hask, hrest⟩ := path_bind.mp h
  obtain ⟨now, rfl, rfl, rfl⟩ := path_ask.mp hask
  obtain ⟨t₃, t₄, _, scene₂, rfl, hchange, hnote⟩ := path_bind.mp hrest
  obtain ⟨rfl, rfl, rfl⟩ := Work.path_change hchange
  obtain ⟨hlog, rfl, rfl⟩ := Work.path_note (Work.path_context.mp hnote)
  exact ⟨hlog.published, now, rfl⟩

theorem path_perform (hs : engine.Silent) (h : (engine.perform graph).Path scene t (.ok walk') scene') :
    ∃ stays scene₁ now,
      Stays engine graph (engine.limit graph) (Walk.starting (startOf graph)) scene stays walk' scene₁ ∧
        scene' = { scene₁ with context := closed walk' now scene₁.context } ∧
        Carries t (stays.flatMap Stay.events) (stays.flatMap fun stay => stay.trials.all) := by
  unfold perform at h
  extract_lets ceiling begun at h
  have hbegun : ∀ t, (begun ()).Path scene t (.ok walk') scene' → ∃ stays scene₁ now,
      Stays engine graph (engine.limit graph) (Walk.starting (startOf graph)) scene stays walk' scene₁ ∧
        scene' = { scene₁ with context := closed walk' now scene₁.context } ∧
        Carries t (stays.flatMap Stay.events) (stays.flatMap fun stay => stay.trials.all) := by
    clear h
    intro t h
    obtain ⟨t₀, t₁, name, scene₀, rfl, hname, hopen⟩ := path_bind_ok h
    obtain ⟨rfl, -, rfl⟩ := path_ofExcept.mp hname
    obtain ⟨t₁, t₂, _, scene₁, rfl, hnote, h₂⟩ := path_bind_ok hopen
    obtain ⟨hlog, -, rfl⟩ := Work.path_note hnote
    obtain ⟨t₃, t₄, most, scene₂, rfl, hlimit, h₄⟩ := path_bind_ok h₂
    obtain ⟨rfl, -, rfl⟩ := path_ofExcept.mp hlimit
    obtain ⟨t₅, t₆, walk, scene₃, rfl, hwalk, h₆⟩ := path_bind_ok h₄
    obtain ⟨stays, hstays, hcarries⟩ := path_walkOn hs hwalk
    obtain ⟨t₇, t₈, _, scene₄, rfl, hclose, hpure⟩ := path_bind_ok h₆
    obtain ⟨hclosed, now, rfl⟩ := path_conclude hclose
    obtain ⟨rfl, hwalk', rfl⟩ := path_pure.mp hpure
    cases hwalk'
    have hend : Carries (t₇ ++ []) [] [] := ⟨by simpa using hclosed, List.nil_sublist _⟩
    have hall := hlog.carries_append (hcarries.append hend)
    exact ⟨stays, scene₃, now, hstays, rfl, by simpa using hall⟩
  split at h
  · obtain ⟨t₁, t₂, _, scene₁, rfl, hwarn, hrest⟩ := path_bind_ok h
    obtain ⟨hlog, -, rfl⟩ := Work.path_note hwarn
    obtain ⟨stays, scene₁, now, hstays, hclosed, hcarries⟩ := hbegun t₂ hrest
    exact ⟨stays, scene₁, now, hstays, hclosed, hlog.carries_append hcarries⟩
  · exact hbegun t h

end Engine

end FlowEngine
