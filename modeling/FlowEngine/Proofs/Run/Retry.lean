import FlowEngine.Proofs.Work.Telling

/-!
# Attempts by the policy of a node

The executor of a node is called until an outcome does not call for more or the policy grants no
further attempt, with one wait between two calls. A wait that is cancelled is the last thing that
happens at the node, and in the run: the failure before it halts the run with a message of its own.
-/

namespace FlowEngine

open Doing

/-- The wait after so many waits: the first one, multiplied once for each wait before it. -/
def RetryPolicy.wait (policy : RetryPolicy) : Nat → Double
  | 0 => policy.initialDelay
  | made + 1 => Double.mul (policy.wait made) policy.multiplier

namespace Attempt

/-- What is done at a node: its executor is called, with some outcome, or time passes, unless the
wait is cancelled. -/
inductive Move where
  | call (outcome : Outcome)
  | wait (seconds : Double) (cancelled : Bool)

/-- The outcome of a call. A fault counts as a failure that does not halt the run. -/
def outcomeOf (node : Node) : Except Fault Outcome → Outcome
  | .ok outcome => outcome
  | .error fault => Outcome.failedWith node fault.message

theorem callsForMore_iff {outcome : Outcome} :
    callsForMore outcome = true ↔ outcome.status = .failure ∧ outcome.halts = false := by
  simp [callsForMore]

section Course

variable {τ : Type} (executor : Executor) (node : Node) (serve : (r : Request) → τ → r.Reply × τ)

/-- The way from one state to another that takes these moves and nothing else, apart from telling of
them. -/
inductive Course : Scene × τ → List Move → Scene × τ → Prop where
  | done (a) : Course a [] a
  | told {scene t t' moves b} (h : Hears serve t t') (hc : Course (scene, t') moves b) :
      Course (scene, t) moves b
  | call {scene t result scene' t' moves b}
      (he : (executor node).served serve scene t = ((result, scene'), t'))
      (hc : Course (scene', t') moves b) :
      Course (scene, t) (.call (outcomeOf node result) :: moves) b
  | wait {scene t cancelled t' moves b} (seconds : Double)
      (hp : serve (.pause seconds) t = (cancelled, t')) (hc : Course (scene, t') moves b) :
      Course (scene, t) (.wait seconds cancelled :: moves) b

variable {executor node serve}

theorem Course.append {a b c : Scene × τ} {front back : List Move}
    (h : Course executor node serve a front b) (h' : Course executor node serve b back c) :
    Course executor node serve a (front ++ back) c := by
  induction h with
  | done => exact h'
  | told ht _ ih => exact .told ht (ih h')
  | call he _ ih => exact .call he (ih h')
  | wait seconds hp _ ih => exact .wait seconds hp (ih h')

theorem Course.hears {a : Scene × τ} {moves : List Move} {scene : Scene} {t t' : τ}
    (h : Course executor node serve a moves (scene, t)) (ht : Hears serve t t') :
    Course executor node serve a moves (scene, t') := by
  simpa only [List.append_nil] using h.append (.told ht (.done _))

theorem Course.outcome_of_mem {a b : Scene × τ} {moves : List Move} {outcome : Outcome}
    (h : Course executor node serve a moves b) (hm : .call outcome ∈ moves) :
    ∃ scene t, outcome = outcomeOf node ((executor node).served serve scene t).1.1 := by
  induction h with
  | done => cases hm
  | told _ _ ih => exact ih hm
  | @call scene t _ _ _ _ _ he _ ih =>
    rcases List.mem_cons.mp hm with hhead | htail
    · cases hhead
      exact ⟨scene, t, by rw [he]⟩
    · exact ih htail
  | wait _ _ _ ih =>
    rcases List.mem_cons.mp hm with hhead | htail
    · cases hhead
    · exact ih htail

theorem Course.reply_of_mem {a b : Scene × τ} {moves : List Move} {seconds : Double}
    {cancelled : Bool} (h : Course executor node serve a moves b)
    (hm : .wait seconds cancelled ∈ moves) :
    ∃ t, (serve (.pause seconds) t).1 = cancelled := by
  induction h with
  | done => cases hm
  | told _ _ ih => exact ih hm
  | call _ _ ih =>
    rcases List.mem_cons.mp hm with hhead | htail
    · cases hhead
    · exact ih htail
  | @wait _ t _ _ _ _ _ hp _ ih =>
    rcases List.mem_cons.mp hm with hhead | htail
    · cases hhead
      exact ⟨t, by rw [hp]⟩
    · exact ih htail

variable (executor node serve) (policy : RetryPolicy)

theorem course_once (scene : Scene) (t : τ) :
    ∃ outcome scene' t', Course executor node serve (scene, t) [.call outcome] (scene', t') ∧
      (once executor node).served serve scene t = ((.ok outcome, scene'), t') := by
  obtain ⟨⟨⟨result, scene'⟩, t'⟩, hr⟩ : ∃ r, (executor node).served serve scene t = r := ⟨_, rfl⟩
  have hattempt : (attempt (executor node)).served serve scene t = ((.ok result, scene'), t') := by
    rw [served_attempt, hr]
  refine ⟨outcomeOf node result, scene', ?_⟩
  cases result with
  | ok outcome =>
    refine ⟨t', .call hr (.done _), ?_⟩
    rw [once, served_bind, hattempt]
    rfl
  | error fault =>
    obtain ⟨t₁, ht₁, hnote⟩ := (Work.tells_note (Log.line .error Log.Logger.engine
      ("Node " ++ node.displayName ++ " raised: " ++ fault.message))).served_bind
      (f := fun _ => do
        Work.emitFor node fun flow execution id => Event.nodeError flow execution id fault.message
        return Outcome.failedWith node fault.message) serve scene' t'
    obtain ⟨t₂, ht₂, hemit⟩ := (Work.tells_emitFor node fun flow execution id =>
      Event.nodeError flow execution id fault.message).served_bind
      (f := fun _ => pure (Outcome.failedWith node fault.message)) serve scene' t₁
    refine ⟨t₂, .call hr (.told (ht₁.trans ht₂) (.done _)), ?_⟩
    rw [once, served_bind, hattempt]
    exact hnote.trans hemit

/-- The moves of attempts that all called for more, from a number of waits on. -/
def rounds (policy : RetryPolicy) : Nat → List Outcome → List Move
  | _, [] => []
  | made, outcome :: rest =>
    .call outcome :: .wait (policy.wait made) false :: rounds policy (made + 1) rest

section Ends

variable (made left : Nat) (start : Scene × τ)
  (before : List Outcome) (last : Outcome) (finish : Scene × τ)

/-- Attempts after a number of waits, with some more left: all but the last one called for more, and
so does the last one at most if no other is left. -/
structure Ended : Prop where
  again : ∀ outcome ∈ before, callsForMore outcome = true
  stops : callsForMore last = false ∧ before.length ≤ left ∨ before.length = left
  course : Course executor node serve start (rounds policy made before ++ [.call last]) finish

/-- Attempts that all called for more, with others left, and the wait after the last of which was
cancelled. -/
structure Cancelled : Prop where
  again : ∀ outcome ∈ before, callsForMore outcome = true
  more : callsForMore last = true
  room : before.length < left
  course : Course executor node serve start
    (rounds policy made before ++ [.call last, .wait (policy.wait (made + before.length)) true])
    finish

variable {executor node serve policy made left start before last finish} {outcome : Outcome}
  {middle : Scene × τ}

theorem Ended.cons (h : Ended executor node serve policy (made + 1) left middle before last finish)
    (hm : callsForMore outcome = true)
    (hc : Course executor node serve start [.call outcome, .wait (policy.wait made) false] middle) :
    Ended executor node serve policy made (left + 1) start (outcome :: before) last finish where
  again := List.forall_mem_cons.mpr ⟨hm, h.again⟩
  stops := h.stops.imp (fun hs => ⟨hs.1, Nat.succ_le_succ hs.2⟩) (congrArg (· + 1))
  course := hc.append h.course

theorem Cancelled.cons
    (h : Cancelled executor node serve policy (made + 1) left middle before last finish)
    (hm : callsForMore outcome = true)
    (hc : Course executor node serve start [.call outcome, .wait (policy.wait made) false] middle) :
    Cancelled executor node serve policy made (left + 1) start (outcome :: before) last finish where
  again := List.forall_mem_cons.mpr ⟨hm, h.again⟩
  more := h.more
  room := Nat.succ_lt_succ h.room
  course := by
    have hwait : made + (outcome :: before).length = made + 1 + before.length := by
      rw [List.length_cons]
      omega
    rw [hwait]
    exact hc.append h.course

end Ends

def afterWait (executor : Executor) (node : Node) (policy : RetryPolicy) (left made : Nat)
    (outcome : Outcome) (cancelled : Bool) : Work Outcome :=
  if cancelled then cancel node (made + 1) policy.maxRetries outcome
  else series executor node policy left (made + 1) (policy.wait (made + 1))

def afterAttempt (executor : Executor) (node : Node) (policy : RetryPolicy) (left made : Nat)
    (outcome : Outcome) : Work Outcome := do
  if callsForMore outcome then
    announce node (made + 1) policy.maxRetries (policy.wait made) outcome
    afterWait executor node policy left made outcome (← ask (.pause (policy.wait made)))
  else return outcome

theorem series_succ (executor : Executor) (node : Node) (policy : RetryPolicy) (left made : Nat) :
    series executor node policy (left + 1) made (policy.wait made) =
      once executor node >>= afterAttempt executor node policy left made := rfl

theorem served_afterAttempt (left made : Nat) {outcome : Outcome}
    (hm : callsForMore outcome = true) (scene : Scene) (t : τ) :
    ∃ cancelled t',
      Course executor node serve (scene, t) [.wait (policy.wait made) cancelled] (scene, t') ∧
      (afterAttempt executor node policy left made outcome).served serve scene t =
        (afterWait executor node policy left made outcome cancelled).served serve scene t' := by
  have hannounce : Tells (announce node (made + 1) policy.maxRetries (policy.wait made) outcome) :=
    tells_bind (Work.tells_note _) (Work.tells_emitFor _ _)
  obtain ⟨t₁, ht, hs⟩ := hannounce.served_bind (f := fun _ => do
    afterWait executor node policy left made outcome (← ask (.pause (policy.wait made))))
    serve scene t
  refine ⟨_, _, .told ht (.wait _ rfl (.done _)), ?_⟩
  rw [afterAttempt, if_pos hm]
  exact hs

theorem served_cancel (attempt most : Nat) (outcome : Outcome) (scene : Scene) (t : τ) :
    ∃ t', Hears serve t t' ∧ (cancel node attempt most outcome).served serve scene t =
      ((.ok { outcome with halts := true }, { scene with
        context := scene.context.fail (cancelledText node attempt most outcome) }), t') := by
  obtain ⟨t', ht, hs⟩ := (Work.tells_note (Log.line .warning Log.Logger.engine
    ("Retry backoff for " ++ node.displayName ++ " cancelled; keeping last failure"))).served_bind
    (f := fun _ => do
      Work.change fun context => context.fail (cancelledText node attempt most outcome)
      return { outcome with halts := true }) serve scene t
  exact ⟨t', ht, hs⟩

/-- Attempts at a node end by themselves or with a cancelled wait. -/
theorem series_course (left made : Nat) (scene : Scene) (t : τ) :
    ∃ before last scene' t',
      (Ended executor node serve policy made left (scene, t) before last (scene', t') ∧
        (series executor node policy left made (policy.wait made)).served serve scene t =
          ((.ok last, scene'), t')) ∨
      (Cancelled executor node serve policy made left (scene, t) before last (scene', t') ∧
        (series executor node policy left made (policy.wait made)).served serve scene t =
          ((.ok { last with halts := true }, { scene' with
            context := scene'.context.fail
              (cancelledText node (made + before.length + 1) policy.maxRetries last) }), t')) := by
  -- By the number of attempts left. The first outcome settles which way the attempts end, or adds
  -- a round in front of what the rest of them do.
  induction left generalizing made scene t with
  | zero =>
    obtain ⟨last, scene', t', hc, hs⟩ := course_once executor node serve scene t
    exact ⟨[], last, scene', t', Or.inl ⟨⟨by simp, Or.inr rfl, hc⟩, hs⟩⟩
  | succ left ih =>
    obtain ⟨outcome, scene₁, t₁, hc, hs⟩ := course_once executor node serve scene t
    rw [series_succ, served_bind, hs]
    dsimp only
    cases hm : callsForMore outcome with
    | false =>
      refine ⟨[], outcome, scene₁, t₁, Or.inl ⟨⟨by simp, Or.inl ⟨hm, Nat.zero_le _⟩, hc⟩, ?_⟩⟩
      rw [afterAttempt, hm]
      rfl
    | true =>
      obtain ⟨cancelled, t₂, hw, hserved⟩ :=
        served_afterAttempt executor node serve policy left made hm scene₁ t₁
      rw [hserved]
      cases cancelled with
      | true =>
        obtain ⟨t₃, ht, hcancel⟩ :=
          served_cancel node serve (made + 1) policy.maxRetries outcome scene₁ t₂
        exact ⟨[], outcome, scene₁, t₃,
          Or.inr ⟨⟨by simp, hm, Nat.succ_pos left, (hc.append hw).hears ht⟩, hcancel⟩⟩
      | false =>
        have hround : Course executor node serve (scene, t)
            [.call outcome, .wait (policy.wait made) false] (scene₁, t₂) := hc.append hw
        obtain ⟨before, last, scene', t', h⟩ := ih (made + 1) scene₁ t₂
        refine ⟨outcome :: before, last, scene', t', ?_⟩
        have hattempt : made + (outcome :: before).length + 1 = made + 1 + before.length + 1 := by
          rw [List.length_cons]
          omega
        rw [hattempt]
        exact h.imp (fun ⟨he, hrest⟩ => ⟨he.cons hm hround, hrest⟩)
          fun ⟨he, hrest⟩ => ⟨he.cons hm hround, hrest⟩

theorem run_course {policy : RetryPolicy} (hp : RetryPolicy.ofConfig node.config = .ok policy)
    (scene : Scene) (t : τ) :
    ∃ before last scene' t',
      (Ended executor node serve policy 0 policy.maxRetries (scene, t) before last (scene', t') ∧
        (run executor node).served serve scene t = ((.ok last, scene'), t')) ∨
      (Cancelled executor node serve policy 0 policy.maxRetries (scene, t) before last
          (scene', t') ∧
        (run executor node).served serve scene t =
          ((.ok { last with halts := true }, { scene' with
            context := scene'.context.fail
              (cancelledText node (before.length + 1) policy.maxRetries last) }), t')) := by
  obtain ⟨t₁, ht, hs⟩ := (Work.tells_noteAll (RetryPolicy.warnings node.config)).served_bind
    (f := fun _ => do
      let policy ← ofExcept (RetryPolicy.ofConfig node.config)
      series executor node policy policy.maxRetries 0 policy.initialDelay) serve scene t
  have hrun : (run executor node).served serve scene t =
      (series executor node policy policy.maxRetries 0 (policy.wait 0)).served serve scene t₁ := by
    refine hs.trans ?_
    rw [hp]
    rfl
  obtain ⟨before, last, scene', t', h⟩ :=
    series_course executor node serve policy policy.maxRetries 0 scene t₁
  refine ⟨before, last, scene', t', ?_⟩
  rw [hrun]
  simp only [Nat.zero_add] at h
  exact h.imp (fun ⟨he, hr⟩ => ⟨{ he with course := .told ht he.course }, hr⟩)
    fun ⟨he, hr⟩ => ⟨{ he with course := .told ht he.course }, hr⟩

end Course

end Attempt

end FlowEngine
