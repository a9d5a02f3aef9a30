import FlowEngine.Proofs.Run.Passage
import FlowEngine.Proofs.Step.Message

/-!
# The message of a run

A run has a message exactly when it has failed. The message is that of an outcome, or one of the few
texts that the engine has of its own.
-/

namespace FlowEngine

theorem head?_toList_append {a b : String} {c : Char} (h : a.toList.head? = some c) :
    (a ++ b).toList.head? = some c := by
  rw [String.toList_append, List.head?_append, h]
  rfl

/-- The texts with which the engine fails a run before its ceiling is hit. -/
inductive OwnText : String → Prop where
  | ended (node : Node) :
    OwnText ("Flow ended at FAILURE node '" ++ node.displayName ++ "'")
  | stopped (node : Node) : OwnText ("Node '" ++ node.displayName ++ "' stopped the run")
  | unrouted (node : Node) : OwnText ("Node '" ++ node.displayName ++ "' failed")
  | cycle (node entered : Node) : OwnText (Turn.cycleText node entered)
  | cancelled (node : Node) (attempt most : Nat) (outcome : Outcome) :
    OwnText (Attempt.cancelledText node attempt most outcome)

theorem Engine.head?_overflowText (limit : Value) (node : Node) :
    (overflowText limit node).toList.head? = some 'E' := by
  unfold overflowText
  iterate 4 apply head?_toList_append
  decide

theorem OwnText.ne_overflowText {text : String} (h : OwnText text) (limit : Value) (node : Node) :
    text ≠ Engine.overflowText limit node := by
  have hfront : ∃ c ≠ 'E', text.toList.head? = some c := by
    cases h with
    | ended => exact ⟨'F', by decide, head?_toList_append (head?_toList_append (by decide))⟩
    | stopped => exact ⟨'N', by decide, head?_toList_append (head?_toList_append (by decide))⟩
    | unrouted => exact ⟨'N', by decide, head?_toList_append (head?_toList_append (by decide))⟩
    | cycle =>
      refine ⟨'L', by decide, ?_⟩
      unfold Turn.cycleText
      iterate 4 apply head?_toList_append
      decide
    | cancelled =>
      refine ⟨'R', by decide, ?_⟩
      unfold Attempt.cancelledText
      iterate 7 apply head?_toList_append
      decide
  rintro rfl
  obtain ⟨c, hc, hh⟩ := hfront
  rw [Engine.head?_overflowText] at hh
  exact hc (Option.some.inj hh).symm

namespace Attempt

open Doing

variable {executor : Executor} {node : Node}

/-- What an attempt at a node may tell: its own message, or that a wait was cancelled. -/
def Told (outcome : Outcome) (text : String) : Prop :=
  outcome.errorMessage = some text ∨ OwnText text

theorem speaks_once (he : (executor node).Frank) : (once executor node).Speaks Told := by
  intro scene
  refine ensures_bind.mpr (ensures_attempt.mpr (Ensures.mono ?_ (he scene)))
  rintro (fault | outcome) scene' h
  · obtain hk | ⟨_, _, ⟨⟩, -⟩ := h
    simpa only [ensures_bind, Work.ensures_note, Work.ensures_emitFor, ensures_pure]
      using Or.inl hk
  · obtain hk | ⟨_, text, ⟨⟩, hf, hh, ht, hm⟩ := h
    · exact Or.inl hk
    · exact Or.inr ⟨outcome, text, rfl, hf, hh, Or.inl ht, hm⟩

theorem speaks_cancel (attempt most : Nat) {outcome : Outcome} (hf : outcome.status = .failure) :
    (cancel node attempt most outcome).Speaks Told := by
  intro scene
  simp only [cancel, ensures_bind, Work.ensures_note, Work.ensures_change, ensures_pure]
  exact Or.inr ⟨{ outcome with halts := true }, cancelledText node attempt most outcome, rfl, hf,
    rfl, Or.inr (.cancelled node attempt most outcome), rfl⟩

/-- An outcome that calls for more has told nothing, so only the last attempt can. -/
theorem speaks_series (he : (executor node).Frank) (policy : RetryPolicy) (left made : Nat)
    (delay : Double) : (series executor node policy left made delay).Speaks Told := by
  induction left generalizing made delay with
  | zero => exact speaks_once he
  | succ left ih =>
    intro scene
    refine ensures_bind.mpr (Ensures.mono ?_ (speaks_once he scene))
    rintro (fault | outcome) scene' h
    · obtain hk | ⟨_, _, ⟨⟩, -⟩ := h
      exact Or.inl hk
    dsimp only
    cases hc : callsForMore outcome with
    | false =>
      obtain hk | ⟨_, text, ⟨⟩, hf, hh, ht, hm⟩ := h
      · exact Or.inl hk
      · exact Or.inr ⟨outcome, text, rfl, hf, hh, ht, hm⟩
    | true =>
      simp only [callsForMore, Bool.and_eq_true, beq_iff_eq, Bool.not_eq_true'] at hc
      obtain hk | ⟨_, _, ⟨⟩, -, hh, -⟩ := h
      · have hrest : Work.Speaks Told (do
            announce node (made + 1) policy.maxRetries delay outcome
            if ← ask (.pause delay) then cancel node (made + 1) policy.maxRetries outcome
            else series executor node policy left (made + 1) (Double.mul delay policy.multiplier)) :=
          Work.speaks_bind (keeps_announce _ _ _ _) fun _ =>
            Work.speaks_bind (Work.keeps_ask _) fun _ =>
              Work.speaks_ite (speaks_cancel _ _ hc.1) (ih _ _)
        refine Ensures.mono ?_ (hrest scene')
        rintro result scene'' (hk' | hs)
        · exact Or.inl (hk'.trans hk)
        · exact Or.inr hs
      · rw [hc.2] at hh
        cases hh

theorem speaks_run (he : (executor node).Frank) : (run executor node).Speaks Told :=
  Work.speaks_bind (Work.keeps_noteAll _) fun _ =>
    Work.speaks_bind (Work.keeps_ofExcept _) fun policy => speaks_series he policy _ _ _

end Attempt

/-- Where a message can come from: the outcome of a visit, or the engine itself. -/
def Walk.Source (visits : List Visit) (text : String) : Prop :=
  OwnText text ∨ ∃ v ∈ visits, v.outcome.errorMessage = some text

/-- A message is there exactly for a walk that failed, and it has a source. -/
structure Walk.Explained (walk : Walk) (message : Option String) : Prop where
  isSome : message.isSome = walk.failed
  source : walk.ending ≠ some .overflow → ∀ text, message = some text → Source walk.visits text

namespace Turn

variable {graph : FlowGraph} {node : Node} {outcome : Outcome} {walk : Walk} {context : Context}

theorem isSome_failUnlessFailed (text : String) :
    (context.failUnlessFailed outcome text).errorMessage.isSome = true := by
  unfold Context.failUnlessFailed
  split
  · assumption
  · rfl

theorem source_failUnlessFailed {visits : List Visit} {text : String} (ht : OwnText text)
    (hv : ⟨node, outcome⟩ ∈ visits)
    (hc : ∀ told, context.errorMessage = some told → Walk.Source visits told) :
    ∀ told, (context.failUnlessFailed outcome text).errorMessage = some told →
      Walk.Source visits told := by
  intro told
  unfold Context.failUnlessFailed
  split
  · exact hc told
  · intro h
    obtain rfl := Option.some.inj h
    cases hm : outcome.errorMessage.filter (!·.isEmpty) with
    | none => exact Or.inl ht
    | some own => exact Or.inr ⟨_, hv, (Option.filter_eq_some_iff.mp hm).1⟩

theorem explained_queueNext {next : List Node} {turn : Turn}
    (h : turn.walk.Explained turn.context.errorMessage) :
    (queueNext node outcome next turn).walk.Explained
      (queueNext node outcome next turn).context.errorMessage := by
  unfold queueNext
  split
  · exact ⟨h.isSome, h.source⟩
  · rename_i entered _
    refine ⟨rfl, ?_⟩
    rintro - _ ⟨⟩
    exact Or.inl (.cycle node entered)

theorem explained_goOn (he : walk.ending = none) (hv : ⟨node, outcome⟩ ∈ walk.visits)
    (h : walk.Explained context.errorMessage) :
    (goOn graph node outcome walk context).walk.Explained
      (goOn graph node outcome walk context).context.errorMessage := by
  unfold goOn
  dsimp only
  split
  · exact explained_queueNext ⟨isSome_failUnlessFailed _, fun _ =>
      source_failUnlessFailed (.unrouted node) hv (h.source (by simp [he]))⟩
  · exact explained_queueNext h

/-- A message that is there before the turn belongs to a walk that failed, or the outcome halts the
run with it. -/
theorem explained_after (he : walk.ending = none)
    (hsome : context.errorMessage.isSome = walk.failed ∨ context.errorMessage.isSome = true ∧
      outcome.status = .failure ∧ outcome.halts = true)
    (hsource : ∀ text, context.errorMessage = some text →
      Walk.Source (walk.visits ++ [⟨node, outcome⟩]) text) :
    (after graph node outcome walk context).walk.Explained
      (after graph node outcome walk context).context.errorMessage := by
  have hv : (⟨node, outcome⟩ : Visit) ∈ walk.visits ++ [⟨node, outcome⟩] := by simp
  unfold after
  split
  · unfold atEnd
    split
    · exact ⟨isSome_failUnlessFailed _, fun _ => source_failUnlessFailed (.ended node) hv hsource⟩
    · rename_i hs
      refine ⟨?_, fun _ => hsource⟩
      rcases hsome with hk | ⟨-, hf, -⟩
      · exact hk
      · exact absurd (beq_iff_eq.mpr hf) hs
  · split
    · exact ⟨isSome_failUnlessFailed _, fun _ => source_failUnlessFailed (.stopped node) hv hsource⟩
    · rename_i hh
      refine explained_goOn he hv ⟨?_, fun _ => hsource⟩
      rcases hsome with hk | ⟨-, -, hh'⟩
      · exact hk
      · exact absurd hh' hh

end Turn

namespace Engine

open Doing

variable {engine : Engine} {graph : FlowGraph} {executionId : String} {payload : Entries Value}
  {place : Place}

theorem errorMessage_opening (graph : FlowGraph) (executionId : String) (payload : Entries Value)
    (now : Instant) : (opening graph executionId payload now).errorMessage = none := by
  unfold opening Context.noteLoops Context.seed
  cases (startOf graph).saveName?.filter isSaveName <;> rfl

theorem errorMessage_recorded (node : Node) (outcome : Outcome) (context : Context) :
    (recorded node outcome context).errorMessage = context.errorMessage := by
  obtain ⟨nodes, aliases, nex, hr, -⟩ := recorded_eq node outcome context
  rw [hr]

theorem Discreet.follow_explained (hd : engine.Discreet) :
    (engine.follow graph executionId payload).Yields place fun passage _ =>
      passage.walk.Explained passage.context.errorMessage := by
  -- The executor may write the message before the turn notes the failure that goes with it.
  refine Yields.mono ?_
    (yields_follow (fun walk context => walk.Explained context.errorMessage) ?_ ?_ ?_)
  · rintro passage _ ⟨now, context, hx, -, hc⟩
    rw [hc]
    exact hx
  · intro now
    rw [errorMessage_opening]
    exact ⟨rfl, fun _ _ h => by cases h⟩
  · rintro node queue walk scene he hq hx
    refine yields_visit fun executor hg => ?_
    refine Ensures.mono ?_ (Attempt.speaks_run (hd.of_get hg) _)
    rintro _ scene' h outcome rfl
    refine Turn.explained_after he ?_ ?_
    · rw [errorMessage_recorded]
      rcases h with hk | ⟨_, text, ⟨⟩, hf, hh, -, hm⟩
      · exact Or.inl (hk ▸ hx.isSome)
      · exact Or.inr ⟨by rw [hm]; rfl, hf, hh⟩
    · intro told
      rw [errorMessage_recorded]
      intro ht
      rcases h with hk | ⟨_, text, ⟨⟩, -, -, hsource, hm⟩
      · rcases hx.source (by simp [he]) told (hk ▸ ht) with hown | ⟨v, hv, hvm⟩
        · exact Or.inl hown
        · exact Or.inr ⟨v, List.mem_append_left _ hv, hvm⟩
      · obtain rfl := Option.some.inj (hm.symm.trans ht)
        rcases hsource with hown | hown
        · exact Or.inr ⟨⟨node, outcome⟩, by simp, hown⟩
        · exact Or.inl hown
  · rintro node queue walk context text - - -
    exact ⟨rfl, fun h => absurd rfl h⟩

end Engine

end FlowEngine
