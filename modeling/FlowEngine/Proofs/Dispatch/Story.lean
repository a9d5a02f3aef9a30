import FlowEngine.Proofs.Dispatch.Agree
import FlowEngine.Proofs.Dispatch.Finalised
import FlowEngine.Proofs.Dispatch.Starts

/-!
# What is told of each execution

Whatever is kept of an execution that has ended comes from a run of its flow. What that run asked is a
part of what is asked around it, without anything in between.

The id of an execution is drawn, the execution is kept, and it ends: where it is kept once more, or
where it is handed on to a run in the background. The row of whoever drew the id tells all of this in
order, and the row of the run in the background tells the end.
-/

namespace FlowEngine

open Doing Exchange

theorem Exchange.kept_plain {e : Exchange} (h : e.request.IsPlain) : kept [e] = [] := by
  obtain ⟨request, reply⟩ := e
  cases request <;> first | rfl | exact absurd h id

namespace Dispatcher

variable {d : Dispatcher} {engine : Engine} {graph : FlowGraph} {execution execution' : Execution}
  {payload : Entries Value} {flow startedBy reason : String} {place : Place}
  {t t' inner : List Exchange} {outcome : Except Fault Context}

/-- A part of a row is the course of a run that is waited for and gives this execution. -/
def Accounted (d : Dispatcher) (t : List Exchange) (execution : Execution) : Prop :=
  ∃ own payload place, own <:+: t ∧
    (d.run execution.flowId payload execution.triggeredBy).Path place own (.ok execution) place

theorem Accounted.mono (h : d.Accounted t execution) (ht : t <:+: t') : d.Accounted t' execution := by
  obtain ⟨own, payload, place, hown, hp⟩ := h
  exact ⟨own, payload, place, hown.trans ht, hp⟩

theorem Conducted.inner_infix
    (h : Conducted engine graph execution payload place inner outcome t execution') :
    inner <:+: t := by
  obtain ⟨reply, reply', told, told', told'', now, ht, ht', ht'', hp⟩ := h
  have hinner : inner <:+: told ++ inner := (List.suffix_append told inner).isInfix
  have hmore : told ++ inner <:+: told ++ inner ++ told' := (List.prefix_append _ told').isInfix
  exact List.infix_cons (hinner.trans (hmore.trans (List.prefix_append _ _).isInfix))

theorem Refused.asked (h : Refused flow startedBy reason t execution) :
    execution.flowId = flow ∧ execution.triggeredBy = startedBy := by
  obtain ⟨now, he⟩ := h.execution_eq
  exact ⟨congrArg Execution.flowId he, congrArg Execution.triggeredBy he⟩

theorem Begun.asked (h : Begun flow startedBy t execution) :
    execution.flowId = flow ∧ execution.triggeredBy = startedBy ∧ execution.status = .running := by
  cases h
  exact ⟨rfl, rfl, rfl⟩

theorem Begun.kept (h : Begun flow startedBy t execution) : kept t = [execution] := by
  cases h
  rfl

theorem Conducted.asked
    (h : Conducted engine graph execution payload place inner outcome t execution') :
    execution'.id = execution.id ∧ execution'.flowId = execution.flowId ∧
      execution'.triggeredBy = execution.triggeredBy := by
  obtain ⟨now, rfl⟩ := h.execution_eq
  exact ⟨rfl, rfl, rfl⟩

theorem Started.kept (h : d.Started flow payload startedBy place t execution) :
    kept t = [execution] ∧ execution.status = .running := by
  obtain ⟨record, hf, hb⟩ := h
  rw [kept_append, hb.kept]
  exact ⟨rfl, hb.asked.2.2⟩

theorem Started.running (h : d.Started flow payload startedBy place t execution) :
    ∀ execution' ∈ Exchange.kept t, execution'.status = .running := by
  intro execution' he
  obtain ⟨hkept, hrunning⟩ := h.kept
  rw [hkept, List.mem_singleton] at he
  rw [he, hrunning]

/-- The number of runs that may be nested is no part of what a run is. -/
theorem path_run_of_spare (hd : d.Respects Request.IsPlain) (hkeyed : d.Keyed) {room : Nat}
    {result : Except Fault Execution} (hroom : d.spare place.chain ≤ room)
    (hp : (d.runWithin room flow payload startedBy).Path place t result place) :
    (d.run flow payload startedBy).Path place t result place := by
  have hagree := (Alike.refl (P := fun _ => True) hd).agree_runWithin hkeyed
    (fun _ _ _ _ _ _ => trivial) trivial hroom (d.spare_le_room _) flow payload startedBy
  have hsame := (hagree place rfl).1
  unfold Doing.Path at hp ⊢
  rwa [run, ← hsame]

/-- All final executions that are kept inside some runs are accounted for, where there is room for each
flow that is not running yet. -/
theorem allows_accounted (hd : d.Respects Request.IsPlain) (hkeyed : d.Keyed) :
    d.Allows Request.IsPlain fun room c t => d.spare c ≤ room →
      ∀ execution ∈ kept t, execution.status ≠ .running → d.Accounted t execution where
  closed room c := by
    refine ⟨?_, ?_, ?_, ?_⟩
    · simp [Exchange.kept]
    · intro t t' h h' hroom execution he hs
      rw [kept_append, List.mem_append] at he
      rcases he with he | he
      · exact (h hroom execution he hs).mono (List.prefix_append _ _).isInfix
      · exact (h' hroom execution he hs).mono (List.suffix_append _ _).isInfix
    · intro e hplain _ execution he
      rw [kept_plain hplain] at he
      cases he
    · rintro event reply - - execution ⟨⟩
  ran {room flow payload startedBy place t result place'} hpath hc := by
    intro hroom execution he hs
    obtain rfl : place' = place := place_runWithin hpath
    have hrun := path_run_of_spare hd hkeyed hroom hpath
    cases hc with
    | unknown | unordered => cases he
    | refused hf hr ht =>
      rw [ht.kept_eq, List.mem_singleton] at he
      subst he
      obtain ⟨rfl, rfl⟩ := ht.asked
      exact ⟨t, payload, place', List.infix_rfl, hrun⟩
    | @conducted _ _ _ _ _ graph begun first inner outcome t' last hf hr hb hi hc =>
      rw [kept_append, hb.kept, hc.kept_eq, List.singleton_append] at he
      obtain ⟨hflow, hby, hrunning⟩ := hb.asked
      rcases List.mem_cons.mp he with rfl | he
      · exact absurd hrunning hs
      · rcases List.mem_append.mp he with he | he
        · have hspare := spare_snoc hf (not_mem_of_refusal? hr)
          have hinner := hi (by rw [hkeyed flow graph hf]; omega) execution he hs
          exact hinner.mono (hc.inner_infix.trans (List.suffix_append _ _).isInfix)
        · rw [List.mem_singleton.mp he]
          obtain ⟨-, hflow', hby'⟩ := hc.asked
          refine ⟨_, payload, place', List.infix_rfl, ?_⟩
          rw [hflow', hby', hflow, hby]
          exact hrun
  started hs _ := fun _ execution he hfinal => absurd (hs.running execution he) hfinal

end Dispatcher

inductive Mark where
  | drew
  | kept (execution : Execution)
  | handed
  deriving DecidableEq

namespace Exchange

def mark? (id : String) : Exchange → Option Mark
  | ⟨.freshId, drawn⟩ => if drawn = id then some .drew else none
  | ⟨.keep execution, _⟩ => if execution.id = id then some (.kept execution) else none
  | ⟨.start start, _⟩ => if start.execution.id = id then some .handed else none
  | _ => none

/-- What a row tells of the execution with this id, in order. -/
def story (id : String) (t : List Exchange) : List Mark := t.filterMap (mark? id)

variable {t t' : List Exchange} {id : String} {e : Exchange}

@[simp] theorem story_append : story id (t ++ t') = story id t ++ story id t' :=
  List.filterMap_append

theorem story_plain (h : e.request.IsPlain) : story id [e] = [] := by
  obtain ⟨request, reply⟩ := e
  cases request <;> first | rfl | exact absurd h not_false

theorem AreLog.story (h : AreLog t) : story id t = [] := filterMap_areLog (fun _ => rfl) h

theorem drew_mem_story : Mark.drew ∈ story id t ↔ id ∈ drawn t := by
  unfold story drawn
  rw [List.mem_filterMap, List.mem_filterMap]
  refine exists_congr fun e => and_congr_right fun _ => ?_
  obtain ⟨request, reply⟩ := e
  cases request <;> simp [mark?, drawn?]

section Cons

variable {other : String} {execution : Execution} {start : Start} {record : Log.Record}
  {event : Event} {reply : Option String} {now : Instant} {u : Unit}

@[simp] theorem story_nil : story id [] = [] := rfl

@[simp] theorem story_freshId : story id (⟨.freshId, other⟩ :: t) =
    if other = id then .drew :: story id t else story id t := by
  by_cases hid : other = id <;> simp [story, mark?, hid]

@[simp] theorem story_keep : story id (⟨.keep execution, u⟩ :: t) =
    if execution.id = id then .kept execution :: story id t else story id t := by
  by_cases hid : execution.id = id <;> simp [story, mark?, hid]

@[simp] theorem story_start : story id (⟨.start start, u⟩ :: t) =
    if start.execution.id = id then .handed :: story id t else story id t := by
  by_cases hid : start.execution.id = id <;> simp [story, mark?, hid]

@[simp] theorem story_log : story id (⟨.log record, u⟩ :: t) = story id t := rfl

@[simp] theorem story_publish : story id (⟨.publish event, reply⟩ :: t) = story id t := rfl

@[simp] theorem story_now : story id (⟨.now, now⟩ :: t) = story id t := rfl

end Cons

end Exchange

open Exchange

/-- An execution whose run was refused, since its flow was running around it or too many runs were: it
never ran, and has failed as soon as it is kept. -/
def Dispatcher.IsRefused (d : Dispatcher) (execution : Execution) : Prop :=
  ∃ reason now,
    execution =
      refusedExecution execution.id execution.flowId execution.triggeredBy reason now ∧
    ((∃ chain, execution.flowId ∈ chain ∧ reason = circularText execution.flowId chain) ∨
      reason = d.depthText)

theorem Dispatcher.IsRefused.isFinal {d : Dispatcher} {execution : Execution}
    (h : d.IsRefused execution) : IsFinal execution := by
  obtain ⟨reason, now, he, -⟩ := h
  rw [he]
  exact ⟨Or.inr rfl, rfl, rfl⟩

theorem Dispatcher.Refused.isRefused {d : Dispatcher} {flow startedBy reason : String}
    {t : List Exchange} {execution : Execution} (h : Refused flow startedBy reason t execution)
    (hr : (∃ chain, flow ∈ chain ∧ reason = circularText flow chain) ∨ reason = d.depthText) :
    d.IsRefused execution := by
  obtain ⟨now, he⟩ := h.execution_eq
  obtain ⟨rfl, rfl⟩ := h.asked
  exact ⟨reason, now, he, hr⟩

/-- What is told by whoever draws the id of an execution: nothing, or all until it has ended or is
handed on. -/
inductive Told (d : Dispatcher) : List Mark → Prop where
  | untold : Told d []
  | refused {execution : Execution} (h : d.IsRefused execution) : Told d [.drew, .kept execution]
  | ended {first last : Execution} (hr : first.status = .running) (h : Dispatcher.IsFinal last) :
      Told d [.drew, .kept first, .kept last]
  | handed {first : Execution} (hr : first.status = .running) :
      Told d [.drew, .kept first, .handed]

section Told

variable {d : Dispatcher}

theorem Told.eq_nil {story : List Mark} (h : Told d story) (hn : .drew ∉ story) : story = [] := by
  cases h with
  | untold => rfl
  | refused | ended | handed => exact absurd List.mem_cons_self hn

theorem Told.eq_drew {mark : Mark} {rest : List Mark} (h : Told d (mark :: rest)) : mark = .drew := by
  cases h <;> rfl

theorem Told.of_handed {before rest : List Mark} (h : Told d (before ++ .handed :: rest)) :
    rest = [] ∧ ∃ first, before = [.drew, .kept first] := by
  generalize hall : before ++ .handed :: rest = all at h
  have hmem : Mark.handed ∈ all := by simp [← hall]
  cases h with
  | untold => cases hmem
  | refused | ended => simp at hmem
  | @handed first hr =>
    rcases before with _ | ⟨m₁, _ | ⟨m₂, _ | ⟨m₃, before⟩⟩⟩
    · simp at hall
    · simp at hall
    · obtain ⟨rfl, rfl, rfl⟩ : m₁ = .drew ∧ m₂ = .kept first ∧ rest = [] := by simpa using hall
      exact ⟨rfl, first, rfl⟩
    · simp at hall

end Told

namespace Dispatcher

variable {d : Dispatcher} {engine : Engine} {graph : FlowGraph} {execution execution' : Execution}
  {payload : Entries Value} {flow startedBy reason id : String} {place : Place}
  {t t' inner : List Exchange} {outcome : Except Fault Context} {start : Start}

theorem Begun.story (h : Begun flow startedBy t execution) :
    story id t = if execution.id = id then [.drew, .kept execution] else [] := by
  obtain ⟨id', now⟩ := h
  rw [story_freshId, story_now, story_keep, story_nil]
  by_cases hid : id' = id <;> simp [Execution.begun, hid]

theorem Refused.story (h : Refused flow startedBy reason t execution) :
    story id t = if execution.id = id then [.drew, .kept execution] else [] := by
  obtain ⟨record, now, id', reply, told, ht⟩ := h
  rw [story_log, story_now, story_freshId, story_keep, story_publish, ht.story]
  by_cases hid : id' = id <;> simp [refusedExecution, hid]

theorem Conducted.story
    (h : Conducted engine graph execution payload place inner outcome t execution') :
    story id t = story id inner ++ if execution.id = id then [.kept execution'] else [] := by
  obtain ⟨reply, reply', told, told', told'', now, ht, ht', ht'', hp⟩ := h
  rw [story_publish, story_append, story_append, story_append, ht.story, ht'.story, List.nil_append,
    List.append_nil, story_now, story_keep, story_publish, ht''.story]
  rfl

theorem Started.story (h : d.Started flow payload startedBy place t execution) :
    story id t = if execution.id = id then [.drew, .kept execution, .handed] else [] := by
  obtain ⟨record, hf, hb⟩ := h
  rw [story_append, hb.story, story_start, story_log, story_nil]
  by_cases hid : execution.id = id <;> simp [hid]

/-- A row in which no id is drawn twice tells of each execution as whoever draws its id has to. -/
def Tells (d : Dispatcher) (t : List Exchange) : Prop := (drawn t).Nodup → ∀ id, Told d (story id t)

theorem closed_tells : Closed Request.IsPlain d.Tells where
  nil := fun _ _ => .untold
  append {t t'} h h' := by
    intro hn id
    rw [drawn_append] at hn
    obtain ⟨hn₁, hn₂, hapart⟩ := List.nodup_append.mp hn
    rw [story_append]
    -- Only one of the two rows draws an id, and the other one does not tell of it.
    by_cases hid : id ∈ Exchange.drawn t
    · have hnil : story id t' = [] := by
        apply (h' hn₂ id).eq_nil
        intro hdrew
        exact hapart id hid id (drew_mem_story.mp hdrew) rfl
      rw [hnil, List.append_nil]
      exact h hn₁ id
    · have hnil : story id t = [] := by
        apply (h hn₁ id).eq_nil
        exact fun hdrew => hid (drew_mem_story.mp hdrew)
      rw [hnil, List.nil_append]
      exact h' hn₂ id
  one h := by
    intro _ id
    rw [story_plain h]
    exact .untold
  told _ := fun _ _ => .untold

theorem Started.tells (h : d.Started flow payload startedBy place t execution) : d.Tells t := by
  intro _ id
  rw [h.story]
  split
  · exact .handed h.kept.2
  · exact .untold

theorem allows_tells (d : Dispatcher) : d.Allows Request.IsPlain fun _ _ => d.Tells where
  closed _ _ := closed_tells
  ran {room flow payload startedBy place t result place'} _ hc := by
    intro hn id
    cases hc with
    | unknown | unordered => exact .untold
    | refused hf hr ht =>
      rw [ht.story]
      split
      · apply Told.refused (ht.isRefused _)
        rcases hr with hr | ⟨-, -, hdepth⟩
        · exact (of_refusal? hr).imp_left fun h => ⟨_, h⟩
        · exact Or.inr hdepth
      · exact .untold
    | @conducted _ _ _ _ _ graph begun first inner outcome t' last hf hr hb hi hc =>
      rw [drawn_append, hb.drawn, hc.tells.2, List.singleton_append, List.nodup_cons] at hn
      rw [story_append, hb.story, hc.story]
      have htold := hi hn.2 id
      by_cases hid : first.id = id
      · have hnil : Exchange.story id inner = [] := by
          apply htold.eq_nil
          intro hdrew
          exact hn.1 (hid ▸ drew_mem_story.mp hdrew)
        rw [if_pos hid, if_pos hid, hnil]
        exact .ended hb.asked.2.2 hc.isFinal
      · rw [if_neg hid, if_neg hid, List.nil_append, List.append_nil]
        exact htold
  started hs _ := hs.tells

section Ordinary

variable (hd : d.Ordinary)

include hd

theorem tells_carryOut {trigger : Trigger} {place place' : Place}
    {result : Except Fault (Option Execution)}
    (hp : (d.carryOut trigger).Path place t result place') : d.Tells t := by
  apply d.allows_tells.of_carryOut hd.respects Request.basic_isPlain hp
  intro flow payload startedBy execution hs
  exact hs.tells

/-- A run in the background tells the end of its execution, and all of those whose ids it draws. -/
theorem story_background {flow : String} (hf : d.flow flow = .ok start.flow)
    {result : Except Fault Execution × Place} (hp : (d.background start).Path t result)
    (hn : (drawn t).Nodup) (hown : start.execution.id ∉ drawn t) (id : String) :
    (start.execution.id = id ∧ ∃ last, IsFinal last ∧ story id t = [.kept last]) ∨
      start.execution.id ≠ id ∧ Told d (story id t) := by
  obtain ⟨inner, outcome, execution, hinner, hc, -⟩ :=
    d.allows_tells.of_background hd.respects Request.basic_isPlain hf hp
  rw [hc.tells.2] at hn hown
  rw [hc.story]
  have htold := hinner hn id
  by_cases hid : start.execution.id = id
  · have hnil : Exchange.story id inner = [] := by
      apply htold.eq_nil
      intro hdrew
      exact hown (hid ▸ drew_mem_story.mp hdrew)
    rw [if_pos hid, hnil]
    exact Or.inl ⟨hid, execution, hc.isFinal, rfl⟩
  · rw [if_neg hid, List.append_nil]
    exact Or.inr ⟨hid, htold⟩

end Ordinary

end Dispatcher

end FlowEngine
