import FlowEngine.Outside.Alone
import FlowEngine.Proofs.Dispatch.Nested
import FlowEngine.Proofs.Step.Plain

/-!
# Triggers that are waited for

Success, failure of a node, a fault of the engine, a snapshot that cannot be taken, and refusal take
different ways through a trigger. All of them end with one execution that is final, kept as it is
given back, and told of.
-/

namespace FlowEngine

open Doing

namespace Exchange

def event? : Exchange → Option Event
  | ⟨.publish event, _⟩ => some event
  | _ => none

def kept? : Exchange → Option Execution
  | ⟨.keep execution, _⟩ => some execution
  | _ => none

def drawn? : Exchange → Option String
  | ⟨.freshId, id⟩ => some id
  | _ => none

def published (t : List Exchange) : List Event := t.filterMap event?

def kept (t : List Exchange) : List Execution := t.filterMap kept?

def drawn (t : List Exchange) : List String := t.filterMap drawn?

/-- The events of a row that tell of the beginning and the end of an execution. -/
def marks (id : String) (t : List Exchange) : List Event :=
  (published t).filter fun event => event.kind.marksRun && event.executionId == some id

variable {t t' : List Exchange} {id : String} {e : Exchange}

@[simp] theorem published_append : published (t ++ t') = published t ++ published t' :=
  List.filterMap_append

@[simp] theorem kept_append : kept (t ++ t') = kept t ++ kept t' := List.filterMap_append

@[simp] theorem drawn_append : drawn (t ++ t') = drawn t ++ drawn t' := List.filterMap_append

@[simp] theorem marks_append : marks id (t ++ t') = marks id t ++ marks id t' := by
  simp [marks]

theorem AreLog.published (h : AreLog t) : published t = [] := filterMap_areLog (fun _ => rfl) h

theorem AreLog.kept (h : AreLog t) : kept t = [] := filterMap_areLog (fun _ => rfl) h

theorem AreLog.drawn (h : AreLog t) : drawn t = [] := filterMap_areLog (fun _ => rfl) h

/-- Each event of a row that tells of an execution tells of one whose id was drawn in the row. -/
def Tidy (t : List Exchange) : Prop :=
  ∀ event ∈ published t, event.kind.marksRun = true → ∃ id ∈ drawn t, event.executionId = some id

theorem Tidy.append (h : Tidy t) (h' : Tidy t') : Tidy (t ++ t') := by
  intro event he hm
  rw [published_append, List.mem_append] at he
  rw [drawn_append]
  rcases he with he | he
  · obtain ⟨id, hd, hid⟩ := h event he hm
    exact ⟨id, List.mem_append_left _ hd, hid⟩
  · obtain ⟨id, hd, hid⟩ := h' event he hm
    exact ⟨id, List.mem_append_right _ hd, hid⟩

theorem published_plain (h : e.request.IsPlain) : published [e] = [] := by
  obtain ⟨request, reply⟩ := e
  cases request <;> first | rfl | exact absurd h id

theorem closed_tidy : Closed Request.IsPlain Tidy where
  nil := by simp [Tidy, published]
  append := Tidy.append
  one h := by simp [Tidy, published_plain h]
  told h := by
    rintro event' he hm
    have hsame : event' = _ := List.mem_singleton.mp he
    rw [hsame, h] at hm
    cases hm

/-- Where no id is drawn twice, a tidy row tells nothing of an id that was drawn before it. -/
theorem Tidy.marks_eq_nil (h : Tidy t) (hn : id ∉ drawn t) : marks id t = [] := by
  rw [marks, List.filter_eq_nil_iff]
  intro event he hm
  obtain ⟨hmarks, hid⟩ := Bool.and_eq_true_iff.mp hm
  obtain ⟨other, hd, ho⟩ := h event he hmarks
  rw [beq_iff_eq.mp hid] at ho
  exact hn (Option.some.inj ho ▸ hd)

end Exchange

open Exchange

namespace Dispatcher

variable {d : Dispatcher} {engine : Engine} {graph : FlowGraph} {execution execution' : Execution}
  {payload : Entries Value} {flow startedBy reason : String} {place : Place}
  {t inner : List Exchange} {outcome : Except Fault Context}

theorem Begun.published (h : Begun flow startedBy t execution) : published t = [] := by
  cases h
  rfl

theorem Begun.drawn (h : Begun flow startedBy t execution) : drawn t = [execution.id] := by
  cases h
  rfl

theorem marksRun_event (ending : Ending) (flow id : String) :
    (ending.event flow id).kind.marksRun = true ∧ (ending.event flow id).executionId = some id := by
  unfold Ending.event
  cases ending.error <;> exact ⟨rfl, rfl⟩

theorem Refused.tells (h : Refused flow startedBy reason t execution) :
    published t = [Event.executionFailed (some flow) (some execution.id) reason] ∧
      drawn t = [execution.id] := by
  obtain ⟨record, now, id, reply, told, ht⟩ := h
  constructor
  · change _ :: published told = _
    rw [ht.published]
    rfl
  · change _ :: drawn told = _
    rw [ht.drawn]
    rfl

theorem Conducted.tells
    (h : Conducted engine graph execution payload place inner outcome t execution') :
    published t = Event.executionStarted (some graph.id) (some execution.id) payload ::
        (published inner ++ [(endingOf outcome).event graph.id execution.id]) ∧
      drawn t = drawn inner := by
  obtain ⟨reply, reply', told, told', told'', now, ht, ht', ht'', hp⟩ := h
  constructor
  · change _ :: published (told ++ inner ++ told' ++ _) = _
    rw [published_append, published_append, published_append, ht.published, ht'.published]
    change _ :: ([] ++ published inner ++ [] ++ _ :: published told'') = _
    rw [ht''.published, List.nil_append, List.append_nil]
  · change drawn (told ++ inner ++ told' ++ _) = _
    rw [drawn_append, drawn_append, drawn_append, ht.drawn, ht'.drawn]
    change [] ++ drawn inner ++ [] ++ drawn told'' = _
    rw [ht''.drawn, List.nil_append, List.append_nil, List.append_nil]

theorem Refused.kept_eq (h : Refused flow startedBy reason t execution) : kept t = [execution] := by
  obtain ⟨record, now, id, reply, told, ht⟩ := h
  change _ :: kept told = _
  rw [ht.kept]

theorem Conducted.kept_eq
    (h : Conducted engine graph execution payload place inner outcome t execution') :
    kept t = kept inner ++ [execution'] := by
  obtain ⟨reply, reply', told, told', told'', now, ht, ht', ht'', hp⟩ := h
  change kept (told ++ inner ++ told' ++ _) = _
  rw [kept_append, kept_append, kept_append, ht.kept, ht'.kept]
  change [] ++ kept inner ++ [] ++ _ :: kept told'' = _
  rw [ht''.kept, List.nil_append, List.append_nil]

theorem allows_tidy (d : Dispatcher) : d.Allows Request.IsPlain fun _ _ => Tidy where
  closed _ _ := closed_tidy
  ran {room flow payload startedBy place t result place'} _ hc := by
    cases hc with
    | unknown | unordered => exact closed_tidy.nil
    | refused hf hr ht =>
      intro event he _
      rw [ht.tells.1] at he
      rw [ht.tells.2, List.mem_singleton.mp he]
      exact ⟨_, List.mem_singleton_self _, rfl⟩
    | @conducted room flow payload startedBy place graph t₁ execution inner outcome t' _ hf hr hb hi hc =>
      intro event he hm
      rw [published_append, hb.published, List.nil_append, hc.tells.1] at he
      rw [drawn_append, hb.drawn, hc.tells.2]
      rcases List.mem_cons.mp he with rfl | he
      · exact ⟨_, List.mem_cons_self, rfl⟩
      · rcases List.mem_append.mp he with he | he
        · obtain ⟨id, hd, hid⟩ := hi event he hm
          exact ⟨id, List.mem_cons_of_mem _ hd, hid⟩
        · rw [List.mem_singleton.mp he]
          exact ⟨_, List.mem_cons_self, (marksRun_event _ _ _).2⟩
  started {room flow payload startedBy place t execution} hs _ := by
    obtain ⟨record, hf, hb⟩ := hs
    intro event he
    rw [published_append, hb.published] at he
    cases he

end Dispatcher

namespace Site

variable {σ : Type} {o : Outside σ} {site : Site σ} {t : List Exchange}

theorem connect_keeps (c : Connector) :
    (connect o c site).2.executions = site.executions ∧
      (connect o c site).2.audience = site.audience ∧ (connect o c site).2.starts = site.starts := by
  unfold connect
  split
  · exact ⟨rfl, rfl, rfl⟩
  · split
    · exact ⟨rfl, rfl, rfl⟩
    · split <;> exact ⟨rfl, rfl, rfl⟩

theorem query_keeps (c : Connector) (statement queryType : String) :
    (query o c statement queryType site).2.executions = site.executions ∧
      (query o c statement queryType site).2.audience = site.audience ∧
      (query o c statement queryType site).2.starts = site.starts := by
  have h : (connect o c site).2.executions = site.executions ∧
      (connect o c site).2.audience = site.audience ∧ (connect o c site).2.starts = site.starts :=
    connect_keeps c
  unfold query
  split
  · rename_i text site' hc
    rw [hc] at h
    exact h
  · rename_i fault site' hc
    rw [hc] at h
    exact h
  · rename_i address site' hc
    rw [hc] at h
    exact h

theorem executions_serve (e : Exchange) :
    (serve o e.request site).2.executions = (kept [e]).foldl ExecutionStore.save site.executions := by
  obtain ⟨request, reply⟩ := e
  cases request with
  | publish event =>
    change (publish event site).2.executions = site.executions
    unfold publish
    split <;> rfl
  | query c statement queryType => exact (query_keeps c statement queryType).1
  | _ => rfl

theorem executions_after :
    (Dialogue.after (serve o) site t).executions = (kept t).foldl ExecutionStore.save site.executions := by
  induction t generalizing site with
  | nil => rfl
  | cons e rest ih =>
    refine ih.trans ?_
    rw [executions_serve, ← List.foldl_append, ← kept_append, List.singleton_append]

theorem audience_serve {bus : Bus} (h : site.audience = .bus bus) (e : Exchange) :
    (serve o e.request site).2.audience = .bus ((published [e]).foldl Bus.publish bus) := by
  obtain ⟨request, reply⟩ := e
  cases request with
  | publish event =>
    simp only [serve, publish, h]
    rfl
  | query c statement queryType => exact (query_keeps c statement queryType).2.1.trans h
  | _ => exact h

theorem audience_after {bus : Bus} (h : site.audience = .bus bus) :
    (Dialogue.after (serve o) site t).audience = .bus ((published t).foldl Bus.publish bus) := by
  induction t generalizing site bus with
  | nil => exact h
  | cons e rest ih =>
    refine (ih (audience_serve h e)).trans ?_
    rw [← List.foldl_append, ← published_append, List.singleton_append]

end Site

namespace Dispatcher

variable {σ : Type} {engine : Engine} {graph : FlowGraph} {execution execution' : Execution}
  {payload : Entries Value} {flow startedBy reason : String} {place : Place}
  {t inner : List Exchange} {outcome : Except Fault Context}

/-- A run was refused: its execution failed with the reason, and only that was told of it. -/
structure RefusedAt (d : Dispatcher) (flow : String) (place : Place) (t : List Exchange)
    (execution : Execution) (reason : String) : Prop where
  refusal : d.refusal? place.chain flow = .ok (some reason)
  status : execution.status = .failure
  snapshot : execution.snapshot = some (Execution.crashSnapshot reason)
  marks : (drawn t).Nodup →
    marks execution.id t = [Event.executionFailed (some flow) (some execution.id) reason]

/-- A run was conducted, and the engine came back with an outcome: a context or a fault. The run
succeeded if the engine came back with a context of that status whose snapshot can be taken; a fault,
of the engine or of the snapshot, is all that is kept of a run that ended in it. -/
structure ConductedAt (d : Dispatcher) (o : Outside σ) (flow : String) (graph : FlowGraph)
    (payload : Entries Value) (place : Place) (t : List Exchange) (execution : Execution)
    (outcome : Except Fault Context) : Prop where
  permitted : d.refusal? place.chain flow = .ok none
  engine : ∃ room site₁ after site₂, room + 1 = d.room ∧
    Site.perform o ⟨place.trace, place.chain ++ [graph.id]⟩
      ((d.engineWith (d.runWithin room)).execute graph execution.id payload) site₁ =
        ((outcome, after), site₂)
  success : execution.status = .success ↔
    ∃ context v, outcome = .ok context ∧ context.status = .success ∧ context.written = .ok v
  written : ∀ context v, outcome = .ok context → context.written = .ok v →
    execution.snapshot = some v.fieldsOf ∧ ((drawn t).Nodup → marks execution.id t =
      [Event.executionStarted (some graph.id) (some execution.id) payload,
        Event.executionCompleted (some graph.id) (some execution.id) execution.status.name])
  crashed : ∀ fault, (outcome >>= Context.written) = .error fault →
    execution.snapshot = some (Execution.crashSnapshot fault.message) ∧
      ((drawn t).Nodup → marks execution.id t =
        [Event.executionStarted (some graph.id) (some execution.id) payload,
          Event.executionFailed (some graph.id) (some execution.id) fault.message])

section Ending

variable {context : Context} {fault : Fault} {v : Value}

theorem endingOf_of_written (ho : outcome = .ok context) (hw : context.written = .ok v) :
    endingOf outcome =
      ⟨if context.status = .success then .success else .failure, v.fieldsOf, none⟩ := by
  subst ho
  have hof : Ending.ofContext context =
      .ok ⟨if context.status = .success then .success else .failure, v.fieldsOf, none⟩ := by
    rw [Ending.ofContext, hw]
    rfl
  have hbind : ((.ok context : Except Fault Context) >>= Ending.ofContext) = _ := hof
  rw [endingOf, hbind]

theorem endingOf_of_fault (h : (outcome >>= Context.written) = .error fault) :
    endingOf outcome = Ending.ofFault fault := by
  have hbind : (outcome >>= Ending.ofContext) = .error fault := by
    cases outcome with
    | error fault' =>
      cases h
      rfl
    | ok context =>
      have hw : context.written = .error fault := h
      change Ending.ofContext context = _
      rw [Ending.ofContext, hw]
      rfl
  rw [endingOf, hbind]

theorem ending_cases (outcome : Except Fault Context) :
    (∃ context v, outcome = .ok context ∧ context.written = .ok v) ∨
      ∃ fault, (outcome >>= Context.written) = .error fault := by
  cases outcome with
  | error fault => exact Or.inr ⟨fault, rfl⟩
  | ok context =>
    cases hw : context.written with
    | ok v => exact Or.inl ⟨context, v, rfl, hw⟩
    | error fault => exact Or.inr ⟨fault, hw⟩

theorem status_endingOf (outcome : Except Fault Context) :
    (endingOf outcome).status = .success ∨ (endingOf outcome).status = .failure := by
  rcases ending_cases outcome with ⟨context, v, ho, hw⟩ | ⟨fault, h⟩
  · rw [endingOf_of_written ho hw]
    dsimp only
    split
    · exact Or.inl rfl
    · exact Or.inr rfl
  · rw [endingOf_of_fault h]
    exact Or.inr rfl

theorem status_endingOf_iff (outcome : Except Fault Context) :
    (endingOf outcome).status = .success ↔
      ∃ context v, outcome = .ok context ∧ context.status = .success ∧ context.written = .ok v := by
  rcases ending_cases outcome with ⟨context, v, rfl, hw⟩ | ⟨fault, h⟩
  · rw [endingOf_of_written rfl hw]
    constructor
    · intro hs
      refine ⟨context, v, rfl, ?_, hw⟩
      by_contra hn
      simp [hn] at hs
    · rintro ⟨_, _, ⟨⟩, hs, -⟩
      simp [hs]
  · rw [endingOf_of_fault h]
    constructor
    · rintro ⟨⟩
    · rintro ⟨context, v, rfl, -, hw⟩
      have herror : context.written = .error fault := h
      rw [hw] at herror
      cases herror

end Ending

theorem Conducted.marks_eq
    (h : Conducted engine graph execution payload place inner outcome t execution')
    (hi : Tidy inner) (hn : execution.id ∉ drawn inner) :
    marks execution.id t = [Event.executionStarted (some graph.id) (some execution.id) payload,
      (endingOf outcome).event graph.id execution.id] := by
  obtain ⟨hm, hid⟩ := marksRun_event (endingOf outcome) graph.id execution.id
  have hnil : (published inner).filter
      (fun event => event.kind.marksRun && event.executionId == some execution.id) = [] :=
    hi.marks_eq_nil hn
  rw [Exchange.marks, h.tells.1, List.filter_cons_of_pos (by simp [Event.executionStarted,
    EventKind.marksRun]), List.filter_append, hnil, List.filter_cons_of_pos (by simp [hm, hid])]
  rfl

theorem Conducted.execution_eq
    (h : Conducted engine graph execution payload place inner outcome t execution') :
    ∃ now, execution' = finished execution (endingOf outcome) now := by
  obtain ⟨_, _, _, _, _, now, _, _, _, _⟩ := h
  exact ⟨now, rfl⟩

/-- Where replies are those of a site, the engine is served by it from some moment on. -/
theorem Conducted.served {o : Outside σ} {site : Site σ}
    (h : Conducted engine graph execution payload place inner outcome t execution')
    (hs : Dialogue.Served (Site.serve o) site t) :
    ∃ site₁ after site₂, Site.perform o { place with chain := place.chain ++ [graph.id] }
      (engine.execute graph execution.id payload) site₁ = ((outcome, after), site₂) := by
  obtain ⟨reply, reply', told, told', told'', now, ht, ht', ht'', after, hp⟩ := h
  have hrest := (Dialogue.served_append.mp (Dialogue.served_append.mp hs.2).1).1
  exact ⟨_, after, _, hp.run_eq (Dialogue.served_append.mp hrest).2⟩

/-- What the execution of a trigger is like when it is given back. -/
structure IsFinal (execution : Execution) : Prop where
  status : execution.status = .success ∨ execution.status = .failure
  completedAt : execution.completedAt.isSome = true
  snapshot : execution.snapshot.isSome = true

theorem Refused.execution_eq (h : Refused flow startedBy reason t execution) :
    ∃ now, execution = refusedExecution execution.id flow startedBy reason now := by
  obtain ⟨record, now, id, reply, told, ht⟩ := h
  exact ⟨now, rfl⟩

theorem Refused.isFinal (h : Refused flow startedBy reason t execution) : IsFinal execution := by
  obtain ⟨now, he⟩ := h.execution_eq
  rw [he]
  exact ⟨Or.inr rfl, rfl, rfl⟩

theorem Conducted.isFinal
    (h : Conducted engine graph execution payload place inner outcome t execution') :
    IsFinal execution' := by
  obtain ⟨now, rfl⟩ := h.execution_eq
  exact ⟨status_endingOf outcome, rfl, rfl⟩

theorem get?_after {o : Outside σ} {site : Site σ} {before : List Execution}
    (h : kept t = before ++ [execution]) :
    (Dialogue.after (Site.serve o) site t).executions.get? execution.id = some execution := by
  rw [Site.executions_after, h, List.foldl_append]
  exact Entries.get?_put_self _ _ _

theorem Refused.refusedAt {d : Dispatcher} (h : Refused flow startedBy reason t execution)
    (hr : d.refusal? place.chain flow = .ok (some reason)) :
    d.RefusedAt flow place t execution reason := by
  obtain ⟨now, he⟩ := h.execution_eq
  refine ⟨hr, congrArg Execution.status he, congrArg Execution.snapshot he, fun _ => ?_⟩
  rw [Exchange.marks, h.tells.1]
  exact List.filter_eq_self.mpr fun event hm => by
    rw [List.mem_singleton.mp hm]
    simp [Event.executionFailed, EventKind.marksRun]

theorem Conducted.conductedAt {d : Dispatcher} {o : Outside σ} {site : Site σ} {room : Nat}
    {begun : List Exchange} (hroom : d.room = room + 1)
    (hr : d.refusal? place.chain flow = .ok none) (hb : Begun flow startedBy begun execution)
    (hi : Tidy inner)
    (h : Conducted (d.engineWith (d.runWithin room)) graph execution payload place inner outcome t
      execution')
    (hs : Dialogue.Served (Site.serve o) site (begun ++ t)) :
    d.ConductedAt o flow graph payload place (begun ++ t) execution' outcome := by
  have hmarks : (drawn (begun ++ t)).Nodup → marks execution.id (begun ++ t) =
      [Event.executionStarted (some graph.id) (some execution.id) payload,
        (endingOf outcome).event graph.id execution.id] := by
    intro hn
    rw [drawn_append, hb.drawn, h.tells.2] at hn
    have hnil : marks execution.id begun = [] := by
      rw [Exchange.marks, hb.published]
      rfl
    rw [marks_append, hnil, List.nil_append]
    exact h.marks_eq hi (List.nodup_cons.mp hn).1
  obtain ⟨site₁, after, site₂, hengine⟩ := h.served (Dialogue.served_append.mp hs).2
  obtain ⟨now, rfl⟩ := h.execution_eq
  constructor
  · exact hr
  · exact ⟨room, site₁, after, site₂, hroom.symm, hengine⟩
  · exact status_endingOf_iff outcome
  · intro context v ho hw
    have he := endingOf_of_written ho hw
    refine ⟨by simp only [finished, he], fun hn => ?_⟩
    rw [finished, hmarks hn, he]
    rfl
  · intro fault hfault
    have he := endingOf_of_fault hfault
    refine ⟨by simp only [finished, he]; rfl, fun hn => ?_⟩
    rw [finished, hmarks hn, he]
    rfl

/-- Where the depth has an order to counts, the course of a known flow ends with one execution, the
last that is kept. -/
theorem Course.finalised {d : Dispatcher} {o : Outside σ} {site : Site σ}
    {result : Except Fault Execution} (hdepth : ∃ most, Limit.least ">=" d.maxDepth = .ok most)
    (hc : d.Course (fun _ _ => Tidy) d.room flow payload startedBy place t result)
    (hs : Dialogue.Served (Site.serve o) site t) (hf : d.flow flow = .ok graph) :
    ∃ execution before, result = .ok execution ∧ IsFinal execution ∧
      kept t = before ++ [execution] ∧
      ((∃ reason, d.RefusedAt flow place t execution reason) ∨
        ∃ outcome, d.ConductedAt o flow graph payload place t execution outcome) := by
  generalize hroom : d.room = room at hc
  cases hc with
  | unknown hf' =>
    rw [hf] at hf'
    cases hf'
  | unordered _ hr =>
    obtain ⟨most, hm⟩ := hdepth
    simp only [refusal?, Limit.reached, hm] at hr
    split at hr <;> cases hr
  | @refused _ _ _ _ _ _ reason _ execution _ hr ht =>
    refine ⟨execution, [], rfl, ht.isFinal, ht.kept_eq, Or.inl ⟨reason, ht.refusedAt ?_⟩⟩
    rcases hr with hr | ⟨-, rfl, -⟩
    · exact hr
    · -- A dispatcher without room for any run knows no flow.
      have hnone : d.flow flow = .error (.flowNotFound flow) := by
        rw [Dispatcher.flow, List.length_eq_zero_iff.mp hroom]
        rfl
      rw [hf] at hnone
      cases hnone
  | @conducted room _ _ _ _ graph' begun execution inner outcome t' execution' hf' hr hb hi hc =>
    have hgraph : graph' = graph := Except.ok.inj (hf'.symm.trans hf)
    subst hgraph
    refine ⟨execution', kept begun ++ kept inner, rfl, hc.isFinal, ?_,
      Or.inr ⟨outcome, hc.conductedAt hroom hr hb hi hs⟩⟩
    rw [kept_append, hc.kept_eq, List.append_assoc]

/-- Every trigger that is waited for is finalised, whoever is told of events and whatever the engine
comes back with. A flow that is not known is told at once, and nothing is done for it. For any other
one execution is given back, which is final and kept as it is. Where no id is drawn twice, two events
mark it in its turn: that it was started, and then that it was completed or failed; of a run that is
refused only the second. -/
theorem run_finalised (d : Dispatcher) (o : Outside σ) (flow : String) (payload : Entries Value)
    (startedBy : String) (place : Place) (site : Site σ) (hd : d.Ordinary)
    (hdepth : ∃ most, Limit.least ">=" d.maxDepth = .ok most) :
    (∀ fault, d.flow flow = .error fault → fault = .flowNotFound flow ∧
      Site.perform o place (d.run flow payload startedBy) site = ((.error fault, place), site)) ∧
    ∀ graph, d.flow flow = .ok graph → ∃ execution site',
      Site.perform o place (d.run flow payload startedBy) site = ((.ok execution, place), site') ∧
      IsFinal execution ∧ site'.executions.get? execution.id = some execution ∧
      (let t := (d.run flow payload startedBy place).transcript (Site.serve o) site
      (∀ bus, site.audience = .bus bus →
        site'.audience = .bus ((published t).foldl Bus.publish bus)) ∧
      ((∃ reason, d.RefusedAt flow place t execution reason) ∨
        ∃ outcome, d.ConductedAt o flow graph payload place t execution outcome)) := by
  constructor
  · intro fault hf
    obtain ⟨graph, hg⟩ | hn := d.flow_cases flow
    · rw [hf] at hg
      cases hg
    · rw [hf] at hn
      cases hn
      refine ⟨rfl, ?_⟩
      have hrun : d.run flow payload startedBy place = .done (.error (.flowNotFound flow), place) := by
        unfold run runWithin
        rw [hf]
        rfl
      rw [Site.perform, hrun]
      rfl
  · intro graph hf
    have hserved := Dialogue.served_transcript (Site.serve o) (d.run flow payload startedBy place) site
    have hpath := Dialogue.path_transcript (Site.serve o) (d.run flow payload startedBy place) site
    obtain ⟨hcourse, hplace⟩ :=
      d.allows_tidy.course hd.respects Request.basic_isPlain hpath
    obtain ⟨execution, before, hresult, hfinal, hkept, hcase⟩ := hcourse.finalised hdepth hserved hf
    have hperform : Site.perform o place (d.run flow payload startedBy) site =
        ((.ok execution, place), Dialogue.after (Site.serve o) site
          ((d.run flow payload startedBy place).transcript (Site.serve o) site)) :=
      Prod.ext (Prod.ext hresult hplace) (Dialogue.run_snd _ _ _)
    exact ⟨execution, _, hperform, hfinal, get?_after hkept, fun bus hb => Site.audience_after hb,
      hcase⟩

end Dispatcher

namespace Finalised

def flow : FlowGraph := .plain [.plainStart] []

def dispatcher : Dispatcher := .standard [flow] 5

def site : Site Alone := .fresh ⟨⟨2024, 1, 2, 3, 4, 5, 0, some 0⟩, mkStdGen 0⟩ .nobody

/-- Its run gives an execution that is final and found; that of another flow does nothing. -/
theorem run_flow :
    (∃ execution site',
      Site.perform Alone.outside .outside (dispatcher.run "g" [] "API") site =
        ((.ok execution, .outside), site') ∧
      Dispatcher.IsFinal execution ∧ site'.executions.get? execution.id = some execution) ∧
    Site.perform Alone.outside .outside (dispatcher.run "ghost" [] "API") site =
      ((.error (.flowNotFound "ghost"), .outside), site) := by
  have hdepth : ∃ most, Limit.least ">=" dispatcher.maxDepth = .ok most := ⟨5, rfl⟩
  have hordinary : dispatcher.Ordinary := Dispatcher.standard_ordinary _ _
  constructor
  · have h := (dispatcher.run_finalised Alone.outside "g" [] "API" .outside site hordinary hdepth).2
      flow rfl
    obtain ⟨execution, site', hp, hfinal, hkept, -⟩ := h
    exact ⟨execution, site', hp, hfinal, hkept⟩
  · exact ((dispatcher.run_finalised Alone.outside "ghost" [] "API" .outside site hordinary
      hdepth).1 _ rfl).2

def nested : Nat → Value
  | 0 => .null
  | depth + 1 => .object [("x", nested depth)]

/-- With a payload too deep to be written the engine comes back with a context that succeeded, but the
execution fails. -/
theorem run_nested :
    let payload : Entries Value := [("x", nested 300)]
    let begun := Site.perform Alone.outside .outside (Dispatcher.begin "g" "API") site
    ((Site.perform Alone.outside ⟨[], ["g"]⟩
      ((dispatcher.engineWith (dispatcher.runWithin 0)).execute flow
        ((begun.1.1.toOption.map (·.id)).getD "") payload)
      begun.2).1.1.toOption.map (·.status) = some .success) ∧
    (Site.perform Alone.outside .outside (dispatcher.run "g" payload "API") site).1.1.toOption.map
      (fun execution => (execution.status, execution.snapshot)) =
        some (.failure, some (Execution.crashSnapshot "Maximum serialization depth exceeded")) := by
  decide +kernel

end Finalised

end FlowEngine
