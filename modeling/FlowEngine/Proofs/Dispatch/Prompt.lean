import FlowEngine.Dispatch.Schedule
import FlowEngine.Proofs.Dispatch.Agree
import FlowEngine.Proofs.Dispatch.Starts
import FlowEngine.Proofs.Work.Compatible

/-!
# Runs that are never held up

Flows whose nodes pass on, write, reshape, compare, loop, end or call such flows need nothing from
outside but the time and ids. Their runs go the same way whenever they see the same instants, ids and
ends of waits, children that they wait for included.

All that runs of calm flows ask is replied to at once: they do not wait at the gate, and not for
scripts. So such a run goes to its end in the turn in which it begins.
-/

namespace FlowEngine

open Doing Exchange

/-- A node that needs nothing from outside, or calls another flow. A branch may not ask a script. -/
inductive Node.IsCalm (node : Node) : Prop where
  | plain (h : node.type ∈ ([.start, .variable, .mapper, .loop, .subFlow, .success, .failure] :
      List NodeType))
  | branch (h : node.type = .decision)
      (hmode : (Text.lower (Text.trim (node.textSetting "mode" "simple")) == "code") = false)

instance (node : Node) : Decidable node.IsCalm :=
  decidable_of_iff
    (node.type ∈ ([.start, .variable, .mapper, .loop, .subFlow, .success, .failure] :
        List NodeType) ∨
      node.type = .decision ∧
        (Text.lower (Text.trim (node.textSetting "mode" "simple")) == "code") = false)
    ⟨fun h => h.elim .plain fun h => .branch h.1 h.2, fun h => by
      cases h with
      | plain h => exact Or.inl h
      | branch h hmode => exact Or.inr ⟨h, hmode⟩⟩

theorem Step.aloof_of_isCalm {node : Node} (h : node.IsCalm) (settings : Settings)
    (connectors : Entries Connector) (launcher : Option CallFlow.Launcher)
    (ht : node.type ≠ .subFlow) {executor : Executor}
    (hx : executor? settings connectors launcher node.type = some executor) :
    (executor node).Aloof Request.IsCalm := by
  have hlog : ∀ record, Request.IsCalm (.log record) := Request.basic_isCalm.log
  cases h with
  | plain hmem =>
    cases hn : node.type <;> rw [hn] at hx hmem ht
    case start => exact Option.some.inj hx ▸ aloof_start node
    case «variable» => exact Option.some.inj hx ▸ aloof_setVariables node hlog
    case mapper => exact Option.some.inj hx ▸ aloof_reshape node hlog
    case loop => exact Option.some.inj hx ▸ Loop.aloof_execute node hlog
    case success => exact Option.some.inj hx ▸ aloof_finish node hlog _
    case failure => exact Option.some.inj hx ▸ aloof_finish node hlog _
    case subFlow => exact absurd rfl ht
    all_goals exact absurd hmem (by decide)
  | branch hn hmode =>
    rw [hn] at hx
    obtain rfl := Option.some.inj hx
    unfold Branch.execute
    rw [if_neg (by simpa using hmode)]
    exact Branch.aloof_compare node hlog

namespace Dispatcher

/-- The executors are those that come with the engine, and no node of a known flow needs anything from
outside. -/
structure Calm (d : Dispatcher) : Prop where
  executors : ∃ settings connectors, ∀ launcher type,
    (d.registry launcher).find? type = Step.executor? settings connectors launcher type
  nodes : ∀ id graph, d.flow id = .ok graph → ∀ node ∈ graph.nodes, node.IsCalm

variable {d : Dispatcher}

theorem Calm.respects (h : d.Calm) : d.Respects Request.IsCalm := by
  obtain ⟨settings, connectors, hfind⟩ := h.executors
  intro R hR l l' hl id graph hf node hnode
  have hcalm : node.IsCalm := by
    rcases hnode with hnode | rfl
    · exact h.nodes id graph hf node hnode
    · exact .plain List.mem_cons_self
  apply related_of_rel
  rw [hfind, hfind]
  apply related_executor hR Request.basic_isCalm.log hl
  intro ht executor hx
  exact Step.aloof_of_isCalm hcalm settings connectors _ ht hx

theorem Calm.ordinary (h : d.Calm) : d.Ordinary := by
  obtain ⟨settings, connectors, hfind⟩ := h.executors
  exact ⟨settings, connectors, fun type => Or.inl fun launcher => hfind launcher type⟩

end Dispatcher

theorem Exchange.AreLog.seen {t : List Exchange} (h : AreLog t) : seen t = [] := by
  unfold Exchange.seen
  rw [List.filter_eq_nil_iff]
  intro e he
  obtain ⟨record, rfl⟩ := h e he
  exact Bool.false_ne_true

theorem Work.compatible_replays :
    Work.Compatible Request.IsCalm fun x _ => ∀ scene : Scene, (x scene).Replays where
  aloof hx scene := by
    apply Dialogue.replays_of_calm
    intro t result hp
    exact (hx scene t result.1 result.2 hp).1
  bind {_ _ x _ _ _} hx hf scene := by
    apply replays_then (hx scene)
    intro t a scene' hp
    exact hf a ⟨scene, t, scene', hp⟩ scene'
  attempt hx scene := replays_attempt (hx scene)
  emit _ scene := by
    apply Dialogue.replays_of_unseen (b := (.ok (), scene))
    rintro t ⟨result, scene'⟩ hp
    obtain ⟨reply, told, rfl, ht, rfl, rfl⟩ := Work.path_emit hp
    exact ⟨ht.seen, rfl⟩

namespace Act

theorem replays_note (line : Log.Line) (place : Place) : (note line place).Replays :=
  Dialogue.replays_ask (Or.inr (inferInstanceAs (Subsingleton Unit))) fun _ =>
    Dialogue.replays_done _

theorem replays_emit (id : String) (event : Event) (place : Place) : (emit id event place).Replays := by
  apply Dialogue.replays_of_unseen (b := (.ok (), place))
  rintro t ⟨result, place'⟩ hp
  obtain ⟨reply, told, rfl, ht, rfl, rfl⟩ := path_emit hp
  exact ⟨ht.seen, rfl⟩

end Act

theorem Doing.replays_ofExcept {σ α : Type} (first : Except Fault α) (s : σ) :
    ((Doing.ofExcept first : Doing σ α) s).Replays := Dialogue.replays_done _

namespace Dispatcher

variable {engine : Engine} {graph : FlowGraph} {flow startedBy reason : String} {place : Place}
  {payload : Entries Value} {execution : Execution} {d : Dispatcher}

theorem replays_keep (execution : Execution) (place : Place) :
    ((Doing.ask (.keep execution) : Act Unit) place).Replays :=
  replays_ask_told (inferInstanceAs (Subsingleton Unit))

theorem replays_begin (flow startedBy : String) (place : Place) :
    (begin flow startedBy place).Replays := by
  refine replays_then (replays_ask_seen rfl) fun _ id place' _ => ?_
  refine replays_then (replays_ask_seen rfl) fun _ now place' _ => ?_
  exact replays_then (replays_keep _ _) fun _ _ place' _ => Dialogue.replays_done _

theorem replays_refuse (flow startedBy reason : String) (place : Place) :
    (refuse flow startedBy reason place).Replays := by
  refine replays_then (Act.replays_note _ _) fun _ _ place' _ => ?_
  refine replays_then (replays_ask_seen rfl) fun _ now place' _ => ?_
  refine replays_then (replays_ask_seen rfl) fun _ id place' _ => ?_
  refine replays_then (replays_keep _ _) fun _ _ place' _ => ?_
  exact replays_then (Act.replays_emit _ _ _) fun _ _ place' _ => Dialogue.replays_done _

theorem replays_execute (h : ∀ scene, (engine.perform graph scene).Replays) (id : String) :
    (engine.execute graph id payload place).Replays := by
  refine replays_then (Dialogue.replays_ask (Or.inl rfl) fun now => ?_)
    fun _ _ _ _ => Dialogue.replays_done _
  exact (h _).bind fun _ _ _ => Dialogue.replays_done _

theorem replays_runInside (h : ∀ scene, (engine.perform graph scene).Replays) :
    (runInside engine graph execution payload place).Replays := by
  refine Dialogue.Replays.bind ?_ fun _ _ _ => Dialogue.replays_done _
  refine replays_then (Act.replays_emit _ _ _) fun _ _ place' _ => ?_
  refine replays_then (replays_attempt ?_) fun _ ended place' _ => ?_
  · exact replays_then (replays_execute h _) fun _ _ _ _ => replays_ofExcept _ _
  · cases ended with
    | ok ending => exact Dialogue.replays_done _
    | error fault =>
      refine replays_then ?_ fun _ _ _ _ => Dialogue.replays_done _
      exact Dialogue.replays_ask (Or.inr (inferInstanceAs (Subsingleton Unit)))
        fun _ => Dialogue.replays_done _

theorem replays_conduct (h : ∀ scene, (engine.perform graph scene).Replays) :
    (conduct engine graph execution payload place).Replays := by
  refine replays_then (replays_runInside h) fun _ ending place' _ => ?_
  refine replays_then (replays_ask_seen rfl) fun _ now place' _ => ?_
  refine replays_then (replays_keep _ _) fun _ _ place' _ => ?_
  refine replays_then (Act.replays_emit _ _ _) fun _ _ place' _ => ?_
  exact replays_then (Act.replays_note _ _) fun _ _ _ _ => Dialogue.replays_done _

theorem replays_start (d : Dispatcher) (flow : String) (payload : Entries Value) (startedBy : String)
    (place : Place) : (d.start flow payload startedBy place).Replays := by
  refine replays_then (replays_ofExcept _ _) fun _ graph place' _ => ?_
  refine replays_then (replays_begin _ _ _) fun _ execution place' _ => ?_
  refine replays_then (replays_ofExcept (.ok place') _) fun _ here place' _ => ?_
  refine replays_then (replays_ask_told (inferInstanceAs (Subsingleton Unit)))
    fun _ _ place' _ => ?_
  exact replays_then (Act.replays_note _ _) fun _ _ _ _ => Dialogue.replays_done _

theorem replays_startDetached (d : Dispatcher) (flow : String) (payload : Entries Value)
    (startedBy : String) (place : Place) :
    (d.startDetached flow payload startedBy place).Replays := by
  refine replays_then (replays_ofExcept (.ok place) _) fun _ here place' _ => ?_
  refine replays_then (replays_ofExcept _ _) fun _ isReached place' _ => ?_
  cases isReached with
  | true => exact Act.replays_note _ _
  | false =>
    rw [if_neg Bool.false_ne_true]
    cases d.flow flow with
    | error fault => exact Act.replays_note _ _
    | ok graph =>
      exact replays_then (replays_start _ _ _ _ _) fun _ _ _ _ => Dialogue.replays_done _

theorem Calm.replays_perform (hd : d.Calm)
    {run : String → Entries Value → String → Act Execution}
    (hrun : ∀ flow payload startedBy place, (run flow payload startedBy place).Replays)
    (hf : d.flow flow = .ok graph) (scene : Scene) :
    ((d.engineWith run).perform graph scene).Replays := by
  have hact : ∀ {α : Type} {x : Act α}, (∀ place, (x place).Replays) →
      ∀ scene, (Work.act x scene).Replays :=
    fun h scene => (h scene.place).bind fun _ _ _ => Dialogue.replays_done _
  have hlauncher : Step.CallFlow.Launcher.Related (fun x _ => ∀ scene : Scene, (x scene).Replays)
      (d.launcher run) (d.launcher run) := by
    refine ⟨rfl, ?_, ?_⟩
    · intro flow payload startedBy
      apply hact
      intro place
      exact replays_then (hrun flow payload startedBy place) fun _ _ _ _ => Dialogue.replays_done _
    · intro flow payload startedBy
      exact hact (d.replays_startDetached flow payload startedBy)
  exact Engine.related_perform Work.compatible_replays Request.basic_isCalm rfl
    (hd.respects _ Work.compatible_replays _ _ hlauncher flow graph hf) scene

theorem replays_runWithin_of {room : Nat}
    (h : ∀ left graph, room = left + 1 → d.flow flow = .ok graph →
      ∀ scene, ((d.engineWith (d.runWithin left)).perform graph scene).Replays) :
    (d.runWithin room flow payload startedBy place).Replays := by
  obtain ⟨graph, hf⟩ | hf := d.flow_cases flow
  · cases hr : d.refusal? place.chain flow with
    | error fault =>
      rw [runWithin_unordered hf hr]
      exact Dialogue.replays_done _
    | ok refusal =>
      cases refusal with
      | some reason =>
        rw [runWithin_refused hf hr]
        exact replays_refuse _ _ _ _
      | none =>
        cases room with
        | zero =>
          rw [runWithin_roomless hf hr]
          exact replays_refuse _ _ _ _
        | succ left =>
          rw [runWithin_granted hf hr]
          refine replays_then (replays_begin _ _ _) fun _ execution place' _ => ?_
          exact replays_conduct (h left graph rfl hf)
  · rw [runWithin_unknown hf]
    exact Dialogue.replays_done _

/-- A run that is waited for goes the same way whenever it sees the same. -/
theorem Calm.replays_runWithin (hd : d.Calm) (room : Nat) (flow : String)
    (payload : Entries Value) (startedBy : String) (place : Place) :
    (d.runWithin room flow payload startedBy place).Replays := by
  -- By how many runs may still be nested in it.
  induction room generalizing flow payload startedBy place with
  | zero =>
    apply replays_runWithin_of
    intro left graph hroom
    cases hroom
  | succ room ih =>
    apply replays_runWithin_of
    rintro left graph ⟨⟩ hf scene
    exact hd.replays_perform ih hf scene

theorem Calm.replays_background (hd : d.Calm) {start : Start} {id : String}
    (hf : d.flow id = .ok start.flow) : (d.background start).Replays :=
  replays_conduct (hd.replays_perform (hd.replays_runWithin d.room) hf)

end Dispatcher

open Dispatcher

@[simp]
def Request.IsPrompt : Request → Prop
  | .hold | .script .. => False
  | _ => True

namespace Request

variable {request : Request}

theorem IsPrompt.isHold (h : request.IsPrompt) : request.isHold = false := by
  cases request <;> first | rfl | exact absurd h id

theorem IsPrompt.turns (h : request.IsPrompt) (reply : request.Reply) : request.turns reply = 0 := by
  cases request <;> first | rfl | exact absurd h id

theorem IsCalm.isPrompt (h : request.IsCalm) : request.IsPrompt := by
  cases request <;> trivial

end Request

def Exchange.ArePrompt (t : List Exchange) : Prop := ∀ e ∈ t, e.request.IsPrompt

namespace Exchange

variable {t t' : List Exchange} {e : Exchange}

theorem arePrompt_nil : ArePrompt [] := by simp [ArePrompt]

theorem arePrompt_cons : ArePrompt (e :: t) ↔ e.request.IsPrompt ∧ ArePrompt t :=
  List.forall_mem_cons

theorem arePrompt_append : ArePrompt (t ++ t') ↔ ArePrompt t ∧ ArePrompt t' :=
  List.forall_mem_append

theorem AreLog.arePrompt (h : AreLog t) : ArePrompt t := by
  intro e he
  obtain ⟨record, rfl⟩ := h e he
  trivial

end Exchange

def Dialogue.IsPrompt {α : Type} : Dialogue α → Prop
  | .done _ => True
  | .ask request next => request.IsPrompt ∧ ∀ reply, (next reply).IsPrompt

namespace Dialogue

variable {α σ : Type} {x : Dialogue α}

theorem isPrompt_of_path (h : ∀ t a, x.Path t a → ArePrompt t) : x.IsPrompt := by
  induction x with
  | done a => trivial
  | ask request next ih =>
    constructor
    · obtain ⟨t, a, hp⟩ := exists_path (next request.someReply)
      exact (arePrompt_cons.mp (h _ a (.ask request next _ hp))).1
    · intro reply
      apply ih
      intro t a hp
      exact (arePrompt_cons.mp (h _ a (.ask request next reply hp))).2

/-- What is never held up goes to its end. -/
theorem IsPrompt.advance_eq {serve : (r : Request) → σ → r.Reply × σ} (h : x.IsPrompt)
    (isOpen : Bool) (s : σ) :
    x.advance serve isOpen s = (.ended (x.run serve s).1, (x.run serve s).2) := by
  induction x generalizing s with
  | done a => rfl
  | ask request next ih =>
    obtain ⟨hr, hnext⟩ := h
    rw [advance, hr.isHold, Bool.false_and, if_neg Bool.false_ne_true]
    simp only [hr.turns]
    exact ih _ (hnext _) _

end Dialogue

namespace Dispatcher

variable {d : Dispatcher} {engine : Engine} {graph : FlowGraph} {execution execution' : Execution}
  {payload : Entries Value} {flow startedBy reason : String} {place : Place}
  {t inner : List Exchange} {outcome : Except Fault Context} {start : Start}

theorem Begun.arePrompt (h : Begun flow startedBy t execution) : ArePrompt t := by
  cases h
  simp [ArePrompt]

theorem Refused.arePrompt (h : Refused flow startedBy reason t execution) : ArePrompt t := by
  obtain ⟨record, now, id, reply, told, ht⟩ := h
  simp [arePrompt_cons, ht.arePrompt]

theorem Conducted.arePrompt
    (h : Conducted engine graph execution payload place inner outcome t execution')
    (hinner : ArePrompt inner) : ArePrompt t := by
  obtain ⟨reply, reply', told, told', told'', now, ht, ht', ht'', hp⟩ := h
  simp [arePrompt_cons, arePrompt_append, ht.arePrompt, ht'.arePrompt,
    ht''.arePrompt, hinner]

theorem Started.arePrompt (h : d.Started flow payload startedBy place t execution) :
    ArePrompt t := by
  obtain ⟨record, hf, hb⟩ := h
  simp [arePrompt_cons, arePrompt_append, hb.arePrompt, arePrompt_nil]

theorem allows_arePrompt (d : Dispatcher) : d.Allows Request.IsCalm fun _ _ => ArePrompt where
  closed _ _ := by
    refine ⟨arePrompt_nil, fun h h' => arePrompt_append.mpr ⟨h, h'⟩, ?_, ?_⟩
    · intro e he
      exact arePrompt_cons.mpr ⟨he.isPrompt, arePrompt_nil⟩
    · intro event reply _
      exact arePrompt_cons.mpr ⟨trivial, arePrompt_nil⟩
  ran _ hc := by
    cases hc with
    | unknown | unordered => exact arePrompt_nil
    | refused hf hr ht => exact ht.arePrompt
    | conducted hf hr hb hi hc => exact arePrompt_append.mpr ⟨hb.arePrompt, hc.arePrompt hi⟩
  started hs _ := hs.arePrompt

section Calm

variable (hd : d.Calm)

include hd

theorem Calm.isPrompt_carryOut (trigger : Trigger) (place : Place) :
    (d.carryOut trigger place).IsPrompt := by
  apply Dialogue.isPrompt_of_path
  rintro t ⟨result, place'⟩ hp
  apply d.allows_arePrompt.of_carryOut hd.respects Request.basic_isCalm hp
  intro flow payload startedBy execution hs
  exact hs.arePrompt

theorem Calm.isPrompt_background {id : String} (hf : d.flow id = .ok start.flow) :
    (d.background start).IsPrompt := by
  apply Dialogue.isPrompt_of_path
  rintro t ⟨result, place⟩ hp
  obtain ⟨inner, outcome, execution, hinner, hc, -⟩ :=
    d.allows_arePrompt.of_background hd.respects Request.basic_isCalm hf hp
  exact hc.arePrompt hinner

end Calm

end Dispatcher

end FlowEngine
