import FlowEngine.Proofs.Work.Compatible
import FlowEngine.Step.Standard

/-!
# What executors ask for

Executors write to the log, and some turn to a service, a model or a script. Only the executor that
calls other flows does more, and all of that through its launcher. So a compatible relation between
launchers is one between the executors.
-/

namespace FlowEngine

open Doing Work

/-- The requests among these are those of executors that turn to something outside. -/
structure Request.Served (p : Request → Prop) : Prop where
  log : ∀ record, p (.log record)
  send : ∀ request, p (.send request)
  query : ∀ connector statement queryType, p (.query connector statement queryType)
  complete : ∀ call, p (.complete call)
  script : ∀ language code input, p (.script language code input)

namespace Step

variable {γ : Type} {view : Place → γ} {p : Request → Prop} (node : Node)

theorem aloof_start : AloofFrom view p (start node) := aloof_pure _

section Log

variable (hlog : ∀ record, p (.log record))

include hlog

theorem aloof_finish (status : Status) : AloofFrom view p (finish status node) := by
  refine aloof_bind aloof_scope fun scope => ?_
  exact aloof_bind (aloof_resolveAll hlog _ _) fun response => aloof_pure _

theorem aloof_reshape : AloofFrom view p (reshape node) := by
  refine aloof_bind aloof_scope fun scope => ?_
  exact aloof_bind (aloof_resolveAll hlog _ _) fun output => aloof_pure _

omit hlog in
theorem aloof_assign (settings : Entries Value) : AloofFrom view p (assign settings) := by
  induction settings with
  | nil => exact aloof_pure _
  | cons entry rest ih =>
    refine aloof_bind (aloof_ofExcept _) fun v => ?_
    refine aloof_bind (aloof_change _) fun _ => ?_
    exact aloof_bind ih fun _ => aloof_pure _

theorem aloof_setVariables : AloofFrom view p (setVariables node) := by
  refine aloof_bind aloof_scope fun scope => ?_
  refine aloof_bind (aloof_resolveAll hlog _ _) fun resolved => ?_
  refine aloof_bind (aloof_assign _) fun output => ?_
  exact aloof_bind (aloof_note hlog _) fun _ => aloof_pure _

namespace Branch

theorem aloof_operand (key : String) : AloofFrom view p (operand node key) := by
  unfold operand
  split
  · exact aloof_pure _
  · refine aloof_bind aloof_scope fun scope => ?_
    exact aloof_bind (aloof_resolve hlog _ _) fun _ => aloof_pure _

theorem aloof_compare : AloofFrom view p (compare node) := by
  refine aloof_ite (aloof_pure _) ?_
  refine aloof_bind (aloof_operand node hlog _) fun left => ?_
  refine aloof_bind (aloof_operand node hlog _) fun right => ?_
  exact aloof_bind (aloof_note hlog _) fun _ => aloof_pure _

end Branch

namespace Loop

theorem aloof_holds (state : LoopState) : AloofFrom view p (holds node state) := by
  refine aloof_bind aloof_context fun context => ?_
  exact aloof_bind (aloof_resolve hlog _ _) fun _ => aloof_ofExcept _

theorem aloof_goOn (state : LoopState) : AloofFrom view p (goOn node state) := by
  refine aloof_bind (aloof_change _) fun _ => ?_
  exact aloof_bind (aloof_note hlog _) fun _ => aloof_pure _

theorem aloof_leave (state : LoopState) : AloofFrom view p (leave node state) := by
  refine aloof_bind (aloof_ofExcept _) fun name => ?_
  split
  · refine aloof_bind (aloof_change _) fun _ => ?_
    exact aloof_bind (aloof_note hlog _) fun _ => aloof_pure _
  · exact aloof_bind (aloof_note hlog _) fun _ => aloof_pure _

omit hlog in
theorem aloof_halt (error : String) : AloofFrom view p (halt node error) :=
  aloof_bind (aloof_change _) fun _ => aloof_pure _

theorem aloof_visit : AloofFrom view p (visit node) := by
  refine aloof_bind (aloof_ofExcept _) fun most => ?_
  refine aloof_bind aloof_context fun context => ?_
  refine aloof_bind (aloof_change _) fun _ => ?_
  refine aloof_ite (aloof_halt node _) ?_
  refine aloof_bind (aloof_change _) fun _ => ?_
  refine aloof_bind (aloof_holds node hlog _) fun holds => ?_
  exact aloof_ite (aloof_goOn node hlog _) (aloof_leave node hlog _)

theorem aloof_execute : AloofFrom view p (execute node) := by
  refine aloof_bind aloof_context fun context => ?_
  exact aloof_ite (aloof_visit node hlog) (aloof_halt node _)

end Loop

end Log

section Served

variable (hp : Request.Served p)

include hp

theorem aloof_runScript (language code : String) : AloofFrom view p (runScript language code) := by
  refine aloof_bind aloof_context fun context => ?_
  refine aloof_bind (aloof_ofExcept _) fun input => ?_
  refine aloof_bind (aloof_ask (hp.script _ _ _)) fun report => ?_
  exact aloof_bind (aloof_noteAll hp.log _) fun _ => aloof_ofExcept _

theorem aloof_script : AloofFrom view p (script node) := by
  unfold script
  split
  · exact aloof_pure _
  · refine aloof_bind (aloof_runScript hp _ _) fun result => ?_
    cases result with
    | failed error =>
      refine aloof_bind (aloof_note hp.log _) fun _ => ?_
      split
      · exact aloof_pure _
      · exact aloof_ofExcept _
    | finished output => exact aloof_pure _

theorem Branch.aloof_execute : AloofFrom view p (Branch.execute node) := by
  unfold Branch.execute
  split
  · unfold Branch.askScript
    split
    · exact aloof_pure _
    · refine aloof_bind (aloof_runScript hp _ _) fun result => ?_
      cases result with
      | failed error => exact aloof_pure _
      | finished output => exact aloof_pure _
  · exact Branch.aloof_compare node hp.log

namespace CallService

theorem aloof_webExchange (request : Web.Request) :
    Doing.Aloof view p (Web.exchange request) := by
  refine aloof_bind (aloof_ask (hp.send _)) fun reply => ?_
  exact aloof_bind (Act.aloof_noteAll hp.log _) fun _ => aloof_ofExcept _

theorem aloof_webCall (timeout : Value) (c : Connector) (method : String) (path : Option String)
    (headers body : Entries Value) :
    Doing.Aloof view p (Web.call timeout c method path headers body) :=
  aloof_bind (aloof_ofExcept _) fun request => aloof_webExchange hp request

theorem aloof_databaseExchange (c : Connector) (statement queryType : String) :
    Doing.Aloof view p (Database.exchange c statement queryType) := by
  refine aloof_bind (aloof_ask (hp.query _ _ _)) fun reply => ?_
  refine aloof_bind (aloof_ofExcept _) fun answer => ?_
  exact aloof_bind (Act.aloof_noteAll hp.log _) fun _ => aloof_pure _

theorem aloof_sendRequest (services : Services) (c : Connector) :
    AloofFrom view p (sendRequest services node c) := by
  refine aloof_bind aloof_scope fun scope => ?_
  refine aloof_bind (aloof_resolve hp.log _ _) fun path => ?_
  refine aloof_bind (aloof_resolveAll hp.log _ _) fun headers => ?_
  refine aloof_bind (aloof_resolveAll hp.log _ _) fun body => ?_
  exact aloof_bind (aloof_act (aloof_webCall hp _ _ _ _ _ _)) fun _ => aloof_pure _

theorem aloof_runQuery (c : Connector) : AloofFrom view p (runQuery node c) := by
  refine aloof_bind aloof_scope fun scope => ?_
  refine aloof_bind (aloof_resolve hp.log _ _) fun statement => ?_
  refine aloof_ite (aloof_pure _) ?_
  exact aloof_bind (aloof_act (aloof_databaseExchange hp _ _ _)) fun _ => aloof_pure _

theorem aloof_execute (services : Services) : AloofFrom view p (execute services node) := by
  unfold execute
  dsimp only
  split
  · exact aloof_pure _
  · split
    · exact aloof_pure _
    · split
      · exact aloof_runQuery node hp _
      · exact aloof_sendRequest node hp _ _

end CallService

namespace AskModel

variable (settings : Settings) (question : Question)

theorem aloof_refuse (error : String) (input : Entries Value) :
    AloofFrom view p (refuse node error input) :=
  aloof_bind (aloof_note hp.log _) fun _ => aloof_pure _

theorem aloof_call (client : Model.Client) (credentials : Credentials) (request : Model.Request) :
    Doing.Aloof view p (call client credentials request) := by
  refine aloof_bind (aloof_ofExcept _) fun prepared => ?_
  cases prepared with
  | error answer => exact aloof_pure _
  | ok prepared =>
    refine aloof_bind (aloof_ask (hp.complete _)) fun reply => ?_
    exact aloof_bind (Act.aloof_noteAll hp.log _) fun _ => aloof_pure _

theorem aloof_conclude (said : Said) : AloofFrom view p (conclude node question said) := by
  unfold conclude
  split
  · exact aloof_refuse node hp _ _
  · refine aloof_bind (aloof_ofExcept _) fun inputTokens => ?_
    refine aloof_bind (aloof_ofExcept _) fun outputTokens => ?_
    exact aloof_bind (aloof_note hp.log _) fun _ => aloof_pure _

theorem aloof_askAgain : AloofFrom view p (askAgain settings node question) := by
  refine aloof_bind (aloof_note hp.log _) fun _ => ?_
  refine aloof_bind (aloof_act (aloof_call hp _ _ _)) fun answer => ?_
  refine aloof_bind (aloof_ofExcept _) fun result => ?_
  cases result with
  | error error => exact aloof_refuse node hp _ _
  | ok said => exact aloof_conclude node hp question said

theorem aloof_askOnce : AloofFrom view p (ask settings node question) := by
  refine aloof_bind (aloof_act (aloof_call hp _ _ _)) fun answer => ?_
  refine aloof_bind (aloof_ofExcept _) fun result => ?_
  cases result with
  | error error => exact aloof_refuse node hp _ _
  | ok said =>
    dsimp only
    split
    · exact aloof_conclude node hp question said
    · exact aloof_askAgain node hp settings question

variable (prompt : String) (provider : Provider) (credentials : Credentials)

theorem aloof_askAbout (inputs : Entries Value) (text : String) :
    AloofFrom view p (askAbout settings node prompt provider credentials inputs text) := by
  refine aloof_bind aloof_scope fun scope => ?_
  refine aloof_bind (aloof_ofExcept _) fun long => ?_
  refine aloof_ite (aloof_bind (aloof_ofExcept _) fun limit => aloof_refuse node hp _ _) ?_
  refine aloof_bind (aloof_bind (aloof_noteAll hp.log _) fun _ =>
    aloof_bind (aloof_ofExcept _) fun _ => aloof_pure _) fun resolved => ?_
  refine aloof_bind (aloof_ofExcept _) fun long => ?_
  refine aloof_ite (aloof_refuse node hp _ _) ?_
  refine aloof_bind (aloof_ofExcept _) fun system => ?_
  refine aloof_bind (aloof_ofExcept _) fun maxTokens => ?_
  refine aloof_bind (aloof_ofExcept _) fun temperature => ?_
  exact aloof_askOnce node hp settings _

theorem aloof_askWith (inputs : Entries Value) :
    AloofFrom view p (askWith settings node prompt provider credentials inputs) := by
  unfold askWith
  split
  · exact aloof_refuse node hp _ _
  · exact aloof_askAbout node hp settings _ _ _ _ _

theorem aloof_askProvider :
    AloofFrom view p (askProvider settings node prompt provider credentials) := by
  refine aloof_bind (aloof_ofExcept _) fun bindings => ?_
  refine aloof_bind aloof_scope fun scope => ?_
  refine aloof_bind (aloof_ofExcept _) fun result => ?_
  cases result with
  | error name => exact aloof_refuse node hp _ _
  | ok inputs => exact aloof_askWith node hp settings prompt provider credentials inputs

theorem aloof_execute : AloofFrom view p (execute settings node) := by
  unfold execute
  split
  · refine aloof_ite (aloof_refuse node hp _ _) ?_
    refine aloof_bind (aloof_ofExcept _) fun provider => ?_
    split
    · exact aloof_refuse node hp _ _
    · split
      · exact aloof_askProvider node hp settings _ _ _
      · exact aloof_refuse node hp _ _
  · exact aloof_refuse node hp _ _

end AskModel

/-- All executors that come with the engine are aloof, except the one that calls other flows. -/
theorem aloof_executor (settings : Settings) (connectors : Entries Connector)
    (launcher : Option CallFlow.Launcher) {type : NodeType} (ht : type ≠ .subFlow)
    {executor : Executor} (h : executor? settings connectors launcher type = some executor) :
    AloofFrom view p (executor node) := by
  cases type with
  | start => exact Option.some.inj h ▸ aloof_start node
  | success => exact Option.some.inj h ▸ aloof_finish node hp.log _
  | failure => exact Option.some.inj h ▸ aloof_finish node hp.log _
  | «variable» => exact Option.some.inj h ▸ aloof_setVariables node hp.log
  | mapper => exact Option.some.inj h ▸ aloof_reshape node hp.log
  | decision => exact Option.some.inj h ▸ Branch.aloof_execute node hp
  | loop => exact Option.some.inj h ▸ Loop.aloof_execute node hp.log
  | script => exact Option.some.inj h ▸ aloof_script node hp
  | nexus => exact Option.some.inj h ▸ CallService.aloof_execute node hp _
  | subFlow => exact absurd rfl ht
  | ai => exact Option.some.inj h ▸ AskModel.aloof_execute node hp _
  | _ => cases h

end Served

namespace CallFlow

variable {R : ∀ {α : Type}, Work α → Work α → Prop}

/-- Two launchers know the same flows, and what they do is related. -/
structure Launcher.Related (R : ∀ {α : Type}, Work α → Work α → Prop) (l l' : Launcher) : Prop where
  flowName? : l.flowName? = l'.flowName?
  run : ∀ flow payload startedBy,
    R (Work.act (l.run flow payload startedBy)) (Work.act (l'.run flow payload startedBy))
  start : ∀ flow payload startedBy,
    R (Work.act (l.start flow payload startedBy)) (Work.act (l'.start flow payload startedBy))

variable {l l' : Launcher} (hR : Compatible p R) (hlog : ∀ record, p (.log record))
  (hl : l.Related R l')

include hR hlog hl

theorem related_runChild (call : Call) (startedBy : String) :
    R (runChild l node call startedBy) (runChild l' node call startedBy) := by
  refine hR.bind (hR.attempt (hl.run _ _ _)) fun result _ => ?_
  cases result with
  | error fault =>
    exact hR.after (aloof_note hlog _) fun _ => hR.aloof (aloof_pure _)
  | ok child =>
    exact hR.after (aloof_ofExcept _) fun _ => hR.aloof (aloof_pure _)

omit hlog in
theorem related_startChild (call : Call) (startedBy : String) :
    R (startChild l node call startedBy) (startChild l' node call startedBy) :=
  hR.bind (hl.start _ _ _) fun _ _ => hR.aloof (aloof_pure _)

theorem related_callTarget (target targetName : String) :
    R (callTarget l node target targetName) (callTarget l' node target targetName) := by
  have hmode : ∀ (call : Call) (startedBy : String) (isAsync : Bool),
      R (if isAsync = true then startChild l node call startedBy else runChild l node call startedBy)
        (if isAsync = true then startChild l' node call startedBy
          else runChild l' node call startedBy) := by
    intro call startedBy isAsync
    exact hR.ite (related_startChild node hR hl _ _) (related_runChild node hR hlog hl _ _)
  unfold callTarget
  refine hR.after aloof_context fun context => ?_
  refine hR.after aloof_scope fun scope => ?_
  refine hR.after (aloof_resolveAll hlog _ _) fun configured => ?_
  dsimp only
  refine hR.ite (hR.after (aloof_note hlog _) fun _ => ?_) ?_
  all_goals exact hR.after (aloof_note hlog _) fun _ => hmode _ _ _

theorem related_execute : R (execute (some l) node) (execute (some l') node) := by
  unfold execute
  dsimp only
  refine hR.ite (hR.aloof (aloof_pure _)) ?_
  refine hR.after aloof_context fun context => ?_
  refine hR.ite (hR.aloof (aloof_pure _)) ?_
  rw [hl.flowName?]
  cases l'.flowName? (Text.trim (node.textSetting "targetFlowId" "")) with
  | none => exact hR.aloof (aloof_pure _)
  | some targetName => exact related_callTarget node hR hlog hl _ _

end CallFlow

namespace CallFlow

variable {launcher : Launcher} (hlog : ∀ record, p (.log record))
  (hrun : ∀ flow payload startedBy, Doing.Aloof view p (launcher.run flow payload startedBy))
  (hstart : ∀ flow payload startedBy, Doing.Aloof view p (launcher.start flow payload startedBy))

include hlog hrun in
theorem aloof_runChild (call : Call) (startedBy : String) :
    AloofFrom view p (runChild launcher node call startedBy) := by
  refine aloof_bind (aloof_attempt (aloof_act (hrun _ _ _))) fun result => ?_
  cases result with
  | error fault => exact aloof_bind (aloof_note hlog _) fun _ => aloof_pure _
  | ok child => exact aloof_bind (aloof_ofExcept _) fun _ => aloof_pure _

include hstart in
theorem aloof_startChild (call : Call) (startedBy : String) :
    AloofFrom view p (startChild launcher node call startedBy) :=
  aloof_bind (aloof_act (hstart _ _ _)) fun _ => aloof_pure _

include hlog hrun hstart

theorem aloof_callTarget (target targetName : String) :
    AloofFrom view p (callTarget launcher node target targetName) := by
  have hmode (call : Call) (startedBy : String) (isAsync : Bool) :
      AloofFrom view p (if isAsync = true then startChild launcher node call startedBy
        else runChild launcher node call startedBy) :=
    aloof_ite (aloof_startChild node hstart call startedBy)
      (aloof_runChild node hlog hrun call startedBy)
  unfold callTarget
  refine aloof_bind aloof_context fun context => ?_
  refine aloof_bind aloof_scope fun scope => ?_
  refine aloof_bind (aloof_resolveAll hlog _ _) fun configured => ?_
  dsimp only
  refine aloof_ite (aloof_bind (aloof_note hlog _) fun _ => ?_) ?_
  all_goals exact aloof_bind (aloof_note hlog _) fun _ => hmode _ _ _

theorem aloof_execute : AloofFrom view p (execute (some launcher) node) := by
  unfold execute
  dsimp only
  refine aloof_ite (aloof_pure _) ?_
  refine aloof_bind aloof_context fun context => ?_
  refine aloof_ite (aloof_pure _) ?_
  cases launcher.flowName? (Text.trim (node.textSetting "targetFlowId" "")) with
  | none => exact aloof_pure _
  | some targetName => exact aloof_callTarget node hlog hrun hstart _ _

omit hlog hrun hstart in
theorem aloof_execute_none : AloofFrom view p (execute none node) := by
  unfold execute
  dsimp only
  refine aloof_ite (aloof_pure _) ?_
  refine aloof_bind aloof_context fun context => ?_
  exact aloof_ite (aloof_pure _) (aloof_pure _)

end CallFlow

end Step

end FlowEngine
