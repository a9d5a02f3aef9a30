import FlowEngine.Proofs.Run.Passage
import FlowEngine.Step.Standard

/-!
# What executors leave alone

The executors that come with the engine write variables, saved outputs, the states of loops and the
message with which a run fails. Whatever else the context holds is the same after they ran, also
where they end in a fault.
-/

namespace FlowEngine

/-- A view of the context that shows nothing of what executors write. -/
structure Context.Apart {γ : Type} (view : Context → γ) : Prop where
  setVariable : ∀ c key v, view (Context.setVariable c key v) = view c
  save : ∀ c name v, view (Context.save c name v) = view c
  setLoop : ∀ c id state, view (Context.setLoop c id state) = view c
  fail : ∀ c message, view (Context.fail c message) = view c

theorem Context.apart_order : Context.Apart Context.order :=
  ⟨fun _ _ _ => rfl, fun _ _ _ => rfl, fun _ _ _ => rfl, fun _ _ => rfl⟩

namespace Step

open Work

variable {γ : Type} {view : Context → γ} (hv : Context.Apart view) (node : Node)

theorem keeps_start : Keeps view (start node) := keeps_pure _

theorem keeps_finish (status : Status) : Keeps view (finish status node) := by
  refine keeps_bind keeps_scope fun scope => ?_
  refine keeps_bind (keeps_resolveAll _ _) fun response => ?_
  exact keeps_pure _

theorem keeps_reshape : Keeps view (reshape node) := by
  refine keeps_bind keeps_scope fun scope => ?_
  refine keeps_bind (keeps_resolveAll _ _) fun output => ?_
  exact keeps_pure _

section

variable (hs : ∀ c key v, view (Context.setVariable c key v) = view c)

include hs

theorem keeps_assign (settings : Entries Value) : Keeps view (assign settings) := by
  induction settings with
  | nil => exact keeps_pure _
  | cons entry rest ih =>
    refine keeps_bind (keeps_ofExcept _) fun v => ?_
    refine keeps_bind (keeps_change fun c => hs c _ _) fun _ => ?_
    exact keeps_bind ih fun _ => keeps_pure _

theorem keeps_setVariables : Keeps view (setVariables node) := by
  refine keeps_bind keeps_scope fun scope => ?_
  refine keeps_bind (keeps_resolveAll _ _) fun resolved => ?_
  refine keeps_bind (keeps_assign hs _) fun output => ?_
  exact keeps_bind (keeps_note _) fun _ => keeps_pure _

end

theorem keeps_runScript (language code : String) : Keeps view (runScript language code) := by
  refine keeps_bind keeps_context fun context => ?_
  refine keeps_bind (keeps_ofExcept _) fun input => ?_
  refine keeps_bind (keeps_ask _) fun report => ?_
  exact keeps_bind (keeps_noteAll _) fun _ => keeps_ofExcept _

theorem keeps_script : Keeps view (script node) := by
  unfold script
  split
  · exact keeps_pure _
  · refine keeps_bind (keeps_runScript _ _) fun result => ?_
    cases result with
    | failed error =>
      refine keeps_bind (keeps_note _) fun _ => ?_
      split
      · exact keeps_pure _
      · exact keeps_ofExcept _
    | finished output => exact keeps_pure _

namespace Branch

theorem keeps_operand (key : String) : Keeps view (operand node key) := by
  unfold operand
  split
  · exact keeps_pure _
  · refine keeps_bind keeps_scope fun scope => ?_
    exact keeps_bind (keeps_resolve _ _) fun _ => keeps_pure _

theorem keeps_compare : Keeps view (compare node) := by
  refine keeps_ite (keeps_pure _) ?_
  refine keeps_bind (keeps_operand node _) fun left => ?_
  refine keeps_bind (keeps_operand node _) fun right => ?_
  exact keeps_bind (keeps_note _) fun _ => keeps_pure _

theorem keeps_askScript : Keeps view (askScript node) := by
  unfold askScript
  split
  · exact keeps_pure _
  · refine keeps_bind (keeps_runScript _ _) fun result => ?_
    cases result with
    | failed error => exact keeps_pure _
    | finished output => exact keeps_pure _

theorem keeps_execute : Keeps view (execute node) := by
  unfold execute
  split
  · exact keeps_askScript node
  · exact keeps_compare node

end Branch

namespace Loop

variable (state : LoopState)

theorem keeps_holds : Keeps view (holds node state) := by
  refine keeps_bind keeps_context fun context => ?_
  exact keeps_bind (keeps_resolve _ _) fun _ => keeps_ofExcept _

theorem keeps_goOn (hs : ∀ c id state, view (Context.setLoop c id state) = view c) :
    Keeps view (goOn node state) := by
  refine keeps_bind (keeps_change fun c => hs c _ _) fun _ => ?_
  exact keeps_bind (keeps_note _) fun _ => keeps_pure _

theorem keeps_leave (hs : ∀ c name v, view (Context.save c name v) = view c) :
    Keeps view (leave node state) := by
  refine keeps_bind (keeps_ofExcept _) fun name => ?_
  split
  · refine keeps_bind (keeps_change fun c => hs c _ _) fun _ => ?_
    exact keeps_bind (keeps_note _) fun _ => keeps_pure _
  · exact keeps_bind (keeps_note _) fun _ => keeps_pure _

include hv

theorem keeps_halt (error : String) : Keeps view (halt node error) :=
  keeps_bind (keeps_change fun c => hv.fail c _) fun _ => keeps_pure _

theorem keeps_visit : Keeps view (visit node) := by
  refine keeps_bind (keeps_ofExcept _) fun most => ?_
  refine keeps_bind keeps_context fun context => ?_
  refine keeps_bind (keeps_change fun c => hv.setLoop c _ _) fun _ => ?_
  refine keeps_ite (keeps_halt hv node _) ?_
  refine keeps_bind (keeps_change fun c => hv.setLoop c _ _) fun _ => ?_
  refine keeps_bind (keeps_holds node _) fun holds => ?_
  exact keeps_ite (keeps_goOn node _ hv.setLoop) (keeps_leave node _ hv.save)

theorem keeps_execute : Keeps view (execute node) := by
  refine keeps_bind keeps_context fun context => ?_
  exact keeps_ite (keeps_visit hv node) (keeps_halt hv node _)

end Loop

namespace CallService

theorem keeps_sendRequest (services : Services) (c : Connector) :
    Keeps view (sendRequest services node c) := by
  refine keeps_bind keeps_scope fun scope => ?_
  refine keeps_bind (keeps_resolve _ _) fun path => ?_
  refine keeps_bind (keeps_resolveAll _ _) fun headers => ?_
  refine keeps_bind (keeps_resolveAll _ _) fun body => ?_
  exact keeps_bind (keeps_act _) fun _ => keeps_pure _

theorem keeps_runQuery (c : Connector) : Keeps view (runQuery node c) := by
  refine keeps_bind keeps_scope fun scope => ?_
  refine keeps_bind (keeps_resolve _ _) fun statement => ?_
  refine keeps_ite (keeps_pure _) ?_
  exact keeps_bind (keeps_act _) fun _ => keeps_pure _

theorem keeps_execute (services : Services) : Keeps view (execute services node) := by
  unfold execute
  dsimp only
  split
  · exact keeps_pure _
  · split
    · exact keeps_pure _
    · split
      · exact keeps_runQuery node _
      · exact keeps_sendRequest node _ _

end CallService

namespace CallFlow

variable (launcher : Launcher) (call : Call) (startedBy : String)

theorem keeps_startChild : Keeps view (startChild launcher node call startedBy) :=
  keeps_bind (keeps_act _) fun _ => keeps_pure _

theorem keeps_runChild : Keeps view (runChild launcher node call startedBy) := by
  refine keeps_bind (keeps_attempt (keeps_act _)) fun result => ?_
  cases result with
  | error fault => exact keeps_bind (keeps_note _) fun _ => keeps_pure _
  | ok child => exact keeps_bind (keeps_ofExcept _) fun _ => keeps_pure _

theorem keeps_callTarget (target targetName : String) :
    Keeps view (callTarget launcher node target targetName) := by
  unfold callTarget
  refine keeps_bind keeps_context fun context => ?_
  refine keeps_bind keeps_scope fun scope => ?_
  refine keeps_bind (keeps_resolveAll _ _) fun configured => ?_
  dsimp only
  split
  · refine keeps_bind (keeps_note _) fun _ => ?_
    refine keeps_bind (keeps_note _) fun _ => ?_
    split
    · exact keeps_startChild node launcher _ _
    · exact keeps_runChild node launcher _ _
  · refine keeps_bind (keeps_note _) fun _ => ?_
    split
    · exact keeps_startChild node launcher _ _
    · exact keeps_runChild node launcher _ _

theorem keeps_execute (launcher : Option Launcher) : Keeps view (execute launcher node) := by
  unfold execute
  dsimp only
  split
  · exact keeps_pure _
  · refine keeps_bind keeps_context fun context => ?_
    split
    · exact keeps_pure _
    · split
      · exact keeps_pure _
      · split
        · exact keeps_pure _
        · exact keeps_callTarget node _ _ _

end CallFlow

namespace AskModel

variable (settings : Settings) (question : Question)

theorem keeps_refuse (error : String) (input : Entries Value) :
    Keeps view (refuse node error input) :=
  keeps_bind (keeps_note _) fun _ => keeps_pure _

theorem keeps_promptText (scope : Scope) (inputs : Entries Value) (prompt : String) :
    Keeps view (promptText scope inputs prompt) := by
  refine keeps_bind (keeps_noteAll _) fun _ => ?_
  exact keeps_bind (keeps_ofExcept _) fun _ => keeps_pure _

theorem keeps_conclude (said : Said) : Keeps view (conclude node question said) := by
  unfold conclude
  split
  · exact keeps_refuse node _ _
  · refine keeps_bind (keeps_ofExcept _) fun inputTokens => ?_
    refine keeps_bind (keeps_ofExcept _) fun outputTokens => ?_
    exact keeps_bind (keeps_note _) fun _ => keeps_pure _

theorem keeps_askAgain : Keeps view (askAgain settings node question) := by
  refine keeps_bind (keeps_note _) fun _ => ?_
  refine keeps_bind (keeps_act _) fun answer => ?_
  refine keeps_bind (keeps_ofExcept _) fun result => ?_
  cases result with
  | error error => exact keeps_refuse node _ _
  | ok said => exact keeps_conclude node question said

theorem keeps_ask : Keeps view (ask settings node question) := by
  refine keeps_bind (keeps_act _) fun answer => ?_
  refine keeps_bind (keeps_ofExcept _) fun result => ?_
  cases result with
  | error error => exact keeps_refuse node _ _
  | ok said =>
    dsimp only
    split
    · exact keeps_conclude node question said
    · exact keeps_askAgain node settings question

variable (prompt : String) (provider : Provider) (credentials : Credentials)

theorem keeps_askAbout (inputs : Entries Value) (text : String) :
    Keeps view (askAbout settings node prompt provider credentials inputs text) := by
  refine keeps_bind keeps_scope fun scope => ?_
  refine keeps_bind (keeps_ofExcept _) fun long => ?_
  refine keeps_ite (keeps_bind (keeps_ofExcept _) fun limit => keeps_refuse node _ _) ?_
  refine keeps_bind (keeps_promptText _ _ _) fun resolved => ?_
  refine keeps_bind (keeps_ofExcept _) fun long => ?_
  refine keeps_ite (keeps_refuse node _ _) ?_
  refine keeps_bind (keeps_ofExcept _) fun system => ?_
  refine keeps_bind (keeps_ofExcept _) fun maxTokens => ?_
  refine keeps_bind (keeps_ofExcept _) fun temperature => ?_
  exact keeps_ask node settings _

theorem keeps_askWith (inputs : Entries Value) :
    Keeps view (askWith settings node prompt provider credentials inputs) := by
  unfold askWith
  split
  · exact keeps_refuse node _ _
  · exact keeps_askAbout node settings prompt provider credentials inputs _

theorem keeps_askProvider :
    Keeps view (askProvider settings node prompt provider credentials) := by
  refine keeps_bind (keeps_ofExcept _) fun bindings => ?_
  refine keeps_bind keeps_scope fun scope => ?_
  refine keeps_bind (keeps_ofExcept _) fun result => ?_
  cases result with
  | error name => exact keeps_refuse node _ _
  | ok inputs => exact keeps_askWith node settings prompt provider credentials inputs

theorem keeps_execute : Keeps view (execute settings node) := by
  unfold execute
  split
  · refine keeps_ite (keeps_refuse node _ _) ?_
    refine keeps_bind (keeps_ofExcept _) fun provider => ?_
    split
    · exact keeps_refuse node _ _
    · split
      · exact keeps_askProvider node settings _ _ _
      · exact keeps_refuse node _ _
  · exact keeps_refuse node _ _

end AskModel

/-- Of the executors that come with the engine only those of variables and loops write anything. -/
theorem keeps_executor_of_ne (settings : Settings) (connectors : Entries Connector)
    (launcher : Option CallFlow.Launcher) {type : NodeType} (hv : type ≠ .variable)
    (hl : type ≠ .loop) {executor : Executor}
    (h : executor? settings connectors launcher type = some executor) :
    Keeps view (executor node) := by
  cases type with
  | start => exact Option.some.inj h ▸ keeps_start node
  | success => exact Option.some.inj h ▸ keeps_finish node _
  | failure => exact Option.some.inj h ▸ keeps_finish node _
  | «variable» => exact absurd rfl hv
  | mapper => exact Option.some.inj h ▸ keeps_reshape node
  | decision => exact Option.some.inj h ▸ Branch.keeps_execute node
  | loop => exact absurd rfl hl
  | script => exact Option.some.inj h ▸ keeps_script node
  | nexus => exact Option.some.inj h ▸ CallService.keeps_execute node _
  | subFlow => exact Option.some.inj h ▸ CallFlow.keeps_execute node _
  | ai => exact Option.some.inj h ▸ AskModel.keeps_execute node _
  | _ => cases h

theorem keeps_executor_of_ne_loop (hs : ∀ c key v, view (Context.setVariable c key v) = view c)
    (settings : Settings) (connectors : Entries Connector) (launcher : Option CallFlow.Launcher)
    {type : NodeType} (hl : type ≠ .loop) {executor : Executor}
    (h : executor? settings connectors launcher type = some executor) :
    Keeps view (executor node) := by
  by_cases ht : type = .variable
  · subst ht
    exact Option.some.inj h ▸ keeps_setVariables node hs
  · exact keeps_executor_of_ne node settings connectors launcher ht hl h

include hv

theorem keeps_executor (settings : Settings) (connectors : Entries Connector)
    (launcher : Option CallFlow.Launcher) {type : NodeType} {executor : Executor}
    (h : executor? settings connectors launcher type = some executor) :
    Keeps view (executor node) := by
  by_cases hl : type = .loop
  · subst hl
    exact Option.some.inj h ▸ Loop.keeps_execute hv node
  · exact keeps_executor_of_ne_loop node hv.setVariable settings connectors launcher hl h

end Step

theorem Engine.keeps_standard {γ : Type} {view : Context → γ} (hv : Context.Apart view)
    (settings : Settings) (connectors : Entries Connector)
    (launcher : Option Step.CallFlow.Launcher) (maxSteps : Value) :
    Engine.Keeps view ⟨Step.standard settings connectors launcher, maxSteps⟩ := by
  rintro ⟨type, executor⟩ he node
  obtain ⟨type', -, hx⟩ := List.mem_filterMap.mp he
  obtain ⟨executor', hx, hpair⟩ := Option.map_eq_some_iff.mp hx
  cases hpair
  exact Step.keeps_executor hv node settings connectors launcher hx

theorem Engine.follow_order_standard (settings : Settings) (connectors : Entries Connector)
    (launcher : Option Step.CallFlow.Launcher) (maxSteps : Value) {graph : FlowGraph}
    {executionId : String} {payload : Entries Value} {place : Place} :
    (Engine.follow ⟨Step.standard settings connectors launcher, maxSteps⟩ graph executionId
      payload).Yields place fun passage _ => passage.context.order = passage.walk.executed := by
  have hk := Engine.keeps_standard Context.apart_order settings connectors launcher maxSteps
  exact Doing.Yields.mono (fun passage _ ho => ho hk) Engine.follow_order

end FlowEngine
