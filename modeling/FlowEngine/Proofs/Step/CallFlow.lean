import FlowEngine.Proofs.Json.Printed
import FlowEngine.Proofs.Work.Transcript
import FlowEngine.Step.CallFlow

/-!
# Calls and what they bring back

A node that calls a flow asks for one child at most, and for none when its target is refused. The
child gets what the node says or else what the run itself got. The result of the child is that of the
last entry of its order that has one; an entry that is a list or an object is never skipped, so the
search ends in a fault when it comes to one.
-/

namespace FlowEngine.Step.CallFlow

open Doing Exchange

section Result

variable {nodes snapshot : Entries Value} {rows behind front : List Value} {entry v w : Value}

/-- What an entry of the order of a run has for a result: that of the node it names, unless null. -/
inductive HasResult (nodes : Entries Value) : Value → Value → Prop where
  | of {id : String} {outcome output : Entries Value} {v : Value}
      (ho : nodes.get? id = some (.object outcome))
      (hs : outcome.get? "successOutput" = some (.object output))
      (hr : output.get? "result" = some v) (hv : v ≠ .null) : HasResult nodes (.text id) v

/-- A value without one result that stands around it. -/
def unwrapped : Value → Value
  | .object fields => (Entries.get? fields "result").getD (.object fields)
  | v => v

theorem HasResult.resultOf? {id : String} (h : HasResult nodes (.text id) v) :
    (nodes.get? id).bind resultOf? = some (unwrapped v) := by
  obtain ⟨ho, hs, hr, hv⟩ := h
  rw [ho, Option.bind_some, CallFlow.resultOf?, Value.field?, hs, Option.bind_some, Value.field?, hr]
  cases v with
  | null => exact absurd rfl hv
  | _ => rfl

theorem hasResult_of_field? {id : String} {outcome : Value} (ho : nodes.get? id = some outcome)
    (hr : (outcome.field? "successOutput").bind (·.field? "result") = some v) (hv : v ≠ .null) :
    HasResult nodes (.text id) v := by
  obtain ⟨output, hs, hr⟩ := Option.bind_eq_some_iff.mp hr
  cases outcome with
  | object fields =>
    cases output with
    | object output => exact .of ho hs hr hv
    | _ => cases hr
  | _ => cases hs

theorem resultOf?_eq_none {id : String} (h : ∀ v, ¬ HasResult nodes (.text id) v) :
    (nodes.get? id).bind CallFlow.resultOf? = none := by
  cases ho : nodes.get? id with
  | none => rfl
  | some outcome =>
    rw [Option.bind_some, CallFlow.resultOf?]
    have hnull : ∀ v, (outcome.field? "successOutput").bind (·.field? "result") = some v →
        v = .null := by
      intro v hr
      by_contra hv
      exact h v (hasResult_of_field? ho hr hv)
    cases hr : (outcome.field? "successOutput").bind (·.field? "result") with
    | none => rfl
    | some v => rw [hnull v hr]

/-- An entry that has no result, and is no list or object either. -/
structure Skipped (nodes : Entries Value) (entry : Value) : Prop where
  noResult : ∀ v, ¬ HasResult nodes entry v
  isKey : ¬ entry.IsCollection

theorem Skipped.findResult (h : Skipped nodes entry) (rows : List Value) :
    findResult nodes (entry :: rows) = CallFlow.findResult nodes rows := by
  cases entry with
  | text id => rw [CallFlow.findResult, resultOf?_eq_none h.noResult]
  | list items => exact absurd (.list items) h.isKey
  | object fields => exact absurd (.object fields) h.isKey
  | _ => rfl

theorem HasResult.findResult (h : HasResult nodes entry v) (rows : List Value) :
    findResult nodes (entry :: rows) = .ok (unwrapped v) := by
  obtain ⟨ho, hs, hr, hv⟩ := h
  rw [CallFlow.findResult, (HasResult.of ho hs hr hv).resultOf?]

theorem findResult_isCollection (nodes : Entries Value) (h : entry.IsCollection)
    (rows : List Value) :
    ∃ fault, findResult nodes (entry :: rows) = .error fault := by
  cases h with
  | list items => exact ⟨_, rfl⟩
  | object fields => exact ⟨_, rfl⟩

/-- The rows of a snapshot: its nodes and the order in which they were executed. -/
structure Lists (snapshot nodes : Entries Value) (order : List Value) : Prop where
  order : snapshot.get? "nodeExecutionOrder" = some (.list order)
  nodes : snapshot.get? "nodes" = some (.object nodes)

/-- A list or an object stands behind all entries of the order that have a result. -/
def Blocked (snapshot : Entries Value) : Prop :=
  ∃ nodes front entry behind, Lists snapshot nodes (front ++ entry :: behind) ∧
    entry.IsCollection ∧ ∀ e ∈ behind, ∀ w, ¬ HasResult nodes e w

theorem Lists.childResult {order : List Value} (h : Lists snapshot nodes order) :
    childResult (.object snapshot) = findResult nodes order.reverse := by
  rw [CallFlow.childResult, Value.field?, Value.field?, h.order, h.nodes]

theorem Lists.eq {nodes' : Entries Value} {order order' : List Value}
    (h : Lists snapshot nodes order) (h' : Lists snapshot nodes' order') :
    nodes = nodes' ∧ order = order' := by
  have horder := h.order.symm.trans h'.order
  have hnodes := h.nodes.symm.trans h'.nodes
  cases horder
  cases hnodes
  exact ⟨rfl, rfl⟩

theorem findResult_blocked (hbehind : ∀ e ∈ behind, ∀ v, ¬ HasResult nodes e v)
    (h : entry.IsCollection) (rows : List Value) :
    ∃ fault, findResult nodes (behind ++ entry :: rows) = .error fault := by
  induction behind with
  | nil => exact findResult_isCollection nodes h rows
  | cons e behind ih =>
    obtain ⟨he, hrest⟩ := List.forall_mem_cons.mp hbehind
    by_cases hkey : e.IsCollection
    · exact findResult_isCollection nodes hkey _
    · rw [List.cons_append, Skipped.findResult ⟨he, hkey⟩]
      exact ih hrest

theorem Blocked.childResult (h : Blocked snapshot) :
    ∃ fault, childResult (.object snapshot) = .error fault := by
  obtain ⟨nodes, front, entry, behind, hlists, hentry, hbehind⟩ := h
  have hreverse : ∀ e ∈ behind.reverse, ∀ v, ¬ HasResult nodes e v :=
    fun e he => hbehind e (List.mem_reverse.mp he)
  rw [hlists.childResult, List.reverse_append, List.reverse_cons, List.append_assoc]
  exact findResult_blocked hreverse hentry front.reverse

end Result

section Call

variable {launcher : Launcher} {node : Node} {call : Call} {startedBy : String} {scene scene' : Scene}
  {t : List Exchange} {result : Except Fault Outcome}

def target (node : Node) : String := Text.trim (node.textSetting "targetFlowId" "")

/-- How a node calls it: only a child that is started as `ASYNC` is not waited for. -/
def mode (node : Node) : String := Text.upper (Text.trim (node.textSetting "mode" "SYNC"))

/-- A call that is not made: of no flow, of the flow that is running, or of one that is not known. -/
def Refused (launcher : Option Launcher) (context : Context) (node : Node) : Prop :=
  target node = "" ∨ target node = context.flowId ∨
    launcher.bind (·.flowName? (target node)) = none

end Call

namespace Called

def launcher (child : Child) : Launcher where
  flowName? id := if id = "child" then some "Child" else none
  run _ _ _ := pure child
  start _ _ _ := pure ()

def child (order : List Value) (nodes : Entries Value) : Child :=
  ⟨"child-1", "SUCCESS", some [("nodeExecutionOrder", .list order), ("nodes", .object nodes)]⟩

def succeeded (result : Value) : Value :=
  .object [("successOutput", .object [("result", result)])]

def node : Node := ⟨"sub", .subFlow, "", [("targetFlowId", .text "child")], []⟩

def scene : Scene := ⟨Context.create "f" "x" ⟨2024, 1, 2, 3, 4, 5, 0, some 0⟩, .outside⟩

/-- A child in whose order one node stands twice, and the last node has no result. -/
def repeated : Child :=
  child [.text "a", .text "b", .text "a", .text "c"]
    [("a", succeeded (.object [("result", .int 2)])), ("b", succeeded (.int 1)),
      ("c", succeeded .null)]

end Called

end FlowEngine.Step.CallFlow
