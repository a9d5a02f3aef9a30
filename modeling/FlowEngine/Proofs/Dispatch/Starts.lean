import FlowEngine.Proofs.Dispatch.Nested

/-!
# Triggers and the background runs that come of them

A flow is triggered in one of three ways: its run is waited for, it is started in the background, or
it is started there without anyone being told of what goes wrong. Runs start runs in the background in
their turn.
-/

namespace FlowEngine

open Doing

inductive Trigger where
  /-- Its run is waited for. -/
  | wait (flow : String) (payload : Entries Value) (startedBy : String)
  | start (flow : String) (payload : Entries Value) (startedBy : String)
  /-- It is started in the background, and what goes wrong is only told in the log. -/
  | detach (flow : String) (payload : Entries Value) (startedBy : String)
  deriving DecidableEq, Repr

namespace Exchange

def start? : Exchange → Option Start
  | ⟨.start start, _⟩ => some start
  | _ => none

def starts (t : List Exchange) : List Start := t.filterMap start?

variable {t t' : List Exchange}

@[simp] theorem starts_append : starts (t ++ t') = starts t ++ starts t' := List.filterMap_append

theorem starts_plain {e : Exchange} (h : e.request.IsPlain) : starts [e] = [] := by
  obtain ⟨request, reply⟩ := e
  cases request <;> first | rfl | exact absurd h id

theorem AreLog.starts (h : AreLog t) : starts t = [] := filterMap_areLog (fun _ => rfl) h

end Exchange

open Exchange

namespace Dispatcher

/-- Carries out a trigger, and gives the execution if there is one to be given. -/
def carryOut (d : Dispatcher) : Trigger → Act (Option Execution)
  | .wait flow payload startedBy => do
    let execution ← d.run flow payload startedBy
    return some execution
  | .start flow payload startedBy => do
    let execution ← d.start flow payload startedBy
    return some execution
  | .detach flow payload startedBy => do
    d.startDetached flow payload startedBy
    return none

variable {d : Dispatcher} {engine : Engine} {graph : FlowGraph} {execution execution' : Execution}
  {payload : Entries Value} {flow startedBy reason : String} {place : Place} {t inner : List Exchange}
  {outcome : Except Fault Context} {start : Start}

theorem Begun.starts (h : Begun flow startedBy t execution) : starts t = [] := by
  cases h
  rfl

theorem Refused.starts (h : Refused flow startedBy reason t execution) : starts t = [] := by
  obtain ⟨record, now, id, reply, told, ht⟩ := h
  exact ht.starts

theorem Conducted.starts
    (h : Conducted engine graph execution payload place inner outcome t execution') :
    starts t = starts inner := by
  obtain ⟨reply, reply', told, told', told'', now, ht, ht', ht'', hp⟩ := h
  change starts (told ++ inner ++ told' ++ _) = _
  rw [starts_append, starts_append, starts_append, ht.starts, ht'.starts]
  change [] ++ starts inner ++ [] ++ starts told'' = _
  rw [ht''.starts, List.nil_append, List.append_nil, List.append_nil]

theorem Started.starts (h : d.Started flow payload startedBy place t execution) :
    ∃ graph, d.flow flow = .ok graph ∧
      starts t = [⟨graph, execution, payload, place.trace, place.chain⟩] := by
  obtain ⟨record, hf, hb⟩ := h
  refine ⟨_, hf, ?_⟩
  rw [starts_append, hb.starts]
  rfl

/-- A start of a run that is enclosed by these runs at least, and by less than so many. -/
structure Beneath (d : Dispatcher) (most : Nat) (c : List String) (start : Start) : Prop where
  chain : c <+: start.chain
  length : start.chain.length < most
  known : ∃ id, d.flow id = .ok start.flow

theorem Beneath.of_snoc {most : Nat} {c : List String} {flow : String}
    (h : d.Beneath most (c ++ [flow]) start) : d.Beneath most c start :=
  ⟨(List.prefix_append c [flow]).trans h.chain, h.length, h.known⟩

theorem Beneath.mono {most bound : Nat} {c : List String} (h : d.Beneath most c start)
    (hbound : most ≤ bound) : d.Beneath bound c start :=
  ⟨h.chain, lt_of_lt_of_le h.length hbound, h.known⟩

theorem Allows.of_carryOut {p : Request → Prop} {T : Nat → List String → List Exchange → Prop}
    (h : d.Allows p T) (hd : d.Respects p) (hp : Request.Basic p) {trigger : Trigger}
    {place' : Place} {result : Except Fault (Option Execution)}
    (hpath : (d.carryOut trigger).Path place t result place')
    (hstart : ∀ flow payload startedBy execution,
      d.Started flow payload startedBy place t execution → T d.room place.chain t) :
    T d.room place.chain t := by
  cases trigger with
  | wait flow payload startedBy =>
    obtain ⟨first, hrun, -⟩ := path_map.mp hpath
    exact (h.writes_runWithin hd hp d.room place.chain flow payload startedBy _ _ _ _ rfl hrun).1
  | start flow payload startedBy =>
    obtain ⟨first, hpath, -⟩ := path_map.mp hpath
    obtain ⟨-, ⟨rfl, -⟩ | ⟨execution, hs, -⟩⟩ := path_start hpath
    · exact (h.closed d.room place.chain).nil
    · exact hstart flow payload startedBy execution hs
  | detach flow payload startedBy =>
    obtain ⟨first, hdetach, -⟩ := path_map.mp hpath
    exact (h.writes_startDetached hp d.room place.chain flow payload startedBy _ _ _ _ rfl hdetach).1

/-- What runs start is enclosed by them, and by less runs than the depth says. -/
theorem allows_beneath {most bound : Nat} (hdepth : Limit.least ">=" d.maxDepth = .ok most)
    (hbound : most ≤ bound) :
    d.Allows Request.IsPlain fun _ c t => ∀ start ∈ starts t, d.Beneath bound c start where
  closed _ c := by
    refine ⟨?_, ?_, ?_, ?_⟩
    · simp [Exchange.starts]
    · intro t t' h h' start hs
      rw [starts_append, List.mem_append] at hs
      rcases hs with hs | hs
      · exact h start hs
      · exact h' start hs
    · intro e he start hs
      rw [starts_plain he] at hs
      cases hs
    · rintro event reply - start ⟨⟩
  ran {room flow payload startedBy place t result place'} _ hc := by
    intro start hs
    cases hc with
    | unknown | unordered => cases hs
    | refused hf hr ht =>
      rw [ht.starts] at hs
      cases hs
    | conducted hf hr hb hi hc =>
      rw [starts_append, hb.starts, hc.starts, List.nil_append] at hs
      exact (hi start hs).of_snoc
  started {room flow payload startedBy place t execution} hs hr := by
    obtain ⟨graph, hf, hstarts⟩ := hs.starts
    intro start hmem
    rw [hstarts, List.mem_singleton] at hmem
    subst hmem
    refine ⟨List.prefix_refl _, ?_, flow, hf⟩
    rw [Limit.reached, hdepth] at hr
    have hlength : decide (most ≤ place.chain.length) = false := Except.ok.inj hr
    exact lt_of_lt_of_le (by simpa using hlength) hbound

section Depth

variable {most : Nat} (hd : d.Ordinary) (hdepth : Limit.least ">=" d.maxDepth = .ok most)

include hd hdepth

theorem beneath_background {id : String} (hf : d.flow id = .ok start.flow)
    {result : Except Fault Execution × Place} (hp : (d.background start).Path t result) :
    ∀ child ∈ starts t, d.Beneath most (start.chain ++ [start.flow.id]) child := by
  obtain ⟨inner, outcome, execution, hinner, hc, -⟩ :=
    (allows_beneath hdepth le_rfl).of_background hd.respects Request.basic_isPlain hf hp
  rw [hc.starts]
  exact hinner

theorem beneath_carryOut {trigger : Trigger} {trace : Log.Trace}
    {result : Except Fault (Option Execution)} {place : Place}
    (hp : (d.carryOut trigger).Path ⟨trace, []⟩ t result place) :
    ∀ start ∈ starts t, d.Beneath (max 1 most) [] start := by
  apply (allows_beneath hdepth (le_max_right 1 most)).of_carryOut hd.respects Request.basic_isPlain hp
  intro flow payload startedBy execution hs
  obtain ⟨graph, hf, hstarts⟩ := hs.starts
  intro start hmem
  rw [hstarts, List.mem_singleton] at hmem
  subst hmem
  exact ⟨List.prefix_refl _, lt_of_lt_of_le Nat.one_pos (le_max_left _ _), flow, hf⟩

end Depth

end Dispatcher

end FlowEngine
