import FlowEngine.Proofs.Dispatch.Agree
import FlowEngine.Proofs.Dispatch.Finalised
import FlowEngine.Proofs.Dispatch.Starts

/-!
# Flows that run flows

Flows can call each other in circles. A call that is waited for is refused where its flow is running
already, and no call leads deeper than the depth says, so that what comes of a trigger is finite.
-/

namespace FlowEngine

open Doing Exchange

/-- The enclosing runs are not too many. After the first of them come runs that are waited for, each of
a flow that no other of them is of. -/
structure Confined (most : Nat) (base c : List String) : Prop where
  length : c.length ≤ most
  onward : base <+: c
  nodup : (c.drop base.length).Nodup
  apart : ∀ flow ∈ c.drop base.length, flow ∉ base

instance (most : Nat) (base : List String) : DecidablePred (Confined most base) := fun c =>
  decidable_of_iff (c.length ≤ most ∧ base <+: c ∧ (c.drop base.length).Nodup ∧
      ∀ flow ∈ c.drop base.length, flow ∉ base)
    ⟨fun ⟨h₁, h₂, h₃, h₄⟩ => ⟨h₁, h₂, h₃, h₄⟩, fun ⟨h₁, h₂, h₃, h₄⟩ => ⟨h₁, h₂, h₃, h₄⟩⟩

namespace Confined

variable {most : Nat} {base c : List String} {flow : String}

theorem self (h : base.length ≤ most) : Confined most base base :=
  ⟨h, List.prefix_refl _, by simp, by simp⟩

theorem nil_iff : Confined most [] c ↔ c.length ≤ most ∧ c.Nodup :=
  ⟨fun h => ⟨h.length, h.nodup⟩, fun h => ⟨h.1, List.nil_prefix, h.2, by simp⟩⟩

theorem snoc (h : Confined most base c) (hc : flow ∉ c) (hlength : c.length < most) :
    Confined most base (c ++ [flow]) := by
  obtain ⟨rest, rfl⟩ := h.onward
  have hrest : rest.Nodup := by simpa using h.nodup
  have hapart : ∀ other ∈ rest, other ∉ base := by simpa using h.apart
  rw [List.mem_append, not_or] at hc
  rw [List.append_assoc]
  constructor
  · simp only [List.length_append, List.length_singleton] at hlength ⊢
    omega
  · exact List.prefix_append _ _
  · rw [List.drop_left]
    exact List.nodup_append.mpr ⟨hrest, by simp, by
      rintro other hother last hlast rfl
      rw [List.mem_singleton.mp hlast] at hother
      exact hc.2 hother⟩
  · rw [List.drop_left]
    intro other hother
    rcases List.mem_append.mp hother with hother | hother
    · exact hapart other hother
    · rw [List.mem_singleton.mp hother]
      exact hc.1

end Confined

/-- Does what another executor does where the enclosing runs are not as they should be. -/
def Executor.straying (executor : Executor) (P : List String → Prop) [DecidablePred P]
    (other : Executor) : Executor := fun node scene =>
  if P scene.place.chain then executor node scene else other node scene

namespace Dispatcher

variable {d : Dispatcher} {most : Nat} {P : List String → Prop} {t : List Exchange}

def straying (d : Dispatcher) (P : List String → Prop) [DecidablePred P] (other : Executor) :
    Dispatcher :=
  { d with registry := fun launcher => (d.registry launcher).map fun _ executor =>
      executor.straying P other }

theorem alike_straying [DecidablePred P] (hd : d.Ordinary) (other : Executor) :
    Alike P d (d.straying P other) where
  flows := rfl
  maxSteps := rfl
  maxDepth := rfl
  registry c hc l l' hl id graph hf node hn := by
    have hrelated := hd.respects _ (Work.compatible_agree _ c) l l' hl id graph hf node hn
    unfold Registry.Related Registry.get at hrelated ⊢
    rw [straying, Registry.find?_map]
    revert hrelated
    cases (d.registry (some l')).find? node.type with
    | none => exact fun h => h
    | some executor' =>
      cases (d.registry (some l)).find? node.type with
      | none => exact fun h => h
      | some executor =>
        intro hagree
        apply Agree.congr_right hagree
        intro scene hs
        exact if_pos (hs ▸ hc)

section Depth

variable (hkeyed : d.Keyed) (hdepth : Limit.least ">=" d.maxDepth = .ok most)

include hkeyed hdepth

theorem steady_confined (base : List String) : d.Steady (Confined (max 1 most) base) := by
  intro c flow graph hc hf hr
  obtain ⟨hmem, hlength⟩ := (refusal?_eq_none_iff hdepth).mp hr
  rw [hkeyed flow graph hf]
  exact hc.snoc hmem (lt_of_lt_of_le hlength (le_max_right _ _))

theorem background_straying (hd : d.Ordinary) (other : Executor) {start : Start} {base : List String}
    (h : d.Beneath (max 1 most) base start) :
    (d.straying (Confined (max 1 most) (start.chain ++ [start.flow.id])) other).background start =
      d.background start := by
  obtain ⟨id, hf⟩ := h.known
  refine (alike_straying hd other).background_eq hkeyed (steady_confined hkeyed hdepth _) hf ?_
  apply Confined.self
  have hlength := h.length
  simp only [List.length_append, List.length_singleton]
  omega

end Depth

theorem carryOut_straying [DecidablePred P] (hkeyed : d.Keyed) (hsteady : d.Steady P) (hnil : P [])
    (hd : d.Ordinary) (other : Executor) (trigger : Trigger) (trace : Log.Trace) :
    (d.straying P other).carryOut trigger ⟨trace, []⟩ = d.carryOut trigger ⟨trace, []⟩ := by
  have halike : Alike P d (d.straying P other) := alike_straying hd other
  cases trigger with
  | wait flow payload startedBy =>
    apply then_congr_left
    exact halike.run_eq hkeyed hsteady hnil flow payload startedBy
  | start flow payload startedBy =>
    exact then_congr_left (congrFun (halike.start_eq flow payload startedBy) _)
  | detach flow payload startedBy =>
    exact then_congr_left (congrFun (halike.startDetached flow payload startedBy) _)

/-- A background run comes of a row of exchanges: it is started there, or by a run that comes of it.
The number is how many runs are between them. -/
inductive Descends (d : Dispatcher) (t : List Exchange) : Nat → Start → Prop where
  | child {start : Start} (h : start ∈ starts t) : Descends d t 0 start
  | later {n : Nat} {start child : Start} {t' : List Exchange}
      {result : Except Fault Execution × Place} (h : Descends d t n start)
      (hp : (d.background start).Path t' result) (hc : child ∈ starts t') :
      Descends d t (n + 1) child

/-- The course of each background run, by its position among those that come of a trigger. -/
def Plays (d : Dispatcher) (play : List Nat → Start → List Exchange) : Prop :=
  ∀ position start, ∃ result, (d.background start).Path (play position start) result

/-- The ids of the executions that a row of exchanges creates, with those of the background runs that
it starts, of those that these start, and so on so many times. -/
def created (play : List Nat → Start → List Exchange) :
    Nat → List Nat → List Exchange → List String
  | 0, _, t => drawn t
  | generations + 1, position, t =>
    drawn t ++ (starts t).zipIdx.flatMap fun (start, i) =>
      created play generations (position ++ [i]) (play (position ++ [i]) start)

section Family

variable (hd : d.Ordinary) (hdepth : Limit.least ">=" d.maxDepth = .ok most)

include hd hdepth

theorem Beneath.deeper {start child : Start} {base : List String}
    (h : d.Beneath (max 1 most) base start) {t' : List Exchange}
    {result : Except Fault Execution × Place} (hp : (d.background start).Path t' result)
    (hc : child ∈ starts t') :
    d.Beneath (max 1 most) base child ∧ start.chain.length < child.chain.length := by
  obtain ⟨id, hf⟩ := h.known
  have hchild := beneath_background hd hdepth hf hp child hc
  have hprefix : start.chain ++ [start.flow.id] <+: child.chain := hchild.chain
  refine ⟨⟨?_, ?_, hchild.known⟩, ?_⟩
  · exact h.chain.trans ((List.prefix_append _ _).trans hprefix)
  · exact lt_of_lt_of_le hchild.length (le_max_right _ _)
  · have hlength := hprefix.length_le
    simp only [List.length_append, List.length_singleton] at hlength
    omega

theorem Descends.beneath {n : Nat} {start : Start}
    (ht : ∀ start ∈ starts t, d.Beneath (max 1 most) [] start) (h : d.Descends t n start) :
    d.Beneath (max 1 most) [] start ∧ n ≤ start.chain.length := by
  induction h with
  | child hs => exact ⟨ht _ hs, Nat.zero_le _⟩
  | later _ hp hc ih =>
    obtain ⟨hchild, hlength⟩ := ih.1.deeper hd hdepth hp hc
    exact ⟨hchild, by omega⟩

/-- Below as many generations as there is room for between a row and the depth nothing is created. -/
theorem created_stable {play : List Nat → Start → List Exchange} (hplay : d.Plays play)
    (generations more : Nat) (position : List Nat)
    (ht : ∀ start ∈ starts t, d.Beneath (max 1 most) [] start ∧
      max 1 most ≤ start.chain.length + generations) :
    created play (generations + more) position t = created play generations position t := by
  induction generations generalizing position t with
  | zero =>
    have hnil : starts t = [] := by
      rw [List.eq_nil_iff_forall_not_mem]
      intro start hs
      obtain ⟨hbeneath, hlength⟩ := ht start hs
      have := hbeneath.length
      omega
    cases more with
    | zero => rfl
    | succ more => simp [created, hnil]
  | succ generations ih =>
    rw [Nat.add_right_comm, created, created]
    congr 1
    rw [List.flatMap_def, List.flatMap_def]
    congr 1
    apply List.map_congr_left
    rintro ⟨start, i⟩ hmem
    have hs : start ∈ starts t := List.fst_mem_of_mem_zipIdx hmem
    obtain ⟨hbeneath, hlength⟩ := ht start hs
    obtain ⟨result, hp⟩ := hplay (position ++ [i]) start
    apply ih
    intro child hc
    obtain ⟨hchild, hdeeper⟩ := hbeneath.deeper hd hdepth hp hc
    exact ⟨hchild, by omega⟩

end Family

theorem exists_refuse {flow : String} {graph : FlowGraph} {place : Place}
    (hdepth : Limit.least ">=" d.maxDepth = .ok most) (hf : d.flow flow = .ok graph)
    (h : flow ∈ place.chain ∨ most ≤ place.chain.length) (room : Nat) (payload : Entries Value)
    (startedBy : String) :
    ∃ reason, d.runWithin room flow payload startedBy place = refuse flow startedBy reason place := by
  cases hr : d.refusal? place.chain flow with
  | error fault =>
    have hreached : Limit.reached d.maxDepth place.chain.length =
        .ok (decide (most ≤ place.chain.length)) := by
      rw [Limit.reached, hdepth]
      rfl
    rw [refusal?, hreached] at hr
    split at hr <;> cases hr
  | ok refusal =>
    cases refusal with
    | some reason => exact ⟨reason, runWithin_refused hf hr⟩
    | none =>
      obtain ⟨hmem, hlength⟩ := (refusal?_eq_none_iff hdepth).mp hr
      rcases h with h | h
      · exact absurd h hmem
      · exact absurd hlength (Nat.not_lt.mpr h)

/-- Recursion is cut, whatever flows call each other and however they wait for it. A call that is
waited for is refused where its flow runs already, and where as many runs are around it as the depth
says. So executors are never at work inside more runs than that, or than the one of a trigger from
outside: what they do elsewhere does not matter. Since the last start in the background all enclosing
runs are of different flows. What comes of a trigger ends after as many generations of background
runs. -/
theorem recursion_cut (d : Dispatcher) (graphs : List FlowGraph) (most : Nat)
    (hflows : d.flows = FlowStore.ofList graphs) (hdepth : d.maxDepth = .int most)
    (hd : d.Ordinary) :
    (∀ room flow graph payload startedBy place, d.flow flow = .ok graph →
      flow ∈ place.chain ∨ most ≤ place.chain.length →
        ∃ reason, d.runWithin room flow payload startedBy place =
          refuse flow startedBy reason place) ∧
    ∀ trigger trace,
      (∀ other, (d.straying (fun c => c.length ≤ max 1 most ∧ c.Nodup) other).carryOut trigger
        ⟨trace, []⟩ = d.carryOut trigger ⟨trace, []⟩) ∧
      ∀ t result place, (d.carryOut trigger).Path ⟨trace, []⟩ t result place →
        (∀ n start, d.Descends t n start →
          n ≤ start.chain.length ∧ start.chain.length < max 1 most ∧
            ∀ other, (d.straying (Confined (max 1 most) (start.chain ++ [start.flow.id]))
              other).background start = d.background start) ∧
        ∀ play, d.Plays play → ∀ more,
          created play (max 1 most + more) [] t = created play (max 1 most) [] t := by
  have hkeyed : d.Keyed := keyed_of_ofList hflows
  have hleast : Limit.least ">=" d.maxDepth = .ok most := by
    rw [hdepth]
    rfl
  constructor
  · intro room flow graph payload startedBy place hf h
    exact exists_refuse hleast hf h room payload startedBy
  · intro trigger trace
    constructor
    · intro other
      refine carryOut_straying hkeyed ?_ ⟨Nat.zero_le _, List.nodup_nil⟩ hd other trigger trace
      intro c flow graph hc hf hr
      have hconfined := steady_confined hkeyed hleast [] c flow graph (Confined.nil_iff.mpr hc) hf hr
      exact Confined.nil_iff.mp hconfined
    · intro t result place hp
      have ht := beneath_carryOut hd hleast hp
      constructor
      · intro n start hs
        obtain ⟨hbeneath, hn⟩ := hs.beneath hd hleast ht
        refine ⟨hn, hbeneath.length, ?_⟩
        intro other
        exact background_straying hkeyed hleast hd other hbeneath
      · intro play hplay more
        apply created_stable hd hleast hplay
        intro start hs
        exact ⟨ht start hs, Nat.le_add_left _ _⟩

end Dispatcher

namespace Recursion

def call (target mode : String) : Node :=
  ⟨"call", .subFlow, "", [("targetFlowId", .text target), ("mode", .text mode)], []⟩

def calling (id target mode : String) : FlowGraph :=
  { FlowGraph.plain [.plainStart, call target mode] [("start", "call", .always)] with id }

/-- Two flows that call each other, one waiting for it and one not. -/
def dispatcher : Dispatcher := .standard [calling "a" "b" "SYNC", calling "b" "a" "ASYNC"] 3

theorem mutual_cut :
    (∃ reason, dispatcher.run "a" [] "API" ⟨[], ["a", "b"]⟩ =
      Dispatcher.refuse "a" "API" reason ⟨[], ["a", "b"]⟩) ∧
    ∀ t result place, (dispatcher.carryOut (.wait "a" [] "API")).Path ⟨[], []⟩ t result place →
      ∀ n start, dispatcher.Descends t n start → n < 3 := by
  have h := dispatcher.recursion_cut [calling "a" "b" "SYNC", calling "b" "a" "ASYNC"] 3 rfl rfl
    (Dispatcher.standard_ordinary _ _)
  constructor
  · exact h.1 _ "a" (calling "a" "b" "SYNC") _ _ _ rfl (Or.inl (by decide))
  · intro t result place hp n start hs
    obtain ⟨hn, hlength, -⟩ := ((h.2 _ _).2 t result place hp).1 n start hs
    omega

end Recursion

end FlowEngine
