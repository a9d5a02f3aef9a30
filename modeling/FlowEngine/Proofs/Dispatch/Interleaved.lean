import FlowEngine.Outside.Alone
import FlowEngine.Proofs.Dispatch.Booked
import FlowEngine.Proofs.Dispatch.Drained
import FlowEngine.Proofs.Dispatch.Exhausted
import FlowEngine.Proofs.Dispatch.Recursion

/-!
# Runs do not disturb each other

Runs of calm flows that take their steps in any order leave what each of them leaves by itself. In the
store an execution is first running and then final, or final at once if its run is refused, and a final
one stays as it is.
-/

namespace FlowEngine

open Doing Exchange Dispatcher

def Mark.record? : Mark → Option Execution
  | .kept execution => some execution
  | _ => none

def Exchange.recordsOf (id : String) (t : List Exchange) : List Execution :=
  (kept t).filter fun execution => execution.id = id

theorem Exchange.recordsOf_eq (id : String) (t : List Exchange) :
    recordsOf id t = (story id t).filterMap Mark.record? := by
  induction t with
  | nil => rfl
  | cons e rest ih =>
    have hcons : e :: rest = [e] ++ rest := rfl
    have hone : recordsOf id [e] = (story id [e]).filterMap Mark.record? := by
      obtain ⟨request, reply⟩ := e
      cases request with
      | freshId =>
        have hnone : kept [(⟨.freshId, reply⟩ : Exchange)] = [] := rfl
        rw [recordsOf, hnone]
        by_cases hid : reply = id <;> simp [hid, Mark.record?]
      | keep execution =>
        have hsome : kept [(⟨.keep execution, reply⟩ : Exchange)] = [execution] := rfl
        by_cases hid : execution.id = id <;> simp [recordsOf, hsome, hid, Mark.record?]
      | start start =>
        have hnone : kept [(⟨.start start, reply⟩ : Exchange)] = [] := rfl
        by_cases hid : start.execution.id = id <;> simp [recordsOf, hnone, hid, Mark.record?]
      | _ => rfl
    rw [hcons, story_append, List.filterMap_append, ← hone, ← ih, recordsOf, recordsOf, recordsOf,
      kept_append, List.filter_append]

/-- How an execution is kept: as running and then once as final. One that never ran, since its run was
refused, is final at once. -/
inductive Recorded (d : Dispatcher) : List Execution → Prop where
  | absent : Recorded d []
  | running {first : Execution} (hr : first.status = .running) : Recorded d [first]
  | ended {first last : Execution} (hr : first.status = .running) (h : IsFinal last) :
      Recorded d [first, last]
  | refused {only : Execution} (h : d.IsRefused only) : Recorded d [only]

section Told

variable {d : Dispatcher}

theorem Told.recorded {marks rest : List Mark} (h : Told d (marks ++ rest)) (hopen : .handed ∉ marks) :
    Recorded d (marks.filterMap Mark.record?) := by
  generalize hall : marks ++ rest = all at h
  rcases marks with _ | ⟨m₁, _ | ⟨m₂, _ | ⟨m₃, marks⟩⟩⟩
  · exact .absent
  · cases h <;> simp at hall
    all_goals
      obtain ⟨rfl, -⟩ := hall
      exact .absent
  · cases h with
    | untold => simp at hall
    | refused h =>
      obtain ⟨rfl, rfl, -⟩ : m₁ = _ ∧ m₂ = _ ∧ rest = [] := by simpa using hall
      exact .refused h
    | ended hr h =>
      obtain ⟨rfl, rfl, -⟩ : m₁ = _ ∧ m₂ = _ ∧ rest = _ := by simpa using hall
      exact .running hr
    | handed hr =>
      obtain ⟨rfl, rfl, -⟩ : m₁ = _ ∧ m₂ = _ ∧ rest = _ := by simpa using hall
      exact .running hr
  · cases h with
    | untold => simp at hall
    | refused h => simp at hall
    | ended hr h =>
      obtain ⟨rfl, rfl, rfl, rfl, -⟩ : m₁ = _ ∧ m₂ = _ ∧ m₃ = _ ∧ marks = [] ∧ rest = [] := by
        simpa using hall
      exact .ended hr h
    | handed hr =>
      obtain ⟨rfl, rfl, rfl, -⟩ : m₁ = _ ∧ m₂ = _ ∧ m₃ = _ ∧ marks = [] ∧ rest = [] := by
        simpa using hall
      simp at hopen

end Told

namespace Dispatcher

variable {d : Dispatcher} {t : List Exchange} {start : Start} {execution : Execution}

section Accounted

variable (hd : d.Ordinary) (hkeyed : d.Keyed)

include hd hkeyed

theorem accounted_carryOut {trigger : Trigger} {place place' : Place}
    {result : Except Fault (Option Execution)}
    (hp : (d.carryOut trigger).Path place t result place') :
    ∀ execution ∈ kept t, execution.status ≠ .running → d.Accounted t execution := by
  apply (allows_accounted hd.respects hkeyed).of_carryOut hd.respects Request.basic_isPlain hp
  · intro flow payload startedBy begun hs _ execution he hfinal
    exact absurd (hs.running execution he) hfinal
  · exact d.spare_le_room _

theorem accounted_background {flow : String} (hf : d.flow flow = .ok start.flow)
    {result : Except Fault Execution × Place} (hp : (d.background start).Path t result) :
    ∀ execution ∈ kept t, execution.status ≠ .running → d.Accounted t execution ∨
      start.execution.id = execution.id ∧ ∃ place, result = (.ok execution, place) := by
  obtain ⟨inner, outcome, last, hinner, hc, hresult, hplace⟩ :=
    (allows_accounted hd.respects hkeyed).of_background hd.respects Request.basic_isPlain hf hp
  intro execution he hfinal
  rw [hc.kept_eq, List.mem_append, List.mem_singleton] at he
  rcases he with he | rfl
  · exact Or.inl ((hinner (d.spare_le_room _) execution he hfinal).mono hc.inner_infix)
  · exact Or.inr ⟨hc.asked.1.symm, _, Prod.ext hresult hplace⟩

end Accounted

end Dispatcher

/-- A run that a thread carries out: its own in the background, or one that it waits for. -/
inductive Thread.Runs (d : Dispatcher) (thread : Thread) (execution : Execution) :
    Dialogue (Except Fault Execution × Place) → Prop where
  | waited (payload : Entries Value) (place : Place) :
      Runs d thread execution (d.run execution.flowId payload execution.triggeredBy place)
  | own (start : Start) (ho : thread.origin = .background start)
      (hid : start.execution.id = execution.id) : Runs d thread execution (d.background start)

/-- An execution is what its run gives by itself. However the thread goes on, the course of the run is a
part of its own, without anything in between. And in whatever surroundings the run draws the same ids,
and sees the same instants and the same ends of waits, it gives the same. -/
def Thread.Alone (d : Dispatcher) (thread : Thread) (execution : Execution) : Prop :=
  ∀ later, thread.rest.Path later () →
    ∃ run own, thread.Runs d execution run ∧ own <:+: thread.past ++ later ∧
      (∃ place, run.Path own (.ok execution, place)) ∧
      ∀ other result, run.Path other result → seen other = seen own → result.1 = .ok execution

namespace Together

variable {σ : Type} {d : Dispatcher} {o : Outside σ} {s : Together σ} {site : Site σ}
  {triggers : List (Trigger × Log.Trace)} {id : String} {thread : Thread}
  {history : List Exchange}

theorem same_of_replays {run : Dialogue (Except Fault Execution × Place)} {own : List Exchange}
    {execution : Execution} {place : Place} (hreplays : run.Replays)
    (hp : run.Path own (.ok execution, place)) :
    ∀ other result, run.Path other result → seen other = seen own → result.1 = .ok execution := by
  intro other result hother hseen
  obtain ⟨hresult, -⟩ := hreplays other own result _ [] [] hother hp (by rw [hseen])
  rw [hresult]

theorem Tracked.alone (hd : d.Calm) (hkeyed : d.Keyed) (h : Tracked d history thread) :
    ∀ execution ∈ kept thread.past, execution.status ≠ .running → thread.Alone d execution := by
  intro execution he hfinal later hlater
  have hwhole := h.comes.trans hlater
  have hmem : execution ∈ kept (thread.past ++ later) := by
    rw [kept_append]
    exact List.mem_append_left _ he
  -- Such an execution is that of a run that was waited for, except for the thread's own.
  have haccounted : d.Accounted (thread.past ++ later) execution →
      ∃ run own, thread.Runs d execution run ∧ own <:+: thread.past ++ later ∧
        (∃ place, run.Path own (.ok execution, place)) ∧
        ∀ other result, run.Path other result → seen other = seen own →
          result.1 = .ok execution := by
    rintro ⟨own, payload, place, hown, hp⟩
    have hreplays := hd.replays_runWithin d.room execution.flowId payload execution.triggeredBy place
    exact ⟨_, own, .waited payload place, hown, ⟨place, hp⟩, same_of_replays hreplays hp⟩
  have hknown := h.known
  cases ho : thread.origin with
  | outside trigger trace =>
    rw [ho] at hwhole
    obtain ⟨⟨result, place⟩, hp⟩ := Dialogue.path_forget.mp hwhole
    exact haccounted (accounted_carryOut hd.ordinary hkeyed hp execution hmem hfinal)
  | background start =>
    rw [ho] at hwhole hknown
    obtain ⟨flow, hf⟩ := hknown
    obtain ⟨result, hp⟩ := Dialogue.path_forget.mp hwhole
    rcases accounted_background hd.ordinary hkeyed hf hp execution hmem hfinal with
      hinner | ⟨hid, place, rfl⟩
    · exact haccounted hinner
    · exact ⟨_, _, .own start ho hid, List.infix_rfl, ⟨place, hp⟩,
        same_of_replays (hd.replays_background hf) hp⟩

theorem Sound.alone (hd : d.Calm) (hkeyed : d.Keyed) (h : Sound d site s) :
    ∀ execution ∈ kept s.history, execution.status ≠ .running →
      ∃ thread ∈ s.threads, execution ∈ kept thread.past ∧ thread.Alone d execution := by
  intro execution he hfinal
  obtain ⟨e, hasked, hkept⟩ := List.mem_filterMap.mp he
  obtain ⟨thread, hthread, hpast⟩ := h.asked e hasked
  have hmem : execution ∈ kept thread.past := List.mem_filterMap.mpr ⟨e, hpast, hkept⟩
  exact ⟨thread, hthread, hmem, (h.threads thread hthread).alone hd hkeyed execution hmem hfinal⟩

section Booked

variable (hd : d.Ordinary) (hsound : Sound d site s) (hn : (Exchange.drawn s.history).Nodup)
  (hbooked : ∀ id, Booked s id)

include hd hsound hn hbooked

theorem tells_of_booked {i : Nat} (hi : s.threads[i]? = some thread) (id : String) :
    ∃ rest, thread.origin.Tells d id (story id thread.past ++ rest) ∧
      (thread.HasEnded → rest = []) := by
  have htracked := hsound.threads thread (List.mem_of_getElem? hi)
  apply htracked.exists_tells hd (htracked.nodup_drawn hn)
  intro own ho
  exact ((hbooked own).own_not_drawn hn hi ho).2

theorem Booked.recorded (id : String) : Recorded d (recordsOf id s.history) := by
  rw [recordsOf_eq]
  cases hbooked id with
  | unheard hstory hothers =>
    rw [hstory]
    exact .absent
  | drawn i thread hi hown hsame hdrew hopen hothers =>
    obtain ⟨rest, htells, -⟩ := tells_of_booked hd hsound hn hbooked hi id
    rcases htells with ⟨ho, -⟩ | ⟨-, htold⟩
    · exact absurd ho hown
    · rw [hsame] at htold
      exact htold.recorded hopen
  | handed i j drawer runner first hi hj hown hrunner hdrawer hstory hothers =>
    obtain ⟨rest, htells, -⟩ := tells_of_booked hd hsound hn hbooked hi id
    obtain ⟨rest', htells', -⟩ := tells_of_booked hd hsound hn hbooked hj id
    have hrunning : first.status = .running := by
      rcases htells with ⟨ho, -⟩ | ⟨-, htold⟩
      · exact absurd ho hown
      · rw [hdrawer] at htold
        cases htold with
        | handed hr => exact hr
    rcases htells' with ⟨-, last, hlast, hmarks⟩ | ⟨ho, -⟩
    · rw [hstory, List.filterMap_append]
      cases hpast : story id runner.past with
      | nil => exact .running hrunning
      | cons mark marks =>
        rw [hpast, List.cons_append, List.cons.injEq] at hmarks
        obtain ⟨rfl, hnil⟩ := hmarks
        rw [(List.append_eq_nil_iff.mp hnil).1]
        exact .ended hrunning hlast
    · exact absurd hrunner ho

end Booked

end Together

namespace Interleaved

def name (n : Nat) : String := String.ofList (List.replicate n 'x')

def outside : Outside Nat where
  send _ n := (.transport "ConnectError" Alone.unavailable, n)
  readAddress := Database.Address.read
  connect _ n := (.ok (), n)
  statement _ _ n := (.refused Alone.unavailable, n)
  disconnect _ n := n
  complete _ n := (.broken Alone.unavailable, n)
  script _ _ _ n := (⟨0, [], .ok (.failed (.text Alone.unavailable))⟩, n)
  pause _ n := (false, n)
  now n := (⟨2024, 1, 2, 3, 4, 5, 0, some 0⟩, n)
  freshId n := (name n, n + 1)
  consult _ n := (.ok .null, n)

def site : Site Nat := .fresh 0 .nobody

/-- Two flows that wait for each other. -/
def waiting : Dispatcher :=
  .standard [Recursion.calling "a" "b" "SYNC", Recursion.calling "b" "a" "SYNC"] 3

end Interleaved

end FlowEngine
