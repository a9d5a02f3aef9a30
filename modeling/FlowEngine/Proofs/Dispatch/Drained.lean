import FlowEngine.Proofs.Dispatch.Prompt
import FlowEngine.Proofs.Dispatch.Together

/-!
# What is left when all have had their turns

The order in which a schedule gives turns is one of the orders in which runs can take their steps. A
round begins runs that are enclosed by more runs than those of the round before, so in the end nothing
is left.
-/

namespace FlowEngine

open Doing Exchange Dispatcher

namespace Site

variable {σ α : Type} {o : Outside σ}

def started (site : Site σ) : Site σ := { site with starts := [] }

def startingFirst (before : List Start) (site : Site σ) : Site σ :=
  { site with starts := before ++ site.starts }

theorem started_eq {site : Site σ} (h : site.starts = []) : site.started = site := by
  rw [started, ← h]

theorem startingFirst_started (site : Site σ) : site.started.startingFirst site.starts = site := by
  rw [startingFirst, started, List.append_nil]

theorem connect_startingFirst (c : Connector) (before : List Start) (site : Site σ) :
    connect o c (site.startingFirst before) =
      ((connect o c site).1, (connect o c site).2.startingFirst before) := by
  have hpool : (site.startingFirst before).pool = site.pool := rfl
  have houtside : (site.startingFirst before).outside = site.outside := rfl
  unfold connect
  rw [hpool]
  cases site.pool.get? c.id with
  | some address => rfl
  | none =>
    cases Database.addressOf o.readAddress c with
    | error reason => rfl
    | ok address =>
      dsimp only
      rw [houtside]
      obtain ⟨reason | _, outside⟩ := o.connect address site.outside <;> rfl

theorem query_startingFirst (c : Connector) (statement queryType : String) (before : List Start)
    (site : Site σ) :
    query o c statement queryType (site.startingFirst before) =
      ((query o c statement queryType site).1,
        (query o c statement queryType site).2.startingFirst before) := by
  unfold query
  rw [connect_startingFirst]
  obtain ⟨(text | fault) | address, connected⟩ := connect o c site <;> rfl

theorem serve_startingFirst (request : Request) (before : List Start) (site : Site σ) :
    serve o request (site.startingFirst before) =
      ((serve o request site).1, (serve o request site).2.startingFirst before) := by
  cases request with
  | publish event =>
    simp only [serve, publish, startingFirst]
    split <;> rfl
  | query c statement queryType => exact query_startingFirst c statement queryType before site
  | start start => simp [serve, startingFirst]
  | _ => rfl

/-- What waits to be started makes no difference to a dialogue. -/
theorem run_startingFirst (x : Dialogue α) (before : List Start) (site : Site σ) :
    x.run (serve o) (site.startingFirst before) =
      ((x.run (serve o) site).1, (x.run (serve o) site).2.startingFirst before) := by
  induction x generalizing site with
  | done a => rfl
  | ask request next ih =>
    simp only [Dialogue.run, serve_startingFirst]
    exact ih _ _

/-- The runs that wait after a request may be started before the dialogue goes on. -/
theorem run_ask {request : Request} (next : request.Reply → Dialogue α) (site : Site σ) :
    (Dialogue.ask request next).run (serve o) site =
      (((next (serve o request site).1).run (serve o) (serve o request site).2.started).1,
        ((next (serve o request site).1).run (serve o)
          (serve o request site).2.started).2.startingFirst (serve o request site).2.starts) := by
  have hrun := run_startingFirst (o := o) (next (serve o request site).1)
    (serve o request site).2.starts (serve o request site).2.started
  rw [startingFirst_started] at hrun
  exact hrun

end Site

namespace Together

variable {σ : Type} {d : Dispatcher} {o : Outside σ} {s s' s'' : Together σ} {site : Site σ}

theorem Leads.trans (h : Leads d o s s') (h' : Leads d o s' s'') : Leads d o s s'' := by
  induction h' with
  | here => exact h
  | step _ hs ih => exact ih.step hs

/-- A thread can go to its end while all others wait. -/
theorem leads_run {i : Nat} {origin : Origin} {past : List Exchange} {rest : Dialogue Unit}
    (s : Together σ) (hs : s.site.starts = []) (hi : s.threads[i]? = some ⟨origin, past, rest⟩) :
    ∃ s' t, Leads d o s s' ∧ rest.Path t () ∧
      s'.site = (rest.run (Site.serve o) s.site).2.started ∧
      (rest.run (Site.serve o) s.site).2.starts = starts t ∧
      s'.threads = s.threads.set i ⟨origin, past ++ t, .done ()⟩ ++
        (starts t).map fun start => .opened d (.background start) := by
  induction rest generalizing s past with
  | done a =>
    refine ⟨s, [], .here, .here _, (Site.started_eq hs).symm, hs, ?_⟩
    obtain ⟨hlength, hget⟩ := List.getElem?_eq_some_iff.mp hi
    rw [List.append_nil, ← hget, List.set_getElem_self]
    exact (List.append_nil _).symm
  | ask request next ih =>
    have hlength : i < s.threads.length := (List.getElem?_eq_some_iff.mp hi).1
    obtain ⟨s', t, hl, hp, hsite, hstarts, hthreads⟩ :=
      ih _ (s.turned d o i origin past request next) rfl (turned_self hs hi)
    refine ⟨s', s.asked o request :: t, (Leads.here.step (.turn hi)).trans hl,
      .ask request next _ hp, ?_, ?_, ?_⟩
    · rw [Site.run_ask]
      exact hsite
    · rw [Site.run_ask]
      change (Site.serve o request s.site).2.starts ++ _ = _
      rw [starts_serve, hs, List.nil_append]
      exact (congrArg _ hstarts).trans starts_append.symm
    · rw [hthreads, threads_turned hs, List.set_append_left _ _ (by simpa using hlength),
        List.set_set, List.append_assoc, List.append_assoc, ← List.map_append, ← starts_append]
      rfl

/-- These are left to be carried out, and all other threads have ended. -/
def Awaits (d : Dispatcher) (s : Together σ) (origins : List Origin) : Prop :=
  ∃ ended : List Thread, (∀ thread ∈ ended, thread.HasEnded) ∧
    s.threads.Perm (ended ++ origins.map (Thread.opened d))

theorem Awaits.perm {origins origins' : List Origin} (h : s.Awaits d origins)
    (hp : origins.Perm origins') : s.Awaits d origins' := by
  obtain ⟨ended, hended, hthreads⟩ := h
  exact ⟨ended, hended, hthreads.trans ((hp.map _).append_left _)⟩

theorem Awaits.carriedOut {origin : Origin} {origins : List Origin}
    (h : s.Awaits d (origin :: origins)) (hs : s.site.starts = []) :
    ∃ s' t, Leads d o s s' ∧ (origin.whole d).Path t () ∧
      s'.site = ((origin.whole d).run (Site.serve o) s.site).2.started ∧
      ((origin.whole d).run (Site.serve o) s.site).2.starts = starts t ∧
      s'.Awaits d (origins ++ (starts t).map .background) := by
  obtain ⟨ended, hended, hthreads⟩ := h
  have hmem : Thread.opened d origin ∈ s.threads := hthreads.mem_iff.mpr (by simp)
  obtain ⟨before, after, hsplit⟩ := List.append_of_mem hmem
  have hi : s.threads[before.length]? = some (.opened d origin) := by simp [hsplit]
  obtain ⟨s', t, hl, hp, hsite, hstarts, hthreads'⟩ := leads_run (d := d) (o := o) s hs hi
  refine ⟨s', t, hl, hp, hsite, hstarts, ⟨origin, [] ++ t, .done ()⟩ :: ended, ?_, ?_⟩
  · intro thread hthread
    rcases List.mem_cons.mp hthread with rfl | hthread
    · rfl
    · exact hended thread hthread
  · have hothers : (before ++ after).Perm (ended ++ origins.map (Thread.opened d)) := by
      have hall := List.perm_middle.symm.trans ((hsplit ▸ hthreads).trans List.perm_middle)
      exact hall.cons_inv
    have hset : s.threads.set before.length ⟨origin, [] ++ t, .done ()⟩ =
        before ++ ⟨origin, [] ++ t, .done ()⟩ :: after := by
      rw [hsplit, List.set_append_right _ _ le_rfl, Nat.sub_self, List.set_cons_zero]
    rw [hthreads', hset, List.map_append, List.map_map, ← List.append_assoc, List.cons_append]
    exact (List.perm_middle.trans (hothers.cons _)).append_right _

end Together

namespace Schedule

variable {σ α : Type} {d : Dispatcher} {o : Outside σ} {s : Schedule σ} {c : Together σ}
  {left : List Origin} {most bound round : Nat}

/-- What has its turn where no run is held up: a run that begins, or one that has ended. -/
inductive Turn where
  | begin (start : Start)
  | retire (id : String)

namespace Turn

def ready (d : Dispatcher) : Turn → Ready
  | .begin start => .advance 0 ⟨start.execution.id, d.background start⟩
  | .retire id => .retire id

def id : Turn → String
  | .begin start => start.execution.id
  | .retire id => id

def origin? : Turn → Option Origin
  | .begin start => some (.background start)
  | .retire _ => none

/-- What can have its turn in a round: a run enclosed by as many runs as there were rounds, or one that
has ended in the round before. -/
def Within (d : Dispatcher) (bound round : Nat) : Turn → Prop
  | .begin start => round ≤ start.chain.length ∧ d.Beneath bound [] start
  | .retire _ => round ≤ bound

end Turn

/-- A schedule is in the midst of a round. Some turns are still to be taken, and others are queued for
the next round. -/
structure Orderly (d : Dispatcher) (rest next : List Turn) (s : Schedule σ) : Prop where
  idle : s.site.starts = []
  queue : s.queue = next.map (Turn.ready d)
  held : s.held = []
  awaited : s.awaited = none
  active : s.active.Perm ((rest ++ next).map Turn.id)

/-- The runs that are left to a schedule are left next to each other, besides some triggers from
outside. -/
structure Mirrors (d : Dispatcher) (left : List Origin) (rest next : List Turn) (s : Schedule σ)
    (c : Together σ) : Prop extends Orderly d rest next s where
  site : c.site = s.site
  threads : c.Awaits d (left ++ (rest ++ next).filterMap Turn.origin?)

theorem enlist_eq (hs : s.site.starts = []) : enlist d s = s := by
  rw [enlist, hs]
  simp only [List.map_nil, List.append_nil]
  rw [← hs]

theorem enlist_enlist (s : Schedule σ) (first later : Site σ) :
    enlist d { enlist d { s with site := first } with site := later } =
      enlist d { s with site := later.startingFirst first.starts } := by
  simp [enlist, Site.startingFirst]

theorem carryOut_eq {x : Dialogue α} (hx : x.IsPrompt) (s : Schedule σ) (hs : s.site.starts = []) :
    carryOut d o x s = ((x.run (Site.serve o) s.site).1,
      enlist d { s with site := (x.run (Site.serve o) s.site).2 }) := by
  induction x generalizing s with
  | done a => exact Prod.ext rfl (enlist_eq hs).symm
  | ask request next ih =>
    obtain ⟨hr, hnext⟩ := hx
    rw [Site.run_ask, ← enlist_enlist, carryOut]
    simp only [hr.turns]
    exact ih _ (hnext _) _ rfl

theorem Orderly.carriedOut {origin : Origin} {x : Dialogue α} {rest next : List Turn}
    (h : Orderly d rest next s) (hx : origin.whole d = x.bind fun _ => .done ())
    (hsite : c.site = s.site)
    (hthreads : c.Awaits d (origin :: (left ++ (rest ++ next).filterMap Turn.origin?))) :
    ∃ c' t result, Together.Leads d o c c' ∧ x.Path t result ∧
      Mirrors d left rest (next ++ (starts t).map .begin)
        (enlist d { s with site := (x.run (Site.serve o) s.site).2 }) c' := by
  have hempty : c.site.starts = [] := by rw [hsite, h.idle]
  obtain ⟨c', t, hl, hp, hsite', hstarts, hthreads'⟩ := hthreads.carriedOut (o := o) hempty
  have hrun : ((origin.whole d).run (Site.serve o) c.site).2 =
      (x.run (Site.serve o) s.site).2 := by
    rw [hx, hsite, Dialogue.run_bind]
    rfl
  rw [hrun] at hsite' hstarts
  rw [hx] at hp
  obtain ⟨result, hpath⟩ := Dialogue.path_forget.mp hp
  refine ⟨c', t, result, hl, hpath, ⟨rfl, ?_, h.held, h.awaited, ?_⟩, hsite', ?_⟩
  · simp [enlist, hstarts, h.queue, Turn.ready]
  · have hids : ((starts t).map Turn.begin).map Turn.id =
        (starts t).map fun start => start.execution.id := List.map_map
    rw [← List.append_assoc, List.map_append, hids, ← hstarts]
    exact h.active.append_right _
  · have horigins : ((starts t).map Turn.begin).filterMap Turn.origin? =
        (starts t).map Origin.background := by
      rw [List.filterMap_map]
      exact congrFun (List.filterMap_eq_map (f := Origin.background)) _
    rw [← List.append_assoc, List.filterMap_append, horigins, ← List.append_assoc]
    exact hthreads'

theorem Mirrors.finish {id : String} {rest next : List Turn}
    (h : Mirrors d left (.retire id :: rest) next s c) :
    Mirrors d left rest (next ++ [.retire id]) (s.finish id) c := by
  have hfinish : s.finish id =
      { s with queue := s.queue ++ [.retire id], ended := s.ended ++ [id] } := by
    simp [Schedule.finish, h.awaited]
  rw [hfinish]
  refine ⟨⟨h.idle, ?_, h.held, h.awaited, ?_⟩, h.site, ?_⟩
  · simp [h.queue, Turn.ready]
  · refine h.active.trans (List.Perm.map _ ?_)
    rw [← List.append_assoc]
    exact (List.perm_append_singleton _ _).symm
  · have hnone : [Turn.retire id].filterMap Turn.origin? = [] := rfl
    rw [← List.append_assoc, List.filterMap_append, hnone, List.append_nil]
    exact h.threads

theorem Mirrors.retire {id : String} {rest next : List Turn}
    (h : Mirrors d left (.retire id :: rest) next s c) :
    Mirrors d left rest next (s.retire id) c := by
  refine ⟨⟨h.idle, h.queue, h.held, h.awaited, ?_⟩, h.site, h.threads⟩
  have herase := h.active.erase id
  rwa [List.cons_append, List.map_cons, Turn.id, List.erase_cons_head] at herase

theorem Turn.within_advanced {start : Start} {new : List Start} {next : List Turn}
    (hbound : most ≤ bound) (hturn : (Turn.begin start).Within d bound round)
    (hnew : ∀ child ∈ new, d.Beneath most (start.chain ++ [start.flow.id]) child)
    (hnext : ∀ turn ∈ next, turn.Within d bound (round + 1)) :
    ∀ turn ∈ next ++ new.map .begin ++ [.retire start.execution.id],
      turn.Within d bound (round + 1) := by
  obtain ⟨hround, hbeneath⟩ := hturn
  have hlength := hbeneath.length
  intro turn hmem
  rw [List.append_assoc, List.mem_append, List.mem_append, List.mem_singleton] at hmem
  rcases hmem with hmem | hmem | rfl
  · exact hnext turn hmem
  · obtain ⟨child, hc, rfl⟩ := List.mem_map.mp hmem
    have hchild := hnew child hc
    have hdeeper := hchild.chain.length_le
    simp only [List.length_append, List.length_singleton] at hdeeper
    exact ⟨by omega, List.nil_prefix, lt_of_lt_of_le hchild.length hbound, hchild.known⟩
  · exact Nat.succ_le_of_lt (lt_of_le_of_lt hround hlength)

section Calm

variable (hd : d.Calm) (hdepth : Limit.least ">=" d.maxDepth = .ok most)

include hd hdepth

theorem Mirrors.perform {trigger : Trigger} {next : List Turn}
    (h : Mirrors d (.outside trigger [] :: left) [] next s c) :
    ∃ (c' : Together σ) (new : List Start), Together.Leads d o c c' ∧
      Mirrors d left [] (next ++ new.map .begin) (s.perform d o (d.carryOut trigger)).2 c' ∧
      ∀ child ∈ new, d.Beneath (max 1 most) [] child := by
  obtain ⟨c', t, ⟨result, place⟩, hl, hp, hmirrors⟩ :=
    h.toOrderly.carriedOut (o := o) rfl h.site h.threads
  refine ⟨c', starts t, hl, ?_, beneath_carryOut hd.ordinary hdepth hp⟩
  rw [Schedule.perform, carryOut_eq (hd.isPrompt_carryOut trigger Place.outside) s h.idle]
  exact hmirrors

theorem Mirrors.advance {start : Start} {id : String} {rest next : List Turn}
    (hf : d.flow id = .ok start.flow) (h : Mirrors d left (.begin start :: rest) next s c) :
    ∃ (c' : Together σ) (new : List Start), Together.Leads d o c c' ∧
      Mirrors d left rest (next ++ new.map .begin ++ [.retire start.execution.id])
        (s.advance d o ⟨start.execution.id, d.background start⟩) c' ∧
      ∀ child ∈ new, d.Beneath most (start.chain ++ [start.flow.id]) child := by
  have horderly : Orderly d (.retire start.execution.id :: rest) next s :=
    ⟨h.idle, h.queue, h.held, h.awaited, h.active⟩
  obtain ⟨c', t, result, hl, hp, hmirrors⟩ :=
    horderly.carriedOut (o := o) rfl h.site (h.threads.perm List.perm_middle)
  refine ⟨c', starts t, hl, ?_, beneath_background hd.ordinary hdepth hf hp⟩
  rw [Schedule.advance, (hd.isPrompt_background hf).advance_eq]
  exact hmirrors.finish

theorem Mirrors.take {rest next : List Turn} (hbound : most ≤ bound) (h : Mirrors d left rest next s c)
    (hrest : ∀ turn ∈ rest, turn.Within d bound round)
    (hnext : ∀ turn ∈ next, turn.Within d bound (round + 1)) :
    ∃ (s' : Schedule σ) (c' : Together σ) (next' : List Turn),
      take d o (rest.map (Turn.ready d)) s = (false, s') ∧ Together.Leads d o c c' ∧
        Mirrors d left [] next' s' c' ∧ ∀ turn ∈ next', turn.Within d bound (round + 1) := by
  induction rest generalizing next s c with
  | nil => exact ⟨s, c, next, rfl, .here, h, hnext⟩
  | cons turn rest ih =>
    obtain ⟨hturn, hothers⟩ := List.forall_mem_cons.mp hrest
    cases turn with
    | begin start =>
      obtain ⟨id, hf⟩ := hturn.2.known
      obtain ⟨c₁, new, hl, hadvanced, hnew⟩ := h.advance (o := o) hd hdepth hf
      obtain ⟨s', c', next', htake, hl', hmirrors, hnext'⟩ :=
        ih hadvanced hothers (Turn.within_advanced hbound hturn hnew hnext)
      exact ⟨s', c', next', htake, hl.trans hl', hmirrors, hnext'⟩
    | retire id =>
      obtain ⟨s', c', next', htake, hl, hmirrors, hnext'⟩ := ih h.retire hothers hnext
      exact ⟨s', c', next', htake, hl, hmirrors, hnext'⟩

/-- Rounds go on until nothing is left, if there are more of them than runs can be nested. -/
theorem Mirrors.work {rounds : Nat} {next : List Turn} (hbound : most ≤ bound)
    (h : Mirrors d left [] next s c) (hnext : ∀ turn ∈ next, turn.Within d bound round)
    (hrounds : bound < rounds + round) :
    ∃ c', Together.Leads d o c c' ∧ Mirrors d left [] [] (work d o rounds s) c' := by
  induction rounds generalizing round next s c with
  | zero =>
    have hnil : next = [] := by
      rw [List.eq_nil_iff_forall_not_mem]
      intro turn hmem
      have hwithin := hnext turn hmem
      cases turn with
      | begin start =>
        have hlength := hwithin.2.length
        have hround := hwithin.1
        omega
      | retire id =>
        have hround : round ≤ bound := hwithin
        omega
    subst hnil
    exact ⟨c, .here, h⟩
  | succ rounds ih =>
    have hbegun : Mirrors d left next [] { s with queue := [] } c := by
      refine ⟨⟨h.idle, rfl, h.held, h.awaited, ?_⟩, h.site, ?_⟩
      · rw [List.append_nil]
        exact h.active
      · rw [List.append_nil]
        exact h.threads
    obtain ⟨s', c₁, next', htake, hl, hmirrors, hnext'⟩ :=
      hbegun.take (o := o) hd hdepth hbound hnext (by simp)
    obtain ⟨c', hl', hdone⟩ := ih hmirrors hnext' (by omega)
    rw [Schedule.work]
    by_cases hempty : s.queue.isEmpty = true
    · rw [if_pos hempty]
      have hnil : next = [] := by simpa [h.queue] using hempty
      subst hnil
      exact ⟨c, .here, h⟩
    · rw [if_neg hempty, h.queue, htake]
      exact ⟨c', hl.trans hl', hdone⟩

end Calm

end Schedule

end FlowEngine
