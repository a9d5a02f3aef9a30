import FlowEngine.Outside.Site
import FlowEngine.Proofs.Dispatch.Story

/-!
# Runs next to each other

Triggers from outside and the runs that they start in the background share a site. In a step any one of
them makes a request and goes on with the reply, and a run that it starts joins the others. Nothing is
said of the order in which they take their steps.
-/

namespace FlowEngine

open Doing Exchange Dispatcher

namespace Dialogue

variable {α : Type} {x y : Dialogue α} {t : List Exchange}

theorem path_forget {b : Unit} : (x.bind fun _ => .done ()).Path t b ↔ ∃ a, x.Path t a := by
  refine path_bind.trans ⟨?_, ?_⟩
  · rintro ⟨t₁, t₂, a, rfl, h₁, h₂⟩
    obtain ⟨rfl, -⟩ := path_done.mp h₂
    exact ⟨a, (List.append_nil t₁).symm ▸ h₁⟩
  · rintro ⟨a, h⟩
    exact ⟨t, [], a, (List.append_nil t).symm, h, .here _⟩

theorem exists_not_mem (ids : List String) : ∃ id, id ∉ ids := by
  have hbound : ∃ most, ∀ id ∈ ids, id.length ≤ most := by
    induction ids with
    | nil => exact ⟨0, by simp⟩
    | cons first rest ih =>
      obtain ⟨most, hmost⟩ := ih
      refine ⟨max first.length most, ?_⟩
      intro id hid
      rcases List.mem_cons.mp hid with rfl | hid
      · exact Nat.le_max_left _ _
      · exact Nat.le_trans (hmost id hid) (Nat.le_max_right _ _)
  obtain ⟨most, hmost⟩ := hbound
  refine ⟨String.ofList (List.replicate (most + 1) 'x'), ?_⟩
  intro hid
  have hle := hmost _ hid
  simp only [String.length_ofList, List.length_replicate] at hle
  omega

/-- A dialogue can come to its end in such a way that it draws none of these ids, and none twice. -/
theorem exists_fresh_path (x : Dialogue α) (avoid : List String) :
    ∃ t a, x.Path t a ∧ (drawn t).Nodup ∧ ∀ id ∈ drawn t, id ∉ avoid := by
  induction x generalizing avoid with
  | done a => exact ⟨[], a, .here _, List.nodup_nil, by simp [drawn]⟩
  | ask request next ih =>
    by_cases hr : request = .freshId
    · subst hr
      obtain ⟨id, hid⟩ := exists_not_mem avoid
      obtain ⟨t, a, hp, hn, havoid⟩ := ih id (id :: avoid)
      refine ⟨_, a, .ask .freshId next id hp, ?_, ?_⟩
      · exact List.nodup_cons.mpr ⟨fun hmem => havoid id hmem List.mem_cons_self, hn⟩
      · intro other hother
        rcases List.mem_cons.mp hother with rfl | hother
        · exact hid
        · exact fun hmem => havoid other hother (List.mem_cons_of_mem _ hmem)
    · obtain ⟨t, a, hp, hn, havoid⟩ := ih request.someReply avoid
      have hsame : drawn (⟨request, request.someReply⟩ :: t) = drawn t := by
        cases request <;> first | rfl | exact absurd rfl hr
      refine ⟨_, a, .ask request next _ hp, ?_, ?_⟩
      · rw [hsame]
        exact hn
      · rw [hsame]
        exact havoid

theorem Comes.exists_fresh (h : x.Comes t y) (avoid : List String) :
    ∃ u a, x.Path (t ++ u) a ∧ (drawn u).Nodup ∧ ∀ id ∈ drawn u, id ∉ avoid := by
  obtain ⟨u, a, hp, hn, havoid⟩ := exists_fresh_path y avoid
  exact ⟨u, a, h.trans hp, hn, havoid⟩

end Dialogue

/-- What a thread carries out: a trigger from outside, or a run in the background. -/
inductive Origin where
  | outside (trigger : Trigger) (trace : Log.Trace)
  | background (start : Start)

namespace Origin

def whole (d : Dispatcher) : Origin → Dialogue Unit
  | .outside trigger trace => (d.carryOut trigger ⟨trace, []⟩).bind fun _ => .done ()
  | .background start => (d.background start).bind fun _ => .done ()

def own? : Origin → Option String
  | .outside .. => none
  | .background start => some start.execution.id

def chain : Origin → List String
  | .outside .. => []
  | .background start => start.chain ++ [start.flow.id]

def IsKnown (d : Dispatcher) : Origin → Prop
  | .outside .. => True
  | .background start => ∃ id, d.flow id = .ok start.flow

end Origin

/-- A trigger or a run that has come some way. -/
structure Thread where
  origin : Origin
  past : List Exchange
  rest : Dialogue Unit

namespace Thread

def opened (d : Dispatcher) (origin : Origin) : Thread := ⟨origin, [], origin.whole d⟩

def HasEnded (thread : Thread) : Prop := thread.rest = .done ()

/-- A thread that has to do nothing with an execution so far. -/
def IsSilent (id : String) (thread : Thread) : Prop :=
  thread.origin.own? ≠ some id ∧ story id thread.past = []

end Thread

/-- The threads and the site that they share. -/
structure Together (σ : Type) where
  site : Site σ
  threads : List Thread
  history : List Exchange

namespace Together

variable {σ : Type}

def initial (d : Dispatcher) (site : Site σ) (triggers : List (Trigger × Log.Trace)) : Together σ where
  site := site
  threads := triggers.map fun entry => .opened d (.outside entry.1 entry.2)
  history := []

/-- The thread at an index has made its request and goes on. Runs that were started have joined. -/
def turned (d : Dispatcher) (o : Outside σ) (s : Together σ) (i : Nat) (origin : Origin)
    (past : List Exchange) (request : Request) (next : request.Reply → Dialogue Unit) :
    Together σ :=
  let (reply, site) := Site.serve o request s.site
  { site := { site with starts := [] }
    threads := s.threads.set i ⟨origin, past ++ [⟨request, reply⟩], next reply⟩ ++
      site.starts.map fun start => .opened d (.background start)
    history := s.history ++ [⟨request, reply⟩] }

/-- Any thread that has not ended may take the next step. -/
inductive Step (d : Dispatcher) (o : Outside σ) : Together σ → Together σ → Prop where
  | turn {s : Together σ} {i : Nat} {origin : Origin} {past : List Exchange} {request : Request}
      {next : request.Reply → Dialogue Unit}
      (h : s.threads[i]? = some ⟨origin, past, .ask request next⟩) :
      Step d o s (s.turned d o i origin past request next)

inductive Leads (d : Dispatcher) (o : Outside σ) (s : Together σ) : Together σ → Prop where
  | here : Leads d o s s
  | step {s' s'' : Together σ} (h : Leads d o s s') (hs : Step d o s' s'') : Leads d o s s''

variable {d : Dispatcher} {o : Outside σ} {s s' : Together σ} {site : Site σ}
  {triggers : List (Trigger × Log.Trace)}

theorem starts_serve (site : Site σ) (request : Request) :
    (Site.serve o request site).2.starts =
      site.starts ++ starts [⟨request, (Site.serve o request site).1⟩] := by
  cases request with
  | start start => rfl
  | publish event =>
    change (Site.publish event site).2.starts = site.starts ++ []
    unfold Site.publish
    split <;> simp
  | query c statement queryType =>
    exact (Site.query_keeps c statement queryType).2.2.trans (List.append_nil _).symm
  | _ => exact (List.append_nil _).symm

section Turn

variable {i : Nat} {origin : Origin} {past : List Exchange} {request : Request}
  {next : request.Reply → Dialogue Unit}

def asked (o : Outside σ) (s : Together σ) (request : Request) : Exchange :=
  ⟨request, (Site.serve o request s.site).1⟩

theorem history_turned :
    (s.turned d o i origin past request next).history = s.history ++ [s.asked o request] := rfl

theorem threads_turned (hs : s.site.starts = []) :
    (s.turned d o i origin past request next).threads =
      s.threads.set i ⟨origin, past ++ [s.asked o request], next (s.asked o request).reply⟩ ++
        (starts [s.asked o request]).map fun start => .opened d (.background start) := by
  change _ ++ (Site.serve o request s.site).2.starts.map _ = _
  rw [starts_serve, hs]
  rfl

def moved (o : Outside σ) (s : Together σ) (origin : Origin) (past : List Exchange)
    (request : Request) (next : request.Reply → Dialogue Unit) : Thread :=
  ⟨origin, past ++ [s.asked o request], next (s.asked o request).reply⟩

theorem turned_other (hs : s.site.starts = []) {k : Nat} (hk : k ≠ i) {thread : Thread}
    (h : s.threads[k]? = some thread) :
    (s.turned d o i origin past request next).threads[k]? = some thread := by
  have hlength : k < s.threads.length := (List.getElem?_eq_some_iff.mp h).1
  rw [threads_turned hs, List.getElem?_append_left (by simpa using hlength),
    List.getElem?_set_ne (Ne.symm hk)]
  exact h

theorem turned_self (hs : s.site.starts = [])
    (hi : s.threads[i]? = some ⟨origin, past, .ask request next⟩) :
    (s.turned d o i origin past request next).threads[i]? =
      some (s.moved o origin past request next) := by
  have hlength : i < s.threads.length := (List.getElem?_eq_some_iff.mp hi).1
  rw [threads_turned hs, List.getElem?_append_left (by simpa using hlength),
    List.getElem?_set_self hlength]
  rfl

theorem exists_turned (hs : s.site.starts = [])
    (hi : s.threads[i]? = some ⟨origin, past, .ask request next⟩) {thread : Thread}
    (h : thread ∈ s.threads) :
    ∃ thread' ∈ (s.turned d o i origin past request next).threads, thread.past <+: thread'.past := by
  obtain ⟨k, hk⟩ := List.mem_iff_getElem?.mp h
  by_cases hki : k = i
  · subst hki
    obtain rfl := Option.some.inj (hi.symm.trans hk)
    exact ⟨_, List.mem_of_getElem? (turned_self hs hi), List.prefix_append _ _⟩
  · exact ⟨thread, List.mem_of_getElem? (turned_other hs hki hk), List.prefix_refl _⟩

theorem mem_threads_turned (hs : s.site.starts = []) {thread : Thread}
    (h : thread ∈ (s.turned d o i origin past request next).threads) :
    thread ∈ s.threads ∨
      thread = s.moved o origin past request next ∨
      ∃ start ∈ starts [s.asked o request], thread = .opened d (.background start) := by
  rw [threads_turned hs, List.mem_append] at h
  rcases h with h | h
  · rcases List.mem_or_eq_of_mem_set h with h | h
    · exact Or.inl h
    · exact Or.inr (Or.inl h)
  · obtain ⟨start, hstart, rfl⟩ := List.mem_map.mp h
    exact Or.inr (Or.inr ⟨start, hstart, rfl⟩)

end Turn

/-- A thread has come from its origin, and all that it asked was asked by someone. -/
structure Tracked (d : Dispatcher) (history : List Exchange) (thread : Thread) : Prop where
  comes : (thread.origin.whole d).Comes thread.past thread.rest
  known : thread.origin.IsKnown d
  past : thread.past.Sublist history

/-- No start waits, what is stored is what was kept, and all that was asked was asked by threads that
are tracked. -/
structure Sound (d : Dispatcher) (site : Site σ) (s : Together σ) : Prop where
  starts : s.site.starts = []
  stored : s.site.executions = (kept s.history).foldl ExecutionStore.save site.executions
  threads : ∀ thread ∈ s.threads, Tracked d s.history thread
  asked : ∀ e ∈ s.history, ∃ thread ∈ s.threads, e ∈ thread.past

/-- What a thread starts is enclosed by it, and by fewer runs than the depth says. -/
theorem Tracked.beneath_starts {most : Nat} {thread : Thread} {history : List Exchange}
    (hd : d.Ordinary) (hdepth : Limit.least ">=" d.maxDepth = .ok most)
    (h : Tracked d history thread) :
    ∀ start ∈ starts thread.past, d.Beneath (max 1 most) thread.origin.chain start := by
  obtain ⟨u, ⟨⟩, hp, -, -⟩ := h.comes.exists_fresh []
  have hall : ∀ start ∈ starts (thread.past ++ u),
      d.Beneath (max 1 most) thread.origin.chain start := by
    have hknown := h.known
    cases ho : thread.origin with
    | outside trigger trace =>
      rw [ho] at hp
      obtain ⟨⟨result, place⟩, hp⟩ := Dialogue.path_forget.mp hp
      exact beneath_carryOut hd hdepth hp
    | background parent =>
      rw [ho] at hp hknown
      obtain ⟨id, hf⟩ := hknown
      obtain ⟨result, hp⟩ := Dialogue.path_forget.mp hp
      intro start hs
      exact (beneath_background hd hdepth hf hp start hs).mono (le_max_right 1 most)
  intro start hs
  apply hall
  rw [starts_append]
  exact List.mem_append_left _ hs

theorem sound_initial (hsite : site.starts = []) : Sound d site (initial d site triggers) where
  starts := hsite
  stored := rfl
  threads thread h := by
    obtain ⟨⟨trigger, trace⟩, -, rfl⟩ := List.mem_map.mp h
    exact ⟨.here _, trivial, List.Sublist.slnil⟩
  asked e he := absurd he List.not_mem_nil

theorem Sound.tracked {i : Nat} {origin : Origin} {past : List Exchange} {request : Request}
    {next : request.Reply → Dialogue Unit} (h : Sound d site s)
    (hi : s.threads[i]? = some ⟨origin, past, .ask request next⟩) :
    Tracked d (s.history ++ [s.asked o request]) (s.moved o origin past request next) := by
  have hbefore := h.threads _ (List.mem_of_getElem? hi)
  exact ⟨hbefore.comes.snoc, hbefore.known, hbefore.past.append (List.Sublist.refl _)⟩

theorem Sound.beneath_asked {most i : Nat} {origin : Origin} {past : List Exchange}
    {request : Request} {next : request.Reply → Dialogue Unit} (hd : d.Ordinary)
    (hdepth : Limit.least ">=" d.maxDepth = .ok most) (h : Sound d site s)
    (hi : s.threads[i]? = some ⟨origin, past, .ask request next⟩) :
    ∀ start ∈ Exchange.starts [s.asked o request], d.Beneath (max 1 most) origin.chain start := by
  intro start hstart
  apply (h.tracked (o := o) hi).beneath_starts hd hdepth
  rw [moved, starts_append]
  exact List.mem_append_right _ hstart

theorem Sound.step {most : Nat} (hd : d.Ordinary)
    (hdepth : Limit.least ">=" d.maxDepth = .ok most) (h : Sound d site s) (hs : Step d o s s') :
    Sound d site s' := by
  cases hs with
  | @turn i origin past request next hi =>
    constructor
    · rfl
    · rw [history_turned, kept_append, List.foldl_append, ← h.stored]
      exact Site.executions_serve (s.asked o request)
    · intro thread hthread
      rw [history_turned]
      rcases mem_threads_turned h.starts hthread with hold | rfl | ⟨start, hstart, rfl⟩
      · have hbefore := h.threads thread hold
        exact ⟨hbefore.comes, hbefore.known, hbefore.past.trans (List.sublist_append_left _ _)⟩
      · exact h.tracked hi
      · exact ⟨.here _, (h.beneath_asked hd hdepth hi start hstart).known, List.nil_sublist _⟩
    · intro e he
      rw [history_turned, List.mem_append, List.mem_singleton] at he
      rcases he with he | rfl
      · obtain ⟨thread, hthread, hpast⟩ := h.asked e he
        obtain ⟨thread', hthread', hprefix⟩ := exists_turned h.starts hi hthread
        exact ⟨thread', hthread', hprefix.subset hpast⟩
      · refine ⟨_, List.mem_of_getElem? (turned_self h.starts hi), ?_⟩
        exact List.mem_append_right _ List.mem_cons_self

theorem Leads.sound {most : Nat} (hd : d.Ordinary)
    (hdepth : Limit.least ">=" d.maxDepth = .ok most) (hsite : site.starts = [])
    (h : Leads d o (initial d site triggers) s) : Sound d site s := by
  induction h with
  | here => exact sound_initial hsite
  | step _ hs ih => exact ih.step hd hdepth hs

end Together

end FlowEngine
