import FlowEngine.Proofs.Dispatch.Together

/-!
# Who has to do with an execution

At any time an execution is unheard of, or in the hands of the thread that drew its id, or handed to
the thread of a run in the background. All other threads are silent about it. So what is told of it in
the whole is told by one of them, or by one after the other.
-/

namespace FlowEngine

open Doing Exchange Dispatcher

namespace Exchange

variable {t : List Exchange} {e : Exchange} {id : String}

theorem story_singleton (e : Exchange) (id : String) :
    (story id [e] = [] ∧ ∀ start ∈ starts [e], start.execution.id ≠ id) ∨
      (story id [e] = [.drew] ∧ starts [e] = []) ∨
      (∃ execution, story id [e] = [.kept execution] ∧ starts [e] = []) ∨
      story id [e] = [.handed] ∧ ∃ start, starts [e] = [start] ∧ start.execution.id = id := by
  obtain ⟨request, reply⟩ := e
  cases request with
  | freshId =>
    by_cases hid : reply = id
    · exact Or.inr (Or.inl ⟨by simp [hid], rfl⟩)
    · exact Or.inl ⟨by simp [hid], by simp [starts, start?]⟩
  | keep execution =>
    by_cases hid : execution.id = id
    · exact Or.inr (Or.inr (Or.inl ⟨execution, by simp [hid], rfl⟩))
    · exact Or.inl ⟨by simp [hid], by simp [starts, start?]⟩
  | start start =>
    by_cases hid : start.execution.id = id
    · exact Or.inr (Or.inr (Or.inr ⟨by simp [hid], start, rfl, hid⟩))
    · exact Or.inl ⟨by simp [hid], by simpa [starts, start?] using hid⟩
  | _ => exact Or.inl ⟨rfl, by simp [starts, start?]⟩

theorem count_drew (id : String) (t : List Exchange) :
    (story id t).count .drew = (drawn t).count id := by
  induction t with
  | nil => rfl
  | cons e rest ih =>
    have hcons : e :: rest = [e] ++ rest := rfl
    have hone : (story id [e]).count .drew = (drawn [e]).count id := by
      obtain ⟨request, reply⟩ := e
      cases request with
      | freshId => by_cases hid : reply = id <;> simp [drawn, drawn?, hid]
      | keep execution =>
        have hnone : drawn [(⟨.keep execution, reply⟩ : Exchange)] = [] := rfl
        by_cases hid : execution.id = id <;> simp [hnone, hid]
      | start start =>
        have hnone : drawn [(⟨.start start, reply⟩ : Exchange)] = [] := rfl
        by_cases hid : start.execution.id = id <;> simp [hnone, hid]
      | _ => rfl
    rw [hcons, story_append, drawn_append, List.count_append, List.count_append, hone, ih]

theorem drew_once {before after : List Mark} (hn : (drawn t).Nodup)
    (h : story id t = before ++ after) (hbefore : .drew ∈ before) : .drew ∉ after := by
  intro hafter
  have hcount : (drawn t).count id ≤ 1 := List.nodup_iff_count_le_one.mp hn id
  rw [← count_drew, h, List.count_append] at hcount
  have hone := List.one_le_count_iff.mpr hbefore
  have hother := List.one_le_count_iff.mpr hafter
  omega

end Exchange

/-- What a thread tells of an execution in the end: of the one that was handed to it only its end. -/
def Origin.Tells (origin : Origin) (d : Dispatcher) (id : String) (marks : List Mark) : Prop :=
  (origin.own? = some id ∧ ∃ last, IsFinal last ∧ marks = [.kept last]) ∨
    origin.own? ≠ some id ∧ Told d marks

namespace Together

variable {σ : Type} {d : Dispatcher} {o : Outside σ} {s s' : Together σ} {site : Site σ}
  {triggers : List (Trigger × Log.Trace)} {id : String} {thread : Thread} {i : Nat}
  {history : List Exchange}

theorem Tracked.tells (hd : d.Ordinary) (h : Tracked d history thread) {u : List Exchange}
    (hu : thread.rest.Path u ()) (hn : (drawn (thread.past ++ u)).Nodup)
    (hown : ∀ own, thread.origin.own? = some own → own ∉ drawn (thread.past ++ u)) (id : String) :
    thread.origin.Tells d id (story id (thread.past ++ u)) := by
  have hp := h.comes.trans hu
  have hknown := h.known
  cases ho : thread.origin with
  | outside trigger trace =>
    rw [ho] at hp
    obtain ⟨⟨result, place⟩, hp⟩ := Dialogue.path_forget.mp hp
    exact Or.inr ⟨nofun, tells_carryOut hd hp hn id⟩
  | background start =>
    rw [ho] at hp hknown hown
    obtain ⟨flow, hf⟩ := hknown
    obtain ⟨result, hp⟩ := Dialogue.path_forget.mp hp
    rcases story_background hd hf hp hn (hown _ rfl) id with ⟨hid, hlast⟩ | ⟨hid, htold⟩
    · exact Or.inl ⟨congrArg some hid, hlast⟩
    · exact Or.inr ⟨fun h => hid (Option.some.inj h), htold⟩

/-- What a thread has told so far is a beginning of what it tells in the end. -/
theorem Tracked.exists_tells (hd : d.Ordinary) (h : Tracked d history thread)
    (hn : (drawn thread.past).Nodup)
    (hown : ∀ own, thread.origin.own? = some own → own ∉ drawn thread.past) (id : String) :
    ∃ rest, thread.origin.Tells d id (story id thread.past ++ rest) ∧
      (thread.HasEnded → rest = []) := by
  by_cases hended : thread.HasEnded
  · have hu : thread.rest.Path [] () := by
      rw [hended]
      exact .here _
    refine ⟨[], ?_, fun _ => rfl⟩
    have htells := h.tells hd hu (by rwa [List.append_nil]) (by rwa [List.append_nil]) id
    rwa [List.append_nil] at htells ⊢
  · obtain ⟨u, ⟨⟩, hu, hnu, havoid⟩ :=
      Dialogue.exists_fresh_path thread.rest (drawn thread.past ++ thread.origin.own?.toList)
    refine ⟨story id u, ?_, fun h => absurd h hended⟩
    rw [← story_append]
    apply h.tells hd hu
    · rw [drawn_append]
      refine List.nodup_append.mpr ⟨hn, hnu, ?_⟩
      rintro other hother _ hother' rfl
      exact havoid other hother' (List.mem_append_left _ hother)
    · intro own ho hmem
      rw [drawn_append, List.mem_append] at hmem
      rcases hmem with hmem | hmem
      · exact hown own ho hmem
      · exact havoid own hmem (List.mem_append_right _ (by simp [ho]))

/-- All threads are silent about an execution, some indices excepted. -/
def SilentBut (s : Together σ) (id : String) (except : Nat → Prop) : Prop :=
  ∀ (k : Nat) (other : Thread), s.threads[k]? = some other → ¬except k → other.IsSilent id

/-- Who has to do with an execution. -/
inductive Booked (s : Together σ) (id : String) : Prop where
  | unheard (hstory : story id s.history = []) (hothers : s.SilentBut id fun _ => False)
  | drawn (i : Nat) (thread : Thread) (hi : s.threads[i]? = some thread)
      (hown : thread.origin.own? ≠ some id) (hsame : story id thread.past = story id s.history)
      (hdrew : .drew ∈ story id s.history) (hopen : .handed ∉ story id s.history)
      (hothers : s.SilentBut id fun k => k = i)
  | handed (i j : Nat) (drawer runner : Thread) (first : Execution)
      (hi : s.threads[i]? = some drawer) (hj : s.threads[j]? = some runner)
      (hown : drawer.origin.own? ≠ some id) (hrunner : runner.origin.own? = some id)
      (hdrawer : story id drawer.past = [.drew, .kept first, .handed])
      (hstory : story id s.history = [.drew, .kept first, .handed] ++ story id runner.past)
      (hothers : s.SilentBut id fun k => k = i ∨ k = j)

theorem Booked.own_not_drawn {own : String} (h : Booked s own)
    (hn : (Exchange.drawn s.history).Nodup) (hi : s.threads[i]? = some thread)
    (ho : thread.origin.own? = some own) :
    own ∈ Exchange.drawn s.history ∧ own ∉ Exchange.drawn thread.past := by
  cases h with
  | unheard hstory hothers => exact absurd ho (hothers i thread hi not_false).1
  | drawn j other hj hown hsame hdrew hopen hothers =>
    by_cases hij : i = j
    · subst hij
      rw [hi] at hj
      exact absurd ho (Option.some.inj hj ▸ hown)
    · exact absurd ho (hothers i thread hi hij).1
  | handed j k drawer runner first hj hk hown hrunner hdrawer hstory hothers =>
    have hdrew : Mark.drew ∈ story own s.history := by
      rw [hstory]
      exact List.mem_cons_self
    refine ⟨drew_mem_story.mp hdrew, ?_⟩
    by_cases hij : i = j
    · subst hij
      rw [hi] at hj
      exact absurd ho (Option.some.inj hj ▸ hown)
    · by_cases hik : i = k
      · subst hik
        rw [hi] at hk
        rw [Option.some.inj hk]
        exact fun hmem => drew_once hn hstory List.mem_cons_self (drew_mem_story.mpr hmem)
      · exact absurd ho (hothers i thread hi (not_or.mpr ⟨hij, hik⟩)).1

section Turn

variable {origin : Origin} {past : List Exchange} {request : Request}
  {next : request.Reply → Dialogue Unit} (hsite : s.site.starts = [])
  (hi : s.threads[i]? = some ⟨origin, past, .ask request next⟩)

theorem starts_singleton (e : Exchange) : starts [e] = [] ∨ ∃ start, starts [e] = [start] := by
  obtain ⟨request, reply⟩ := e
  cases request with
  | start start => exact Or.inr ⟨start, rfl⟩
  | _ => exact Or.inl rfl

theorem marked_after_handed {first : Execution} {mark : Mark} {rest : List Mark}
    (hown : origin.own? ≠ some id) (hpast : story id past = [.drew, .kept first, .handed])
    (hmark : story id [s.asked o request] = [mark]) :
    ¬origin.Tells d id (story id (past ++ [s.asked o request]) ++ rest) := by
  rintro (⟨ho, -⟩ | ⟨-, htold⟩)
  · exact hown ho
  · rw [story_append, hmark, hpast] at htold
    have hafter : Told d ([.drew, .kept first] ++ .handed :: (mark :: rest)) := htold
    cases hafter.of_handed.1

/-- The thread that takes a step, if it was silent, begins to tell with the drawing of the id. -/
theorem drew_of_silent {mark : Mark} {rest : List Mark}
    (hsilent : Thread.IsSilent id ⟨origin, past, .ask request next⟩)
    (hmark : story id [s.asked o request] = [mark])
    (htells : origin.Tells d id (story id (past ++ [s.asked o request]) ++ rest)) : mark = .drew := by
  obtain ⟨hown, hpast⟩ := hsilent
  rcases htells with ⟨ho, -⟩ | ⟨-, htold⟩
  · exact absurd ho hown
  · have hnil : story id past = [] := hpast
    rw [story_append, hnil, hmark] at htold
    exact htold.eq_drew

include hsite

theorem turned_new {start : Start} (h : starts [s.asked o request] = [start]) :
    (s.turned d o i origin past request next).threads[s.threads.length]? =
      some (.opened d (.background start)) := by
  rw [threads_turned hsite, List.getElem?_append_right (by simp), h]
  simp

include hi

theorem of_turned {k : Nat}
    (h : (s.turned d o i origin past request next).threads[k]? = some thread) :
    k = i ∧ thread = s.moved o origin past request next ∨
      k ≠ i ∧ s.threads[k]? = some thread ∨
      k = s.threads.length ∧ ∃ start ∈ starts [s.asked o request],
        thread = .opened d (.background start) := by
  by_cases hki : k = i
  · subst hki
    rw [turned_self hsite hi] at h
    exact Or.inl ⟨rfl, (Option.some.inj h).symm⟩
  · refine Or.inr ?_
    rw [threads_turned hsite] at h
    by_cases hlength : k < s.threads.length
    · rw [List.getElem?_append_left (by simpa using hlength),
        List.getElem?_set_ne (Ne.symm hki)] at h
      exact Or.inl ⟨hki, h⟩
    · rw [List.getElem?_append_right (by simpa using hlength), List.length_set] at h
      rcases starts_singleton (s.asked o request) with hnone | ⟨start, hone⟩
      · rw [hnone] at h
        cases h
      · rw [hone] at h
        have hk : k = s.threads.length := by
          have hshort := (List.getElem?_eq_some_iff.mp h).1
          simp only [List.length_map, List.length_singleton] at hshort
          omega
        subst hk
        rw [Nat.sub_self] at h
        exact Or.inr ⟨rfl, start, by simp [hone], (Option.some.inj h).symm⟩

theorem SilentBut.turned {except : Nat → Prop} (h : s.SilentBut id except)
    (hmark : except i ∨ story id [s.asked o request] = [])
    (hnew : except s.threads.length ∨ ∀ start ∈ starts [s.asked o request], start.execution.id ≠ id) :
    (s.turned d o i origin past request next).SilentBut id except := by
  intro k other hk hexcept
  rcases of_turned hsite hi hk with ⟨rfl, rfl⟩ | ⟨hki, hold⟩ | ⟨rfl, start, hstart, rfl⟩
  · rcases hmark with hmark | hmark
    · exact absurd hmark hexcept
    · obtain ⟨hown, hpast⟩ := h k _ hi hexcept
      refine ⟨hown, ?_⟩
      rw [moved, story_append, hmark, List.append_nil]
      exact hpast
  · exact h k other hold hexcept
  · rcases hnew with hnew | hnew
    · exact absurd hnew hexcept
    · exact ⟨fun hid => hnew start hstart (Option.some.inj hid), rfl⟩

theorem Booked.turned_unmarked (h : Booked s id) (hnone : story id [s.asked o request] = [])
    (hnew : ∀ start ∈ starts [s.asked o request], start.execution.id ≠ id) :
    Booked (s.turned d o i origin past request next) id := by
  have hhistory : story id (s.turned d o i origin past request next).history =
      story id s.history := by
    rw [history_turned, story_append, hnone, List.append_nil]
  have hkeeps : ∀ (k : Nat) (thread : Thread), s.threads[k]? = some thread → ∃ thread',
      (s.turned d o i origin past request next).threads[k]? = some thread' ∧
        thread'.origin = thread.origin ∧ story id thread'.past = story id thread.past := by
    intro k thread hk
    by_cases hki : k = i
    · subst hki
      obtain rfl := Option.some.inj (hi.symm.trans hk)
      refine ⟨_, turned_self hsite hi, rfl, ?_⟩
      rw [moved, story_append, hnone, List.append_nil]
    · exact ⟨thread, turned_other hsite hki hk, rfl, rfl⟩
  cases h with
  | unheard hstory hothers =>
    exact .unheard (hhistory.trans hstory) (hothers.turned hsite hi (Or.inr hnone) (Or.inr hnew))
  | drawn j thread hj hown hsame hdrew hopen hothers =>
    obtain ⟨thread', hj', ho, hpast⟩ := hkeeps j thread hj
    exact .drawn j thread' hj' (ho ▸ hown) (by rw [hpast, hsame, hhistory]) (hhistory ▸ hdrew)
      (hhistory ▸ hopen) (hothers.turned hsite hi (Or.inr hnone) (Or.inr hnew))
  | handed j k drawer runner first hj hk hown hrunner hdrawer hstory hothers =>
    obtain ⟨drawer', hj', ho, hpast⟩ := hkeeps j drawer hj
    obtain ⟨runner', hk', ho', hpast'⟩ := hkeeps k runner hk
    exact .handed j k drawer' runner' first hj' hk' (ho ▸ hown) (ho' ▸ hrunner)
      (hpast.trans hdrawer) (by rw [hhistory, hpast', hstory])
      (hothers.turned hsite hi (Or.inr hnone) (Or.inr hnew))

theorem Booked.turned_told (h : Booked s id) {mark : Mark} {rest : List Mark}
    (hmark : story id [s.asked o request] = [mark]) (hopen' : mark ≠ .handed)
    (hnew : starts [s.asked o request] = [])
    (hn : (Exchange.drawn (s.history ++ [s.asked o request])).Nodup)
    (htells : origin.Tells d id (story id (past ++ [s.asked o request]) ++ rest)) :
    Booked (s.turned d o i origin past request next) id := by
  have hhistory : story id (s.turned d o i origin past request next).history =
      story id s.history ++ [mark] := by
    rw [history_turned, story_append, hmark]
  have hpast : story id (s.moved o origin past request next).past = story id past ++ [mark] := by
    rw [moved, story_append, hmark]
  have hnone : ∀ start ∈ starts [s.asked o request], start.execution.id ≠ id := by simp [hnew]
  -- Whoever was silent before would draw the id once more.
  have hagain : .drew ∈ story id s.history →
      ¬Thread.IsSilent id ⟨origin, past, .ask request next⟩ := by
    intro hdrew hsilent
    have hdrew' : mark = .drew := drew_of_silent hsilent hmark htells
    have hall : story id (s.history ++ [s.asked o request]) =
        story id s.history ++ story id [s.asked o request] := story_append
    apply drew_once hn hall hdrew
    rw [hmark, hdrew']
    exact List.mem_cons_self
  cases h with
  | unheard hstory hothers =>
    have hsilent := hothers i _ hi not_false
    have hdrew : mark = .drew := drew_of_silent hsilent hmark htells
    refine .drawn i _ (turned_self hsite hi) hsilent.1 ?_ ?_ ?_
      (SilentBut.turned hsite hi ?_ (Or.inl rfl) (Or.inr hnone))
    · have hnil : story id past = [] := hsilent.2
      rw [hpast, hhistory, hstory, hnil]
    · rw [hhistory, hdrew]
      exact List.mem_append_right _ List.mem_cons_self
    · rw [hhistory, hstory, hdrew]
      simp
    · exact fun k other hk _ => hothers k other hk not_false
  | drawn j thread hj hown hsame hdrew hopen hothers =>
    by_cases hji : j = i
    · subst hji
      obtain rfl := Option.some.inj (hi.symm.trans hj)
      refine .drawn j _ (turned_self hsite hi) hown ?_ ?_ ?_
        (hothers.turned hsite hi (Or.inl rfl) (Or.inr hnone))
      · have hsame' : story id past = story id s.history := hsame
        rw [hpast, hhistory, hsame']
      · rw [hhistory]
        exact List.mem_append_left _ hdrew
      · rw [hhistory, List.mem_append, List.mem_singleton]
        exact not_or.mpr ⟨hopen, hopen'.symm⟩
    · exact absurd (hothers i _ hi (Ne.symm hji)) (hagain hdrew)
  | handed j k drawer runner first hj hk hown hrunner hdrawer hstory hothers =>
    have hdrew : .drew ∈ story id s.history := by
      rw [hstory]
      exact List.mem_cons_self
    by_cases hji : j = i
    · subst hji
      obtain rfl := Option.some.inj (hi.symm.trans hj)
      exact absurd htells (marked_after_handed hown hdrawer hmark)
    · by_cases hki : k = i
      · subst hki
        obtain rfl := Option.some.inj (hi.symm.trans hk)
        refine .handed j k drawer _ first (turned_other hsite hji hj) (turned_self hsite hi) hown
          hrunner hdrawer ?_ (hothers.turned hsite hi (Or.inl (Or.inr rfl)) (Or.inr hnone))
        rw [hhistory, hpast, hstory, List.append_assoc]
      · exact absurd (hothers i _ hi (not_or.mpr ⟨Ne.symm hji, Ne.symm hki⟩)) (hagain hdrew)

theorem Booked.turned_handed (h : Booked s id) {start : Start} {rest : List Mark}
    (hmark : story id [s.asked o request] = [.handed])
    (hnew : starts [s.asked o request] = [start]) (hid : start.execution.id = id)
    (htells : origin.Tells d id (story id (past ++ [s.asked o request]) ++ rest)) :
    Booked (s.turned d o i origin past request next) id := by
  have hhistory : story id (s.turned d o i origin past request next).history =
      story id s.history ++ [.handed] := by
    rw [history_turned, story_append, hmark]
  have hpast : story id (s.moved o origin past request next).past = story id past ++ [.handed] := by
    rw [moved, story_append, hmark]
  have hspeaks : ¬Thread.IsSilent id ⟨origin, past, .ask request next⟩ := by
    intro hsilent
    cases (drew_of_silent hsilent hmark htells : Mark.handed = .drew)
  cases h with
  | unheard hstory hothers => exact absurd (hothers i _ hi not_false) hspeaks
  | drawn j thread hj hown hsame hdrew hopen hothers =>
    by_cases hji : j = i
    · subst hji
      obtain rfl := Option.some.inj (hi.symm.trans hj)
      rcases htells with ⟨ho, -⟩ | ⟨-, htold⟩
      · exact absurd ho hown
      · rw [story_append, hmark, List.append_assoc] at htold
        obtain ⟨-, first, hfirst⟩ := htold.of_handed
        have hsame' : story id past = story id s.history := hsame
        refine .handed j s.threads.length _ _ first (turned_self hsite hi)
          (turned_new hsite hnew) hown (congrArg some hid) ?_ ?_
          (SilentBut.turned hsite hi ?_ (Or.inl (Or.inl rfl)) (Or.inl (Or.inr rfl)))
        · rw [hpast, hfirst]
          rfl
        · rw [hhistory, ← hsame', hfirst]
          rfl
        · exact fun k other hk hexcept => hothers k other hk fun hkj => hexcept (Or.inl hkj)
    · exact absurd (hothers i _ hi (Ne.symm hji)) hspeaks
  | handed j k drawer runner first hj hk hown hrunner hdrawer hstory hothers =>
    by_cases hji : j = i
    · subst hji
      obtain rfl := Option.some.inj (hi.symm.trans hj)
      exact absurd htells (marked_after_handed hown hdrawer hmark)
    · by_cases hki : k = i
      · subst hki
        obtain rfl := Option.some.inj (hi.symm.trans hk)
        rcases htells with ⟨-, last, -, hlast⟩ | ⟨ho, -⟩
        · rw [story_append, hmark] at hlast
          have hmem : Mark.handed ∈ [Mark.kept last] := by simp [← hlast]
          simp at hmem
        · exact absurd hrunner ho
      · exact absurd (hothers i _ hi (not_or.mpr ⟨Ne.symm hji, Ne.symm hki⟩)) hspeaks

theorem Booked.turned (h : Booked s id) {rest : List Mark}
    (hn : (Exchange.drawn (s.history ++ [s.asked o request])).Nodup)
    (htells : origin.Tells d id (story id (past ++ [s.asked o request]) ++ rest)) :
    Booked (s.turned d o i origin past request next) id := by
  rcases story_singleton (s.asked o request) id with
    ⟨hnone, hnew⟩ | ⟨hdrew, hnew⟩ | ⟨execution, hkept, hnew⟩ | ⟨hhanded, start, hnew, hid⟩
  · exact h.turned_unmarked hsite hi hnone hnew
  · exact h.turned_told hsite hi hdrew nofun hnew hn htells
  · exact h.turned_told hsite hi hkept nofun hnew hn htells
  · exact h.turned_handed hsite hi hhanded hnew hid htells

end Turn

theorem Tracked.nodup_drawn (h : Tracked d history thread) (hn : (Exchange.drawn history).Nodup) :
    (Exchange.drawn thread.past).Nodup :=
  hn.sublist (h.past.filterMap drawn?)

theorem Booked.step (hd : d.Ordinary) (hsound : Sound d site s) (hs : Step d o s s')
    (h : ∀ id, Booked s id) (hn : (Exchange.drawn s'.history).Nodup) (id : String) :
    Booked s' id := by
  cases hs with
  | @turn i origin past request next hi =>
    have htracked := hsound.tracked (o := o) hi
    rw [history_turned] at hn
    have hbefore : (Exchange.drawn s.history).Nodup := by
      rw [drawn_append] at hn
      exact hn.of_append_left
    have hown : ∀ own, origin.own? = some own →
        own ∉ Exchange.drawn (past ++ [s.asked o request]) := by
      intro own ho
      obtain ⟨hdrawn, hpast⟩ := (h own).own_not_drawn hbefore hi ho
      rw [drawn_append, List.mem_append, not_or]
      refine ⟨hpast, ?_⟩
      intro hasked
      rw [drawn_append] at hn
      exact (List.nodup_append.mp hn).2.2 own hdrawn own hasked rfl
    obtain ⟨rest, htells, -⟩ := htracked.exists_tells hd (htracked.nodup_drawn hn) hown id
    exact (h id).turned hsound.starts hi hn htells

end Together

end FlowEngine
