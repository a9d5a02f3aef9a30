import FlowEngine.Proofs.Work.Ensures

/-!
# What is asked and replied

A dialogue with its surroundings leaves a row of exchanges. What a run does to a site, and how runs
next to each other can be told apart, hangs on these rows alone. The row of work that is put together
is put together of the rows of its parts.
-/

namespace FlowEngine

/-- A request and the reply to it. -/
structure Exchange where
  request : Request
  reply : request.Reply

namespace Dialogue

variable {α β σ : Type}

/-- One dialogue has come to another by a row of exchanges. -/
inductive Comes : Dialogue α → List Exchange → Dialogue α → Prop where
  | here (x : Dialogue α) : Comes x [] x
  | ask (request : Request) (next : request.Reply → Dialogue α) (reply : request.Reply)
      {t : List Exchange} {y : Dialogue α} (h : Comes (next reply) t y) :
      Comes (.ask request next) (⟨request, reply⟩ :: t) y

/-- A dialogue has come to its end by a row of exchanges. -/
def Path (x : Dialogue α) (t : List Exchange) (a : α) : Prop := x.Comes t (.done a)

variable {x y z : Dialogue α} {t t' : List Exchange} {a b : α} {request : Request}
  {next : request.Reply → Dialogue α}

theorem Comes.trans (h : x.Comes t y) (h' : y.Comes t' z) : x.Comes (t ++ t') z := by
  induction h with
  | here x => exact h'
  | ask request next reply _ ih => exact .ask request next reply (ih h')

theorem Comes.snoc {reply : request.Reply} (h : x.Comes t (.ask request next)) :
    x.Comes (t ++ [⟨request, reply⟩]) (next reply) :=
  h.trans (.ask request next reply (.here _))

theorem path_done : (done a).Path t b ↔ t = [] ∧ a = b := by
  constructor
  · rintro ⟨⟩
    exact ⟨rfl, rfl⟩
  · rintro ⟨rfl, rfl⟩
    exact .here _

theorem path_ask :
    (ask request next).Path t a ↔
      ∃ reply rest, t = ⟨request, reply⟩ :: rest ∧ (next reply).Path rest a := by
  constructor
  · rintro ⟨⟩
    exact ⟨_, _, rfl, by assumption⟩
  · rintro ⟨reply, rest, rfl, h⟩
    exact .ask request next reply h

theorem path_log {record : Log.Record} :
    (ask (.log record) fun _ => done a).Path t b ↔ t = [⟨.log record, ()⟩] ∧ b = a := by
  refine path_ask.trans ⟨?_, ?_⟩
  · rintro ⟨⟨⟩, rest, rfl, h⟩
    obtain ⟨rfl, rfl⟩ := path_done.mp h
    exact ⟨rfl, rfl⟩
  · rintro ⟨rfl, rfl⟩
    exact ⟨(), [], rfl, .here _⟩

theorem path_bind {f : α → Dialogue β} {b : β} :
    (x.bind f).Path t b ↔ ∃ t₁ t₂ a, t = t₁ ++ t₂ ∧ x.Path t₁ a ∧ (f a).Path t₂ b := by
  induction x generalizing t with
  | done a =>
    constructor
    · exact fun h => ⟨[], t, a, rfl, .here _, h⟩
    · rintro ⟨t₁, t₂, a', rfl, h₁, h₂⟩
      obtain ⟨rfl, rfl⟩ := path_done.mp h₁
      exact h₂
  | ask request next ih =>
    constructor
    · intro h
      obtain ⟨reply, rest, rfl, hr⟩ := path_ask.mp h
      obtain ⟨t₁, t₂, a, rfl, h₁, h₂⟩ := (ih reply).mp hr
      exact ⟨_, t₂, a, rfl, .ask request next reply h₁, h₂⟩
    · rintro ⟨t₁, t₂, a, rfl, h₁, h₂⟩
      obtain ⟨reply, rest, rfl, hr⟩ := path_ask.mp h₁
      exact .ask request _ reply ((ih reply).mpr ⟨rest, t₂, a, rfl, hr, h₂⟩)

/-- A dialogue ends whatever is replied, so what has begun can be brought to an end. -/
theorem exists_path (x : Dialogue α) : ∃ t a, x.Path t a := by
  induction x with
  | done a => exact ⟨[], a, .here _⟩
  | ask request next ih =>
    obtain ⟨t, a, h⟩ := ih request.someReply
    exact ⟨_, a, .ask request next _ h⟩

theorem canEnd_iff_path : x.CanEnd a ↔ ∃ t, x.Path t a := by
  induction x with
  | done b =>
    constructor
    · exact fun h => ⟨[], path_done.mpr ⟨rfl, h⟩⟩
    · exact fun ⟨t, h⟩ => (path_done.mp h).2
  | ask request next ih =>
    constructor
    · rintro ⟨reply, h⟩
      obtain ⟨t, ht⟩ := (ih reply).mp h
      exact ⟨_, .ask request next reply ht⟩
    · rintro ⟨t, h⟩
      obtain ⟨reply, rest, -, hr⟩ := path_ask.mp h
      exact ⟨reply, (ih reply).mpr ⟨rest, hr⟩⟩

theorem always_iff_forall_path {p : α → Prop} : x.Always p ↔ ∀ t a, x.Path t a → p a := by
  rw [always_iff_forall_canEnd]
  exact ⟨fun h t a ht => h a (canEnd_iff_path.mpr ⟨t, ht⟩),
    fun h a ha => (canEnd_iff_path.mp ha).elim fun t ht => h t a ht⟩

def transcript (serve : (r : Request) → σ → r.Reply × σ) : Dialogue α → σ → List Exchange
  | .done _, _ => []
  | .ask request next, s =>
    ⟨request, (serve request s).1⟩ :: transcript serve (next (serve request s).1) (serve request s).2

variable (serve : (r : Request) → σ → r.Reply × σ)

theorem path_transcript (x : Dialogue α) (s : σ) : x.Path (x.transcript serve s) (x.run serve s).1 := by
  induction x generalizing s with
  | done a => exact .here _
  | ask request next ih => exact .ask request next _ (ih _ _)

def after (s : σ) (t : List Exchange) : σ := t.foldl (fun s e => (serve e.request s).2) s

theorem run_snd (x : Dialogue α) (s : σ) : (x.run serve s).2 = after serve s (x.transcript serve s) := by
  induction x generalizing s with
  | done a => rfl
  | ask request next ih => exact ih _ _

def Served (s : σ) : List Exchange → Prop
  | [] => True
  | e :: rest => e.reply = (serve e.request s).1 ∧ Served (serve e.request s).2 rest

theorem served_transcript (x : Dialogue α) (s : σ) : Served serve s (x.transcript serve s) := by
  induction x generalizing s with
  | done a => trivial
  | ask request next ih => exact ⟨rfl, ih _ _⟩

variable {serve}

theorem served_append {s : σ} :
    Served serve s (t ++ t') ↔ Served serve s t ∧ Served serve (after serve s t) t' := by
  induction t generalizing s with
  | nil => simp [Served, after]
  | cons e rest ih => exact (and_congr_right fun _ => ih).trans and_assoc.symm

theorem Path.run_eq {s : σ} (h : x.Path t a) (hs : Served serve s t) :
    x.run serve s = (a, after serve s t) := by
  induction x generalizing s t with
  | done b =>
    obtain ⟨rfl, rfl⟩ := path_done.mp h
    rfl
  | ask request next ih =>
    obtain ⟨reply, rest, rfl, hr⟩ := path_ask.mp h
    obtain ⟨he, hs⟩ := hs
    have hreply : reply = (serve request s).1 := he
    subst hreply
    exact ih _ hr hs

end Dialogue

namespace Doing

variable {σ α β : Type} {x : Doing σ α} {f : α → Doing σ β} {s s' : σ} {t : List Exchange}
  {result : Except Fault α}

/-- Work ends with a result or a fault, and in a state, after a row of exchanges. -/
def Path (x : Doing σ α) (s : σ) (t : List Exchange) (result : Except Fault α) (s' : σ) : Prop :=
  (x s).Path t (result, s')

theorem path_pure {a : α} :
    (pure a : Doing σ α).Path s t result s' ↔ t = [] ∧ result = .ok a ∧ s' = s := by
  refine Dialogue.path_done.trans (and_congr_right fun _ => ?_)
  rw [Prod.mk.injEq]
  exact and_congr eq_comm eq_comm

/-- What comes after a part of work that gave a result, and nothing after one that ended in a
fault. -/
def Then (f : α → Doing σ β) (first : Except Fault α) (s : σ) (t : List Exchange)
    (result : Except Fault β) (s' : σ) : Prop :=
  match first with
  | .ok a => (f a).Path s t result s'
  | .error fault => t = [] ∧ result = .error fault ∧ s' = s

theorem path_bind {result : Except Fault β} :
    (x >>= f).Path s t result s' ↔
      ∃ t₁ t₂ first s₁, t = t₁ ++ t₂ ∧ x.Path s t₁ first s₁ ∧ Then f first s₁ t₂ result s' := by
  refine Dialogue.path_bind.trans ⟨?_, ?_⟩
  · rintro ⟨t₁, t₂, ⟨fault | a, s₁⟩, rfl, h₁, h₂⟩
    · obtain ⟨rfl, he⟩ := Dialogue.path_done.mp h₂
      cases he
      exact ⟨t₁, [], _, _, rfl, h₁, rfl, rfl, rfl⟩
    · exact ⟨t₁, t₂, _, _, rfl, h₁, h₂⟩
  · rintro ⟨t₁, t₂, first, s₁, rfl, h₁, h₂⟩
    refine ⟨t₁, t₂, (first, s₁), rfl, h₁, ?_⟩
    cases first with
    | error fault =>
      obtain ⟨rfl, rfl, rfl⟩ := h₂
      exact .here _
    | ok a => exact h₂

theorem path_ask {r : Request} {result : Except Fault r.Reply} :
    (ask r : Doing σ r.Reply).Path s t result s' ↔
      ∃ reply, t = [⟨r, reply⟩] ∧ result = .ok reply ∧ s' = s := by
  refine Dialogue.path_ask.trans ⟨?_, ?_⟩
  · rintro ⟨reply, rest, rfl, h⟩
    obtain ⟨rfl, he⟩ := Dialogue.path_done.mp h
    cases he
    exact ⟨reply, rfl, rfl, rfl⟩
  · rintro ⟨reply, rfl, rfl, rfl⟩
    exact ⟨reply, [], rfl, .here _⟩

theorem path_ofExcept {first : Except Fault α} :
    (ofExcept first : Doing σ α).Path s t result s' ↔ t = [] ∧ result = first ∧ s' = s := by
  refine Dialogue.path_done.trans (and_congr_right fun _ => ?_)
  rw [Prod.mk.injEq]
  exact and_congr eq_comm eq_comm

theorem path_ofExcept_bind {first : Except Fault α} {result : Except Fault β} :
    (ofExcept first >>= f).Path s t result s' ↔ Then f first s t result s' := by
  refine path_bind.trans ⟨?_, fun h => ⟨[], t, first, s, rfl, path_ofExcept.mpr ⟨rfl, rfl, rfl⟩, h⟩⟩
  rintro ⟨t₁, t₂, _, s₁, rfl, h₁, h₂⟩
  obtain ⟨rfl, rfl, rfl⟩ := path_ofExcept.mp h₁
  exact h₂

theorem path_state {result : Except Fault σ} :
    (state : Doing σ σ).Path s t result s' ↔ t = [] ∧ result = .ok s ∧ s' = s := path_ofExcept

theorem path_map {f : α → β} {result : Except Fault β} :
    (x >>= fun a => pure (f a)).Path s t result s' ↔
      ∃ first, x.Path s t first s' ∧ result = first.map f := by
  refine path_bind.trans ⟨?_, ?_⟩
  · rintro ⟨t₁, t₂, fault | a, s₁, rfl, h₁, h₂⟩
    · obtain ⟨rfl, rfl, rfl⟩ := h₂
      exact ⟨.error fault, (List.append_nil t₁).symm ▸ h₁, rfl⟩
    · obtain ⟨rfl, rfl, rfl⟩ := path_ofExcept.mp h₂
      exact ⟨.ok a, (List.append_nil t₁).symm ▸ h₁, rfl⟩
  · rintro ⟨fault | a, hp, rfl⟩
    · exact ⟨t, [], .error fault, s', (List.append_nil t).symm, hp, rfl, rfl, rfl⟩
    · exact ⟨t, [], .ok a, s', (List.append_nil t).symm, hp, .here _⟩

theorem path_attempt {result : Except Fault (Except Fault α)} :
    (attempt x).Path s t result s' ↔ ∃ first, result = .ok first ∧ x.Path s t first s' := by
  refine Dialogue.path_bind.trans ⟨?_, ?_⟩
  · rintro ⟨t₁, t₂, ⟨first, s₁⟩, rfl, h₁, h₂⟩
    obtain ⟨rfl, he⟩ := Dialogue.path_done.mp h₂
    cases he
    exact ⟨first, rfl, (List.append_nil t₁).symm ▸ h₁⟩
  · rintro ⟨first, rfl, h⟩
    exact ⟨t, [], (first, s'), (List.append_nil t).symm, h, .here _⟩

theorem ensures_iff_forall_path {post : Except Fault α → σ → Prop} :
    x.Ensures s post ↔ ∀ t result s', x.Path s t result s' → post result s' :=
  Dialogue.always_iff_forall_path.trans
    ⟨fun h t result s' => h t (result, s'), fun h t a => h t a.1 a.2⟩

end Doing

namespace Act

variable {place place' : Place} {t : List Exchange} {result : Except Fault Unit}

theorem path_note {line : Log.Line} :
    (note line).Path place t result place' ↔
      t = [⟨.log ⟨line, place.trace, false⟩, ()⟩] ∧ result = .ok () ∧ place' = place :=
  Dialogue.path_log.trans (and_congr_right fun _ => Prod.mk.injEq .. ▸ Iff.rfl)

theorem path_noteCourse {line : Log.Line} :
    (noteCourse line).Path place t result place' ↔
      t = [⟨.log ⟨line, place.trace, true⟩, ()⟩] ∧ result = .ok () ∧ place' = place :=
  Dialogue.path_log.trans (and_congr_right fun _ => Prod.mk.injEq .. ▸ Iff.rfl)

end Act

theorem Work.path_act {α : Type} {x : Act α} {scene scene' : Scene} {t : List Exchange}
    {result : Except Fault α} :
    (act x).Path scene t result scene' ↔
      ∃ place, x.Path scene.place t result place ∧ scene' = { scene with place } := by
  refine Dialogue.path_bind.trans ⟨?_, ?_⟩
  · rintro ⟨t₁, t₂, ⟨first, place⟩, rfl, h₁, h₂⟩
    obtain ⟨rfl, he⟩ := Dialogue.path_done.mp h₂
    cases he
    exact ⟨place, (List.append_nil t₁).symm ▸ h₁, rfl⟩
  · rintro ⟨place, h, rfl⟩
    exact ⟨t, [], (result, place), (List.append_nil t).symm, h, .here _⟩

def Exchange.AreLog (t : List Exchange) : Prop := ∀ e ∈ t, ∃ record, e = ⟨.log record, ()⟩

theorem Exchange.areLog_nil : Exchange.AreLog [] := by simp [AreLog]

theorem Exchange.areLog_log (record : Log.Record) : Exchange.AreLog [⟨.log record, ()⟩] := by
  simp [AreLog]

theorem Exchange.AreLog.append {t t' : List Exchange} (h : AreLog t) (h' : AreLog t') :
    AreLog (t ++ t') :=
  fun e he => (List.mem_append.mp he).elim (h e) (h' e)

theorem Exchange.filterMap_areLog {β : Type} {f : Exchange → Option β} {t : List Exchange}
    (hf : ∀ record, f ⟨.log record, ()⟩ = none) (h : AreLog t) : t.filterMap f = [] := by
  rw [List.filterMap_eq_nil_iff]
  intro e he
  obtain ⟨record, rfl⟩ := h e he
  exact hf record

theorem Act.path_noteAll {lines : List Log.Line} {place place' : Place} {t : List Exchange}
    {result : Except Fault Unit} (h : (Act.noteAll lines).Path place t result place') :
    Exchange.AreLog t ∧ result = .ok () ∧ place' = place := by
  induction lines generalizing t with
  | nil =>
    obtain ⟨rfl, rfl, rfl⟩ := Doing.path_pure.mp h
    exact ⟨Exchange.areLog_nil, rfl, rfl⟩
  | cons line rest ih =>
    obtain ⟨t₁, t₂, first, place₁, rfl, h₁, h₂⟩ := Doing.path_bind.mp h
    obtain ⟨rfl, rfl, rfl⟩ := Act.path_note.mp h₁
    obtain ⟨hlog, hresult, hplace⟩ := ih h₂
    exact ⟨(Exchange.areLog_log _).append hlog, hresult, hplace⟩

namespace Work

open Doing Exchange

variable {scene scene' : Scene} {t : List Exchange} {result : Except Fault Unit}

theorem path_context {α : Type} {f : Context → Work α} {result : Except Fault α} :
    (context >>= f).Path scene t result scene' ↔ (f scene.context).Path scene t result scene' := Iff.rfl

theorem path_scope {α : Type} {f : Scope → Work α} {result : Except Fault α} :
    (scope >>= f).Path scene t result scene' ↔ (f ⟨scene.context, none⟩).Path scene t result scene' :=
  Iff.rfl

theorem path_note {line : Log.Line} (h : (note line).Path scene t result scene') :
    AreLog t ∧ result = .ok () ∧ scene' = scene := by
  obtain ⟨place, hp, rfl⟩ := path_act.mp h
  obtain ⟨rfl, rfl, rfl⟩ := Act.path_note.mp hp
  exact ⟨areLog_log _, rfl, rfl⟩

theorem path_noteAll {lines : List Log.Line} (h : (noteAll lines).Path scene t result scene') :
    AreLog t ∧ result = .ok () ∧ scene' = scene := by
  obtain ⟨place, hp, rfl⟩ := path_act.mp h
  obtain ⟨hlog, hresult, rfl⟩ := Act.path_noteAll hp
  exact ⟨hlog, hresult, rfl⟩

theorem path_note_bind {α : Type} {line : Log.Line} {f : Unit → Work α} {result : Except Fault α}
    (h : (note line >>= f).Path scene t result scene') :
    ∃ told rest, t = told ++ rest ∧ AreLog told ∧ (f ()).Path scene rest result scene' := by
  obtain ⟨told, rest, _, scene₁, rfl, hnote, hrest⟩ := path_bind.mp h
  obtain ⟨htold, rfl, rfl⟩ := path_note hnote
  exact ⟨told, rest, rfl, htold, hrest⟩

theorem path_resolve {scope : Scope} {template : String} {result : Except Fault String}
    (h : (resolve scope template).Path scene t result scene') :
    AreLog t ∧ result = scope.resolve template ∧ scene' = scene := by
  obtain ⟨t₁, t₂, _, scene₁, rfl, hwarn, hrest⟩ := path_bind.mp h
  obtain ⟨hlog, rfl, rfl⟩ := path_noteAll hwarn
  obtain ⟨rfl, rfl, rfl⟩ := path_ofExcept.mp hrest
  exact ⟨hlog.append areLog_nil, rfl, rfl⟩

theorem path_resolveAll {scope : Scope} {settings : Entries Value}
    {result : Except Fault (Entries Value)} (h : (resolveAll scope settings).Path scene t result scene') :
    AreLog t ∧ result = scope.settings settings ∧ scene' = scene := by
  obtain ⟨t₁, t₂, _, scene₁, rfl, hwarn, hrest⟩ := path_bind.mp h
  obtain ⟨hlog, rfl, rfl⟩ := path_noteAll hwarn
  obtain ⟨rfl, rfl, rfl⟩ := path_ofExcept.mp hrest
  exact ⟨hlog.append areLog_nil, rfl, rfl⟩

end Work

end FlowEngine
