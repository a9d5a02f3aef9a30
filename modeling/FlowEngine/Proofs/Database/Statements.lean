import Mathlib.Data.List.Induction
import FlowEngine.Outside.Alone

/-!
# Where statements run

A site keeps the connections to databases by the ids of their connectors until they are closed. A
statement runs on the connection that is open under its connector's id, and only where there is none a
connection is opened. So it runs at the address of its own connector as long as no connector with
another address takes over an open connection.
-/

namespace FlowEngine

variable {σ : Type}

open Database

/-- What is done with databases. -/
inductive Deed where
  | opened (address : Address)
  | ran (address : Address) (statement : String)
  deriving DecidableEq, Repr

/-- An outside with a journal of what is done with databases. -/
def Outside.journaled (o : Outside σ) : Outside (σ × List Deed) where
  send request s := let (reply, x) := o.send request s.1; (reply, x, s.2)
  readAddress := o.readAddress
  connect address s :=
    match o.connect address s.1 with
    | (.ok (), x) => (.ok (), x, s.2 ++ [.opened address])
    | (.error reason, x) => (.error reason, x, s.2)
  statement address text s :=
    let (reply, x) := o.statement address text s.1; (reply, x, s.2 ++ [.ran address text])
  disconnect address s := (o.disconnect address s.1, s.2)
  complete call s := let (reply, x) := o.complete call s.1; (reply, x, s.2)
  script language code input s :=
    let (report, x) := o.script language code input s.1; (report, x, s.2)
  pause seconds s := let (cancelled, x) := o.pause seconds s.1; (cancelled, x, s.2)
  now s := let (time, x) := o.now s.1; (time, x, s.2)
  freshId s := let (id, x) := o.freshId s.1; (id, x, s.2)
  consult question s := let (answer, x) := o.consult question s.1; (answer, x, s.2)

section Journal

variable {o : Outside σ} {address : Address} {s : σ × List Deed}

theorem Outside.journaled_connects (h : (o.connect address s.1).1 = .ok ()) :
    o.journaled.connect address s =
      (.ok (), (o.connect address s.1).2, s.2 ++ [.opened address]) := by
  simp only [journaled]
  split <;> simp_all

theorem Outside.journaled_fails {reason : NoConnection}
    (h : (o.connect address s.1).1 = .error reason) :
    o.journaled.connect address s = (.error reason, (o.connect address s.1).2, s.2) := by
  simp only [journaled]
  split <;> simp_all

end Journal

/-- What happens to a site: something is asked of it, or its connections are closed. -/
inductive Occurrence where
  | asked (request : Request)
  | closed

def Occurrence.call (c : Connector) (statement queryType : String) : Occurrence :=
  .asked (.query c statement queryType)

namespace Site

open Occurrence

def happen (o : Outside σ) (site : Site σ) : Occurrence → Site σ
  | .asked request => (site.serve o request).2
  | .closed => site.disconnectAll o

/-- A connection can be opened for a connector: it stands for an address, which can be reached. -/
def Reaches (o : Outside σ) (site : Site (σ × List Deed)) (c : Connector) (address : Address) :
    Prop :=
  addressOf o.readAddress c = .ok address ∧ (o.connect address site.outside.1).1 = .ok ()

section Step

variable {o : Outside σ} {c : Connector} {statement queryType : String}
  {site : Site (σ × List Deed)} {address : Address}

/-- What a step leaves: the connections, and what it has added to the journal. -/
def Leaves (site after : Site (σ × List Deed)) (pool : Pool) (deeds : List Deed) : Prop :=
  after.pool = pool ∧ after.outside.2 = site.outside.2 ++ deeds

theorem query_open (h : site.pool.get? c.id = some address) :
    site.Leaves (site.happen o.journaled (call c statement queryType)) site.pool
      [.ran address statement] := by
  simp only [happen, call, serve, query, connect, h]
  exact ⟨rfl, rfl⟩

theorem query_opens (hpool : site.pool.get? c.id = none) (h : Reaches o site c address) :
    site.Leaves (site.happen o.journaled (call c statement queryType))
      (site.pool.put c.id address) [.opened address, .ran address statement] := by
  have hread : addressOf o.journaled.readAddress c = .ok address := h.1
  simp only [happen, call, serve, query, connect, hpool, hread, Outside.journaled_connects h.2]
  exact ⟨rfl, List.append_assoc _ _ _⟩

theorem query_fails (hpool : site.pool.get? c.id = none)
    (h : ∀ address, ¬Reaches o site c address) :
    site.Leaves (site.happen o.journaled (call c statement queryType)) site.pool [] := by
  cases haddress : addressOf o.readAddress c with
  | error reason =>
    have hread : addressOf o.journaled.readAddress c = .error reason := haddress
    simp only [happen, call, serve, query, connect, hpool, hread]
    cases reason <;> exact ⟨rfl, (List.append_nil _).symm⟩
  | ok address =>
    have hread : addressOf o.journaled.readAddress c = .ok address := haddress
    cases hopened : (o.connect address site.outside.1).1 with
    | ok => exact absurd ⟨haddress, hopened⟩ (h address)
    | error reason =>
      simp only [happen, call, serve, query, connect, hpool, hread, Outside.journaled_fails hopened]
      cases reason <;> exact ⟨rfl, (List.append_nil _).symm⟩

/-- A call finds a connection, or opens one, or runs nothing. -/
theorem query_cases (o : Outside σ) (site : Site (σ × List Deed)) (c : Connector)
    (statement queryType : String) :
    (∃ address, site.pool.get? c.id = some address ∧
      site.Leaves (site.happen o.journaled (call c statement queryType)) site.pool
        [.ran address statement]) ∨
    site.pool.get? c.id = none ∧
      ((∃ address, Reaches o site c address ∧
        site.Leaves (site.happen o.journaled (call c statement queryType))
          (site.pool.put c.id address) [.opened address, .ran address statement]) ∨
      (∀ address, ¬Reaches o site c address) ∧
        site.Leaves (site.happen o.journaled (call c statement queryType)) site.pool []) := by
  cases hpool : site.pool.get? c.id with
  | some address => exact .inl ⟨address, rfl, query_open hpool⟩
  | none =>
    refine .inr ⟨rfl, ?_⟩
    by_cases h : ∃ address, Reaches o site c address
    · obtain ⟨address, hreaches⟩ := h
      exact .inl ⟨address, hreaches, query_opens hpool hreaches⟩
    · exact .inr ⟨not_exists.mp h, query_fails hpool (not_exists.mp h)⟩

/-- Apart from calls of databases, nothing that is asked does anything with them. -/
theorem asked_other {request : Request}
    (h : ∀ c statement queryType, request ≠ .query c statement queryType)
    (site : Site (σ × List Deed)) :
    site.Leaves (site.happen o.journaled (.asked request)) site.pool [] := by
  cases request with
  | query c statement queryType => exact absurd rfl (h c statement queryType)
  | publish event =>
    rw [happen, serve, publish]
    cases site.audience <;> exact ⟨rfl, (List.append_nil _).symm⟩
  | _ => exact ⟨rfl, (List.append_nil _).symm⟩

theorem closed_leaves (site : Site (σ × List Deed)) :
    site.Leaves (site.happen o.journaled .closed) [] [] := by
  have hall : ∀ (pool : Pool) (s : σ × List Deed),
      (pool.foldl (fun s entry => o.journaled.disconnect entry.2 s) s).2 = s.2 := by
    intro pool
    induction pool with
    | nil => exact fun s => rfl
    | cons entry rest ih => exact fun s => ih (o.journaled.disconnect entry.2 s)
  exact ⟨rfl, (hall site.pool site.outside).trans (List.append_nil _).symm⟩

end Step

section History

variable (o : Outside σ) (outside : σ) (audience : Audience)

def after (history : List Occurrence) : Site (σ × List Deed) :=
  history.foldl (happen o.journaled) (fresh (outside, []) audience)

/-- What is done with databases in a history, in order. -/
def journal (history : List Occurrence) : List Deed := (after o outside audience history).outside.2

/-- The connection under an id at the end of a history: a call opened it, and no connections were
closed since then. -/
def Open (history : List Occurrence) (id : String) (address : Address) : Prop :=
  ∃ front c statement queryType back, history = front ++ call c statement queryType :: back ∧
    c.id = id ∧ .closed ∉ back ∧
      journal o outside audience (front ++ [call c statement queryType]) =
        journal o outside audience front ++ [.opened address, .ran address statement]

/-- Each call of a history runs its own statement or none, at the address of its own connector. -/
def AtOwn (history : List Occurrence) : Prop :=
  ∀ front c statement queryType back, history = front ++ call c statement queryType :: back →
    ∃ deeds, journal o outside audience (front ++ [call c statement queryType]) =
        journal o outside audience front ++ deeds ∧
      ∀ address text, .ran address text ∈ deeds →
        text = statement ∧ addressOf o.readAddress c = .ok address

/-- No connector takes over a connection that is open under its id, unless it has the same address. -/
def Steady (history : List Occurrence) : Prop :=
  ∀ front c statement queryType back, history = front ++ call c statement queryType :: back →
    ∀ address, Open o outside audience front c.id address → addressOf o.readAddress c = .ok address

end History

section Run

variable {o : Outside σ} {outside : σ} {audience : Audience} {history : List Occurrence}
  {occurrence : Occurrence} {c : Connector} {statement queryType id : String} {address : Address}

theorem after_snoc (history : List Occurrence) (occurrence : Occurrence) :
    after o outside audience (history ++ [occurrence]) =
      (after o outside audience history).happen o.journaled occurrence := by
  rw [after, List.foldl_append]
  rfl

theorem open_snoc : Open o outside audience (history ++ [occurrence]) id address ↔
    occurrence ≠ .closed ∧ Open o outside audience history id address ∨
      ∃ c statement queryType, occurrence = call c statement queryType ∧ c.id = id ∧
        journal o outside audience (history ++ [occurrence]) =
          journal o outside audience history ++ [.opened address, .ran address statement] := by
  constructor
  · rintro ⟨front, c, statement, queryType, back, heq, hid, hclosed, hopened⟩
    rcases List.eq_nil_or_concat back with rfl | ⟨back, last, rfl⟩
    · obtain ⟨rfl, hlast⟩ := List.append_inj' heq rfl
      obtain rfl := List.singleton_inj.mp hlast
      exact .inr ⟨c, statement, queryType, rfl, hid, hopened⟩
    · rw [List.concat_eq_append, ← List.cons_append, ← List.append_assoc] at heq
      rw [List.concat_eq_append] at hclosed
      obtain ⟨hfront, hlast⟩ := List.append_inj' heq rfl
      obtain rfl := List.singleton_inj.mp hlast
      rw [List.mem_append, List.mem_singleton, not_or] at hclosed
      exact .inl ⟨Ne.symm hclosed.2,
        front, c, statement, queryType, back, hfront, hid, hclosed.1, hopened⟩
  · rintro (⟨hne, front, c, statement, queryType, back, rfl, hid, hclosed, hopened⟩ |
      ⟨c, statement, queryType, rfl, hid, hopened⟩)
    · refine ⟨front, c, statement, queryType, back ++ [occurrence], by simp, hid, ?_, hopened⟩
      simp [hclosed, Ne.symm hne]
    · exact ⟨history, c, statement, queryType, [], rfl, hid, List.not_mem_nil, hopened⟩

theorem journal_snoc {pool : Pool} {deeds : List Deed}
    (h : (after o outside audience history).Leaves
      ((after o outside audience history).happen o.journaled occurrence) pool deeds) :
    journal o outside audience (history ++ [occurrence]) =
      journal o outside audience history ++ deeds := by
  rw [journal, after_snoc, h.2]
  rfl

theorem open_snoc_call {deeds : List Deed}
    (h : journal o outside audience (history ++ [call c statement queryType]) =
      journal o outside audience history ++ deeds) :
    Open o outside audience (history ++ [call c statement queryType]) id address ↔
      Open o outside audience history id address ∨
        c.id = id ∧ deeds = [.opened address, .ran address statement] := by
  rw [open_snoc]
  refine or_congr ⟨And.right, fun hopen => ⟨nofun, hopen⟩⟩ ?_
  constructor
  · rintro ⟨c', statement', queryType', heq, hid, hjournal⟩
    cases heq
    rw [h, List.append_cancel_left_eq] at hjournal
    exact ⟨hid, hjournal⟩
  · rintro ⟨hid, rfl⟩
    exact ⟨c, statement, queryType, rfl, hid, h⟩

theorem get?_pool_call (hpool : ∀ id address,
      (after o outside audience history).pool.get? id = some address ↔
        Open o outside audience history id address) :
    (after o outside audience (history ++ [call c statement queryType])).pool.get? id = some address ↔
      Open o outside audience (history ++ [call c statement queryType]) id address := by
  rw [after_snoc]
  rcases query_cases o (after o outside audience history) c statement queryType with
    ⟨found, -, hleaves⟩ | ⟨hnone, ⟨opened, -, hleaves⟩ | ⟨-, hleaves⟩⟩
  · rw [hleaves.1, hpool, open_snoc_call (journal_snoc hleaves)]
    exact ⟨.inl, fun h => h.resolve_right (by simp)⟩
  · rw [hleaves.1, Entries.get?_put, open_snoc_call (journal_snoc hleaves), ← hpool]
    by_cases hid : c.id = id
    · rw [← hid, if_pos rfl, hnone]
      simp
    · simp [hid]
  · rw [hleaves.1, hpool, open_snoc_call (journal_snoc hleaves)]
    exact ⟨.inl, fun h => h.resolve_right (by simp)⟩

/-- The connections that a site keeps are those that are open. -/
theorem get?_pool_after (history : List Occurrence) (id : String) (address : Address) :
    (after o outside audience history).pool.get? id = some address ↔
      Open o outside audience history id address := by
  induction history using List.reverseRecOn generalizing id address with
  | nil =>
    refine iff_of_false (by rintro ⟨⟩) ?_
    rintro ⟨front, c, statement, queryType, back, heq, -⟩
    cases front <;> cases heq
  | append_singleton history occurrence ih =>
    cases occurrence with
    | closed =>
      rw [after_snoc, (closed_leaves _).1, open_snoc]
      refine iff_of_false (by rintro ⟨⟩) ?_
      rintro (⟨hne, -⟩ | ⟨c, statement, queryType, ⟨⟩, -⟩)
      exact hne rfl
    | asked request =>
      by_cases hcall : ∃ c statement queryType, request = .query c statement queryType
      · obtain ⟨c, statement, queryType, rfl⟩ := hcall
        exact get?_pool_call ih
      · have hother : ∀ c statement queryType, request ≠ .query c statement queryType :=
          fun c statement queryType heq => hcall ⟨c, statement, queryType, heq⟩
        rw [after_snoc, (asked_other hother _).1, ih, open_snoc]
        refine ⟨fun hopen => .inl ⟨nofun, hopen⟩, ?_⟩
        rintro (⟨-, hopen⟩ | ⟨c, statement, queryType, heq, -⟩)
        · exact hopen
        · cases heq
          exact absurd rfl (hother c statement queryType)

theorem pool_eq_none (h : ∀ address, ¬Open o outside audience history id address) :
    (after o outside audience history).pool.get? id = none := by
  rw [Option.eq_none_iff_forall_ne_some]
  exact fun address hfound => h address ((get?_pool_after history id address).mp hfound)

theorem journal_other (h : ∀ c statement queryType, occurrence ≠ call c statement queryType) :
    journal o outside audience (history ++ [occurrence]) = journal o outside audience history := by
  have hnothing : ∃ pool, (after o outside audience history).Leaves
      ((after o outside audience history).happen o.journaled occurrence) pool [] := by
    cases occurrence with
    | closed => exact ⟨_, closed_leaves _⟩
    | asked request =>
      refine ⟨_, asked_other ?_ _⟩
      rintro c statement queryType rfl
      exact h c statement queryType rfl
  obtain ⟨pool, hleaves⟩ := hnothing
  rw [journal_snoc hleaves, List.append_nil]

theorem steady_of_atOwn (h : AtOwn o outside audience history) :
    Steady o outside audience history := by
  intro front c statement queryType back heq address hopen
  obtain ⟨deeds, hdeeds, hown⟩ := h front c statement queryType back heq
  have hpool := (get?_pool_after front c.id address).mpr hopen
  rw [journal_snoc (query_open hpool), List.append_cancel_left_eq] at hdeeds
  exact (hown address statement (hdeeds ▸ List.mem_singleton_self _)).2

theorem atOwn_of_steady (h : Steady o outside audience history) :
    AtOwn o outside audience history := by
  intro front c statement queryType back heq
  rcases query_cases o (after o outside audience front) c statement queryType with
    ⟨found, hpool, hleaves⟩ | ⟨-, ⟨opened, hreaches, hleaves⟩ | ⟨-, hleaves⟩⟩
  · have hopen := (get?_pool_after front c.id found).mp hpool
    refine ⟨_, journal_snoc hleaves, fun address text hran => ?_⟩
    obtain ⟨rfl, rfl⟩ : address = found ∧ text = statement := by simpa using hran
    exact ⟨rfl, h front c text queryType back heq address hopen⟩
  · refine ⟨_, journal_snoc hleaves, fun address text hran => ?_⟩
    obtain ⟨rfl, rfl⟩ : address = opened ∧ text = statement := by simpa using hran
    exact ⟨rfl, hreaches.1⟩
  · exact ⟨_, journal_snoc hleaves, fun address text hran => absurd hran List.not_mem_nil⟩

end Run

/-- In every history, a call runs its statement once on the connection that is open under its id. If
there is none, it opens one at the address of its own connector and runs the statement there, and if
that cannot be done it runs nothing. Nothing else runs a statement. Every statement runs at the address
of its own connector exactly if the history is steady. -/
theorem statements_run (o : Outside σ) (outside : σ) (audience : Audience)
    (history : List Occurrence) :
    (∀ c statement queryType address, Open o outside audience history c.id address →
      journal o outside audience (history ++ [call c statement queryType]) =
        journal o outside audience history ++ [.ran address statement]) ∧
    (∀ c statement queryType, (∀ address, ¬Open o outside audience history c.id address) →
      (∀ address, Reaches o (after o outside audience history) c address →
        journal o outside audience (history ++ [call c statement queryType]) =
          journal o outside audience history ++ [.opened address, .ran address statement]) ∧
      ((∀ address, ¬Reaches o (after o outside audience history) c address) →
        journal o outside audience (history ++ [call c statement queryType]) =
          journal o outside audience history)) ∧
    (∀ occurrence, (∀ c statement queryType, occurrence ≠ call c statement queryType) →
      journal o outside audience (history ++ [occurrence]) = journal o outside audience history) ∧
    (AtOwn o outside audience history ↔ Steady o outside audience history) := by
  refine ⟨?_, ?_, fun _ h => journal_other h, steady_of_atOwn, atOwn_of_steady⟩
  · intro c statement queryType address hopen
    exact journal_snoc (query_open ((get?_pool_after history c.id address).mpr hopen))
  · intro c statement queryType hnone
    have hpool := pool_eq_none hnone
    refine ⟨fun address hreaches => journal_snoc (query_opens hpool hreaches), fun hunreached => ?_⟩
    rw [journal_snoc (query_fails hpool hunreached), List.append_nil]

namespace Replaced

def connector (url : String) : Connector where
  id := "db"
  name := ""
  description := ""
  type := .sql
  baseUrl := none
  authType := .none
  defaultHeaders := []
  authConfig := []
  databaseUrl := some url
  dbUsername := none
  dbPassword := none
  extras := []

def first : Occurrence := call (connector "postgresql://db/old") "x" "UPDATE"

def second : Occurrence := call (connector "postgresql://db/new") "y" "UPDATE"

def address (database : String) : Address where
  driver := "postgresql"
  user := none
  password := none
  host := some "db"
  port := none
  database := some database
  options := []

theorem addressOf_old :
    addressOf Address.read (connector "postgresql://db/old") = .ok (address "old") := by
  decide +kernel

theorem addressOf_new :
    addressOf Address.read (connector "postgresql://db/new") = .ok (address "new") := by
  decide +kernel

def alone : Alone := ⟨⟨0, 0, 0, 0, 0, 0, 0, none⟩, mkStdGen 0⟩

theorem not_open_nil (id : String) (address : Address) :
    ¬Open Alone.outside alone .nobody [] id address := by
  rw [← get?_pool_after]
  rintro ⟨⟩

theorem not_open_closed (history : List Occurrence) (id : String) (address : Address) :
    ¬Open Alone.outside alone .nobody (history ++ [.closed]) id address := by
  rw [← get?_pool_after, after_snoc, (closed_leaves _).1]
  rintro ⟨⟩

/-- A connector may take over an id once the connections are closed. -/
theorem statements_run_closed :
    journal Alone.outside alone .nobody [first, .closed, second] =
      [.opened (address "old"), .ran (address "old") "x",
        .opened (address "new"), .ran (address "new") "y"] := by
  have hfirst : journal Alone.outside alone .nobody [first] =
      [] ++ [.opened (address "old"), .ran (address "old") "x"] :=
    ((statements_run Alone.outside alone .nobody []).2.1 (connector "postgresql://db/old") "x"
      "UPDATE" (not_open_nil _)).1 _ ⟨addressOf_old, rfl⟩
  have hclosed : journal Alone.outside alone .nobody [first, .closed] =
      journal Alone.outside alone .nobody [first] :=
    (statements_run Alone.outside alone .nobody [first]).2.2.1 .closed (by rintro _ _ _ ⟨⟩)
  have hsecond : journal Alone.outside alone .nobody [first, .closed, second] =
      journal Alone.outside alone .nobody [first, .closed] ++
        [.opened (address "new"), .ran (address "new") "y"] :=
    ((statements_run Alone.outside alone .nobody [first, .closed]).2.1
      (connector "postgresql://db/new") "y" "UPDATE" (not_open_closed [first] _)).1 _
        ⟨addressOf_new, rfl⟩
  rw [hsecond, hclosed, hfirst]
  rfl

/-- While a connection is open, another connector with its id has its statements run there. -/
theorem stale_connection_used :
    ¬ ∀ history : List Occurrence, AtOwn Alone.outside alone .nobody history := by
  intro hall
  have hpool : (after Alone.outside alone .nobody []).pool.get? "db" = none := rfl
  have hopens : journal Alone.outside alone .nobody ([] ++ [first]) =
      journal Alone.outside alone .nobody [] ++
        [.opened (address "old"), .ran (address "old") "x"] :=
    journal_snoc (query_opens hpool ⟨addressOf_old, rfl⟩)
  have hopen : Open Alone.outside alone .nobody [first] "db" (address "old") :=
    ⟨[], _, _, _, [], rfl, rfl, List.not_mem_nil, hopens⟩
  have hnew := steady_of_atOwn (hall [first, second]) [first] (connector "postgresql://db/new") "y"
    "UPDATE" [] rfl (address "old") hopen
  have hdiffer : address "new" = address "old" := Except.ok.inj (addressOf_new.symm.trans hnew)
  exact absurd hdiffer (by decide)

end Replaced

end Site

end FlowEngine
