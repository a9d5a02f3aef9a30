import Mathlib.Data.List.Perm.Basic
import FlowEngine.Execution.Files
import FlowEngine.Execution.Record
import FlowEngine.Execution.Store
import FlowEngine.Proofs.Data.Instant
import FlowEngine.Proofs.Document.Reading

/-!
# A folder is a store

The document of an execution is read back as that execution: its status, its two times of which the
second may be missing, and its snapshot where that is plain.

A folder that has only been written by saving has one file for each execution that was saved, in the
order of the first saves. Under the names of their files the executions are found as they are found
by their ids in memory, whatever calls come in between, and calls with an id that is not safe as a
name are refused and change nothing.
-/

namespace FlowEngine

open Document

theorem RunStatus.ofValue?_name (status : RunStatus) :
    RunStatus.ofValue? (.text status.name) = some status := by
  cases status <;> rfl

/-- A time that a document can hold. -/
def Instant.IsDocumented (t : Instant) : Prop := t.Exists ∧ t.HasWholeMinutes

theorem Document.instant_documentText {t : Instant} (h : t.IsDocumented) (origin : Origin) :
    instant origin (.text t.documentText) = .fits t := by
  simp [instant, Instant.ofDocumentText?_documentText h.1 h.2, keptInstant, h.1.kept]

namespace Execution

/-- What an execution has to be like for its document to hold all of it. -/
structure IsDocumented (execution : Execution) : Prop where
  started : execution.startedAt.IsDocumented
  completed : ∀ t, execution.completedAt = some t → t.IsDocumented
  snapshot : ∀ fields, execution.snapshot = some fields → (Value.object fields).isPlain = true

variable {execution : Execution}

def documentFields (execution : Execution) : Entries Value :=
  [("id", .text execution.id), ("flowId", .text execution.flowId),
    ("status", .text execution.status.name), ("triggeredBy", .text execution.triggeredBy),
    ("startedAt", .text execution.startedAt.documentText),
    ("completedAt", Value.ofText? (execution.completedAt.map (·.documentText))),
    ("snapshot", Outcome.optionalObject execution.snapshot)]

theorem toDocument_eq (h : execution.IsDocumented) :
    execution.toDocument = .object execution.documentFields := by
  obtain ⟨id, flowId, status, triggeredBy, startedAt, completedAt, snapshot⟩ := execution
  have hsnapshot : form (Outcome.optionalObject snapshot) = Outcome.optionalObject snapshot := by
    cases snapshot with
    | none => rfl
    | some fields => exact form_of_isPlain (h.snapshot fields rfl)
  cases completedAt <;>
    simp only [toDocument, form, formFields, scalarForm, hsnapshot, documentFields,
      Option.map_none, Option.map_some, Value.ofText?]

theorem ofDocument_toDocument (h : execution.IsDocumented) (origin : Origin) (now : Instant) :
    ofDocument origin now execution.toDocument = .fits execution := by
  let doc := execution.documentFields
  have hid : required ["id"] text doc = .fits execution.id := (required_of_get? rfl).mpr rfl
  have hflow : required ["flowId", "flow_id"] text doc = .fits execution.flowId :=
    (required_of_get? rfl).mpr rfl
  have hstatus : optional ["status"] .running (member RunStatus.ofValue?) doc =
      .fits execution.status := by
    refine (optional_of_get? rfl).mpr ?_
    rw [member, RunStatus.ofValue?_name]
  have htriggered : optional ["triggeredBy", "triggered_by"] "API" text doc =
      .fits execution.triggeredBy := (optional_of_get? rfl).mpr rfl
  have hstarted : optional ["startedAt", "started_at"] now (instant origin) doc =
      .fits execution.startedAt :=
    (optional_of_get? rfl).mpr (instant_documentText h.started origin)
  have hcompleted : optional ["completedAt", "completed_at"] none (nullable (instant origin)) doc =
      .fits execution.completedAt := by
    refine (optional_of_get? rfl).mpr ?_
    cases hc : execution.completedAt with
    | none => rfl
    | some t => simp [nullable, Value.ofText?, instant_documentText (h.completed t hc), Checked.map]
  have hsnapshot : optional ["snapshot"] none (nullable object) doc = .fits execution.snapshot := by
    refine (optional_of_get? rfl).mpr ?_
    cases execution.snapshot <;> rfl
  rw [toDocument_eq h, ofDocument, record, ofFields, hid, hflow, hstatus, htriggered, hstarted,
    hcompleted, hsnapshot]
  rfl

end Execution

/-- A call of a store of executions. Reading happens at a time. -/
inductive StoreCall where
  | save (execution : Execution)
  | get (now : Instant) (id : String)
  | list (now : Instant) (flow : Option String)

inductive StoreAnswer where
  | saved
  | found (execution : Option Execution)
  | listed (executions : List Execution)
  deriving DecidableEq

namespace StoreCall

def check : StoreCall → Except KeyError Unit
  | .save execution => checkKey execution.id
  | .get _ id => checkKey id
  | .list _ _ => .ok ()

variable {σ ε : Type} (serve : σ → StoreCall → Except ε (StoreAnswer × σ))

/-- What a call leaves behind. A call that fails leaves things as they are. -/
def next (s : σ) (c : StoreCall) : σ := ((serve s c).map (·.2)).toOption.getD s

def after (s : σ) (calls : List StoreCall) : σ := calls.foldl (next serve) s

def answers (s : σ) : List StoreCall → List (Except ε StoreAnswer)
  | [] => []
  | c :: rest => (serve s c).map (·.1) :: answers (next serve s c) rest

end StoreCall

/-- The last execution among those saved by some calls that has a given id. -/
def lastSaved (id : String) : List StoreCall → Option Execution
  | [] => none
  | .save execution :: rest =>
    (lastSaved id rest).or (if execution.id = id then some execution else none)
  | .get _ _ :: rest | .list _ _ :: rest => lastSaved id rest

/-- A store in memory behind the check of ids. -/
def ExecutionStore.serve (store : ExecutionStore) (c : StoreCall) :
    Except KeyError (StoreAnswer × ExecutionStore) :=
  c.check.map fun _ =>
    match c with
    | .save execution => (.saved, store.save execution)
    | .get _ id => (.found (store.get? id), store)
    | .list _ flow => (.listed (store.list flow), store)

def ExecutionFiles.serve (folder : Folder) : StoreCall → Except FilesError (StoreAnswer × Folder)
  | .save execution => (save folder execution).map fun folder => (.saved, folder)
  | .get now id => (get? now folder id).map fun execution => (.found execution, folder)
  | .list now flow => (list now folder flow).map fun executions => (.listed executions, folder)

/-- The answer of a folder is that of a store in memory: the same refusal, the same execution, or
the same executions in some order. -/
inductive Agrees : Except FilesError StoreAnswer → Except KeyError StoreAnswer → Prop
  | refused (error : KeyError) : Agrees (.error (.key error)) (.error error)
  | saved : Agrees (.ok .saved) (.ok .saved)
  | found (execution : Option Execution) : Agrees (.ok (.found execution)) (.ok (.found execution))
  | listed {executions executions' : List Execution} (h : executions.Perm executions') :
    Agrees (.ok (.listed executions)) (.ok (.listed executions'))

def Execution.jsonText (execution : Execution) : String := Json.pretty execution.toDocument

/-- What is assumed of an execution: its document is not too deep to be written, and the JSON text
of the document is read as the document. -/
structure Execution.Dumps (execution : Execution) : Prop where
  written : execution.written = .ok execution.toDocument
  read : Json.readWith .strict execution.jsonText = .ok execution.toDocument

/-- A document whose text is read to its end is read from the text as it was printed. -/
theorem Json.readWith_pretty {rules : Json.Rules} {doc v : Value}
    (h : Json.readFront rules (Json.skipSpace (Json.indented 0 doc)) = .ok (v, [])) :
    Json.readWith rules (Json.pretty doc) = .ok v := by
  rw [Json.readWith, Json.pretty, String.toList_ofList, h]
  rfl

namespace ExecutionFiles

variable {folder : Folder} {store : ExecutionStore} {execution : Execution} {id : String}

theorem nameOf_injective {a b : String} (h : nameOf a = nameOf b) : a = b :=
  (String.append_left_inj ".json").mp h

theorem head_of_checkKey (h : checkKey id = .ok ()) :
    ∃ c rest, id.toList = c :: rest ∧ c ≠ '.' := by
  have hblank : Text.isBlankText id = false := by grind [checkKey]
  have hdot : id.toList.head? ≠ some '.' := by grind [checkKey]
  cases hid : id.toList with
  | nil => simp [Text.isBlankText, hid] at hblank
  | cons c rest => exact ⟨c, rest, rfl, fun hc => hdot (by rw [hid, hc]; rfl)⟩

theorem isRecord_nameOf (h : checkKey id = .ok ()) : isRecord (nameOf id) = true := by
  obtain ⟨c, rest, hid, hc⟩ := head_of_checkKey h
  have hname : (nameOf id).toList = c :: (rest ++ ".json".toList) := by
    rw [nameOf, String.toList_append, hid, List.cons_append]
  have hends : Text.endsWith (nameOf id) ".json" = true := by
    rw [Text.endsWith, List.isSuffixOf_iff_suffix, hname]
    exact List.suffix_append (c :: rest) _
  have hstarts : Text.startsWith (nameOf id) "." = false := by
    rw [Text.startsWith, hname]
    simpa [List.isPrefixOf] using Ne.symm hc
  rw [isRecord, hends, hstarts]
  rfl

theorem textOf_eq (h : execution.Dumps) : textOf execution = .ok execution.jsonText := by
  rw [textOf, h.written]
  rfl

theorem ofText_jsonText (h : execution.IsDocumented) (hd : execution.Dumps) (now : Instant) :
    ofText now execution.jsonText = .ok execution := by
  rw [ofText, hd.read]
  simp only [Execution.ofDocument_toDocument h]

/-- The files of a folder are those of the executions in a store. -/
structure Mirrors (folder : Folder) (store : ExecutionStore) : Prop where
  files : folder = store.map fun pair => (nameOf pair.1, pair.2.jsonText)
  keys : (Entries.keys store).Nodup
  safe : ∀ pair ∈ store, checkKey pair.1 = .ok ()
  documented : ∀ pair ∈ store, pair.2.IsDocumented
  dumps : ∀ pair ∈ store, pair.2.Dumps

theorem Mirrors.file (h : Mirrors folder store) (id : String) :
    folder.get? (nameOf id) = (store.get? id).map (·.jsonText) := by
  rw [h.files]
  exact Entries.get?_map (fun _ _ => nameOf_injective) Execution.jsonText store id

theorem Mirrors.save (h : Mirrors folder store) (hid : checkKey execution.id = .ok ())
    (hdoc : execution.IsDocumented) (hd : execution.Dumps) :
    Mirrors (folder.put (nameOf execution.id) execution.jsonText)
      (store.save execution) where
  files := by
    rw [h.files]
    exact (Entries.put_map (fun _ _ => nameOf_injective) Execution.jsonText store execution.id
      execution).symm
  keys := Entries.nodup_put h.keys _ _
  safe pair hp := by
    obtain rfl | hp := Entries.mem_put hp
    · exact hid
    · exact h.safe pair hp
  documented pair hp := by
    obtain rfl | hp := Entries.mem_put hp
    · exact hdoc
    · exact h.documented pair hp
  dumps pair hp := by
    obtain rfl | hp := Entries.mem_put hp
    · exact hd
    · exact h.dumps pair hp

def Reads (now : Instant) (folder : Folder) (name : String) (execution : Execution) : Prop :=
  ofText now ((folder.get? name).getD "") = .ok execution

theorem readAll_of_reads {now : Instant} {names : List String} {executions : List Execution}
    (h : List.Forall₂ (Reads now folder) names executions) :
    readAll now folder names = .ok executions := by
  induction h with
  | nil => rfl
  | cons hread _ ih =>
    unfold Reads at hread
    rw [readAll, hread, ih]
    rfl

/-- All the files are read, in an order that is not that of the store. -/
theorem Mirrors.readAll (h : Mirrors folder store) (now : Instant) :
    ∃ executions, readAll now folder ((names folder).filter isRecord) = .ok executions ∧
      executions.Perm (store.map (·.2)) := by
  have hkeys : folder.keys = store.map fun pair => nameOf pair.1 := by
    rw [h.files, Entries.keys, List.map_map]
    rfl
  have hnames : (names folder).Perm (store.map fun pair => nameOf pair.1) :=
    hkeys ▸ List.mergeSort_perm _ _
  have hrecords : (names folder).filter isRecord = names folder := by
    refine List.filter_eq_self.mpr fun name hname => ?_
    obtain ⟨pair, hp, rfl⟩ := List.mem_map.mp (hnames.mem_iff.mp hname)
    exact isRecord_nameOf (h.safe pair hp)
  have hread : List.Forall₂ (Reads now folder) (store.map fun pair => nameOf pair.1)
      (store.map (·.2)) := by
    rw [List.forall₂_map_left_iff, List.forall₂_map_right_iff, List.forall₂_same]
    intro pair hp
    have hget : store.get? pair.1 = some pair.2 := Entries.get?_of_mem h.keys hp
    rw [Reads, h.file, hget]
    exact ofText_jsonText (h.documented pair hp) (h.dumps pair hp) now
  obtain ⟨executions, hall, hperm⟩ := List.perm_comp_forall₂ hnames hread
  refine ⟨executions, ?_, hperm⟩
  rw [hrecords]
  exact readAll_of_reads hall

theorem serve_refused {c : StoreCall} {error : KeyError} (h : c.check = .error error)
    (folder : Folder) :
    serve folder c = .error (.key error) ∧ StoreCall.next serve folder c = folder := by
  have hserve : serve folder c = .error (.key error) := by
    cases c with
    | save execution =>
      have hid : checkKey execution.id = .error error := h
      simp only [serve, save, hid, Except.map]
    | get now id =>
      have hid : checkKey id = .error error := h
      simp only [serve, ExecutionFiles.get?, hid, Except.map]
    | list now flow => cases h
  exact ⟨hserve, by rw [StoreCall.next, hserve]; rfl⟩

theorem save_eq (hid : checkKey execution.id = .ok ()) (hd : execution.Dumps) (folder : Folder) :
    save folder execution = .ok (folder.put (nameOf execution.id) execution.jsonText) := by
  simp only [save, hid, textOf_eq hd, Except.map]

theorem Mirrors.get? (h : Mirrors folder store) (hid : checkKey id = .ok ()) (now : Instant) :
    get? now folder id = .ok (store.get? id) := by
  simp only [ExecutionFiles.get?, hid, h.file]
  cases hget : store.get? id with
  | none => rfl
  | some execution =>
    have hm : (id, execution) ∈ store := Entries.mem_of_get? hget
    simp only [Option.map_some, ofText_jsonText (h.documented _ hm) (h.dumps _ hm), Except.map]

theorem Mirrors.list (h : Mirrors folder store) (now : Instant) (flow : Option String) :
    ∃ executions, list now folder flow = .ok executions ∧ executions.Perm (store.list flow) := by
  obtain ⟨executions, hall, hperm⟩ := h.readAll now
  refine ⟨executions.filter fun execution => (flow.map (execution.flowId == ·)).getD true, ?_,
    hperm.filter _⟩
  rw [ExecutionFiles.list, hall]
  rfl

theorem Mirrors.answered {c : StoreCall} {folder' : Folder} {store' : ExecutionStore}
    {answer answer' : StoreAnswer} (h : Mirrors folder' store')
    (hfolder : serve folder c = .ok (answer, folder'))
    (hstore : store.serve c = .ok (answer', store'))
    (hagree : Agrees (.ok answer) (.ok answer')) :
    Agrees ((serve folder c).map (·.1)) ((store.serve c).map (·.1)) ∧
      Mirrors (StoreCall.next serve folder c) (StoreCall.next ExecutionStore.serve store c) := by
  rw [StoreCall.next, StoreCall.next, hfolder, hstore]
  exact ⟨hagree, h⟩

theorem Mirrors.serve (h : Mirrors folder store) {c : StoreCall}
    (hdoc : ∀ execution, c = .save execution → checkKey execution.id = .ok () →
      execution.IsDocumented)
    (hd : ∀ execution, c = .save execution → checkKey execution.id = .ok () → execution.Dumps) :
    Agrees ((serve folder c).map (·.1)) ((store.serve c).map (·.1)) ∧
      Mirrors (StoreCall.next serve folder c) (StoreCall.next ExecutionStore.serve store c) := by
  cases hc : c.check with
  | error error =>
    obtain ⟨hfolder, hnext⟩ := serve_refused hc folder
    have hstore : store.serve c = .error error := by
      unfold ExecutionStore.serve
      rw [hc]
      rfl
    rw [hnext, hfolder, StoreCall.next, hstore]
    exact ⟨.refused error, h⟩
  | ok =>
    cases c with
    | save execution =>
      have hid : checkKey execution.id = .ok () := hc
      have hdumps := hd execution rfl hid
      refine (h.save hid (hdoc execution rfl hid) hdumps).answered ?_ ?_ .saved
      · rw [ExecutionFiles.serve, save_eq hid hdumps]
        rfl
      · rw [ExecutionStore.serve, hc]
        rfl
    | get now id =>
      refine h.answered ?_ ?_ (.found (store.get? id))
      · rw [ExecutionFiles.serve, h.get? hc now]
        rfl
      · rw [ExecutionStore.serve, hc]
        rfl
    | list now flow =>
      obtain ⟨executions, hlist, hperm⟩ := h.list now flow
      refine h.answered ?_ rfl (.listed hperm)
      rw [ExecutionFiles.serve, hlist]
      rfl

theorem Mirrors.empty : Mirrors [] [] :=
  ⟨rfl, List.nodup_nil, nofun, nofun, nofun⟩

/-- Calls one after the other: a folder and a store in memory that start alike stay alike. -/
theorem Mirrors.calls (h : Mirrors folder store) {calls : List StoreCall}
    (hdoc : ∀ execution, .save execution ∈ calls → checkKey execution.id = .ok () →
      execution.IsDocumented)
    (hd : ∀ execution, .save execution ∈ calls → checkKey execution.id = .ok () → execution.Dumps) :
    List.Forall₂ Agrees (StoreCall.answers ExecutionFiles.serve folder calls)
        (StoreCall.answers ExecutionStore.serve store calls) ∧
      Mirrors (StoreCall.after ExecutionFiles.serve folder calls)
        (StoreCall.after ExecutionStore.serve store calls) := by
  induction calls generalizing folder store with
  | nil => exact ⟨.nil, h⟩
  | cons c rest ih =>
    obtain ⟨hagree, hnext⟩ := h.serve (c := c)
      (fun execution hc => hdoc execution (hc ▸ List.mem_cons_self))
      (fun execution hc => hd execution (hc ▸ List.mem_cons_self))
    obtain ⟨hanswers, hafter⟩ := ih hnext
      (fun execution hm => hdoc execution (List.mem_cons_of_mem c hm))
      (fun execution hm => hd execution (List.mem_cons_of_mem c hm))
    exact ⟨.cons hagree hanswers, hafter⟩

theorem get?_after (hid : checkKey id = .ok ()) (calls : List StoreCall) (store : ExecutionStore) :
    (StoreCall.after ExecutionStore.serve store calls).get? id =
      (lastSaved id calls).or (store.get? id) := by
  induction calls generalizing store with
  | nil => rfl
  | cons c rest ih =>
    have hafter : StoreCall.after ExecutionStore.serve store (c :: rest) =
      StoreCall.after ExecutionStore.serve (StoreCall.next ExecutionStore.serve store c) rest := rfl
    rw [hafter, ih]
    cases c with
    | save execution =>
      rw [lastSaved, Option.or_assoc]
      congr 1
      cases hc : checkKey execution.id with
      | error error =>
        have hne : execution.id ≠ id := fun he => by rw [he, hid] at hc; cases hc
        rw [if_neg hne, StoreCall.next, ExecutionStore.serve, StoreCall.check, hc]
        rfl
      | ok =>
        rw [StoreCall.next, ExecutionStore.serve, StoreCall.check, hc]
        refine (Entries.get?_put store execution.id execution id).trans ?_
        split <;> rfl
    | get now key =>
      have hnext : StoreCall.next ExecutionStore.serve store (.get now key) = store := by
        rw [StoreCall.next, ExecutionStore.serve]
        cases StoreCall.check (.get now key) <;> rfl
      rw [hnext, lastSaved]
    | list now flow => rfl

/-- A folder in which executions are saved answers every row of calls as a store in memory does.
Under a safe id it has the last execution that was saved under it; a call with any other id is
refused and leaves the folder as it is; and different ids have different files. -/
theorem answers_as_in_memory (calls : List StoreCall)
    (hdoc : ∀ execution, .save execution ∈ calls → checkKey execution.id = .ok () →
      execution.IsDocumented)
    (hd : ∀ execution, .save execution ∈ calls → checkKey execution.id = .ok () → execution.Dumps) :
    List.Forall₂ Agrees (StoreCall.answers serve [] calls)
        (StoreCall.answers ExecutionStore.serve [] calls) ∧
      (∀ now id, checkKey id = .ok () →
        get? now (StoreCall.after serve [] calls) id = .ok (lastSaved id calls)) ∧
      (∀ folder c error, c.check = .error error →
        serve folder c = .error (.key error) ∧ StoreCall.next serve folder c = folder) ∧
      ∀ a b, a ≠ b → nameOf a ≠ nameOf b := by
  obtain ⟨hagree, hafter⟩ := Mirrors.empty.calls hdoc hd
  refine ⟨hagree, fun now id hid => ?_, fun folder c error h => serve_refused h folder,
    fun a b hne hname => hne (nameOf_injective hname)⟩
  rw [hafter.get? hid now, get?_after hid calls []]
  exact congrArg Except.ok Option.or_none

/-- A run that has ended, with times in two zones. -/
def endedRun : Execution where
  id := "a"
  flowId := "f"
  status := .success
  triggeredBy := "API"
  startedAt := ⟨2024, 1, 2, 3, 4, 5, 0, some 0⟩
  completedAt := some ⟨2024, 1, 2, 8, 34, 6, 250000, some 19800⟩
  snapshot := some [("nodes", .object []), ("order", .list [.text "start", .int (-3), .null])]

def goingRun : Execution :=
  { endedRun with status := .running, completedAt := none, snapshot := none }

theorem isDocumented_endedRun : endedRun.IsDocumented where
  started := ⟨⟨by decide, rfl, rfl, by decide, by decide, by decide, by decide, by simp [endedRun]⟩,
    by simp [Instant.HasWholeMinutes, endedRun]⟩
  completed := by
    rintro t ⟨⟩
    exact ⟨⟨by decide, rfl, rfl, by decide, by decide, by decide, by decide, by simp⟩,
      by simp [Instant.HasWholeMinutes]⟩
  snapshot := by
    rintro fields ⟨⟩
    decide

theorem isDocumented_goingRun : goingRun.IsDocumented :=
  ⟨isDocumented_endedRun.started, nofun, nofun⟩

theorem dumps_goingRun : goingRun.Dumps :=
  ⟨by decide, Json.readWith_pretty (by decide +kernel)⟩

/-- A run is saved while it goes on and again when it has ended, and a run whose id is refused is
saved in between. -/
def endedRunCalls : List StoreCall :=
  [.save goingRun, .save { endedRun with id := "../a" }, .save endedRun,
    .list endedRun.startedAt (some "f"), .get endedRun.startedAt "a"]

theorem endedRun_answers :
    List.Forall₂ Agrees (StoreCall.answers serve [] endedRunCalls)
        [.ok .saved, .error (.separator "../a"), .ok .saved, .ok (.listed [endedRun]),
          .ok (.found (some endedRun))] ∧
      get? endedRun.startedAt (StoreCall.after serve [] endedRunCalls) "a" =
        .ok (some endedRun) := by
  have hsaved (execution : Execution) (hm : .save execution ∈ endedRunCalls)
      (hid : checkKey execution.id = .ok ()) : execution = goingRun ∨ execution = endedRun := by
    simp only [endedRunCalls, List.mem_cons, StoreCall.save.injEq, List.not_mem_nil, reduceCtorEq,
      or_false] at hm
    obtain rfl | rfl | rfl := hm
    · exact Or.inl rfl
    · exact absurd hid (by decide)
    · exact Or.inr rfl
  obtain ⟨hagree, hget, -, -⟩ := answers_as_in_memory endedRunCalls
    (fun execution hm hid => by
      obtain rfl | rfl := hsaved execution hm hid
      · exact isDocumented_goingRun
      · exact isDocumented_endedRun)
    (fun execution hm hid => by
      obtain rfl | rfl := hsaved execution hm hid
      · exact dumps_goingRun
      · exact ⟨by decide, Json.readWith_pretty (by decide +kernel)⟩)
  exact ⟨hagree, hget endedRun.startedAt "a" (by decide)⟩

theorem agrees_found_iff {a b : Option Execution} :
    Agrees (.ok (.found a)) (.ok (.found b)) ↔ a = b :=
  ⟨fun h => by cases h; rfl, fun h => h ▸ .found a⟩

theorem answers_save_get {now : Instant} {found : Execution} {text : String}
    (hid : checkKey execution.id = .ok ()) (htext : textOf execution = .ok text)
    (hread : ofText now text = .ok found) :
    StoreCall.answers serve [] [.save execution, .get now execution.id] =
      [.ok .saved, .ok (.found (some found))] := by
  have hsave : serve [] (.save execution) =
      .ok (.saved, Entries.put [] (nameOf execution.id) text) := by
    simp only [serve, save, hid, htext, Except.map]
  have hnext : StoreCall.next serve [] (.save execution) =
      Entries.put [] (nameOf execution.id) text := by
    rw [StoreCall.next, hsave]
    rfl
  have hget : get? now (Entries.put [] (nameOf execution.id) text) execution.id =
      .ok (some found) := by
    simp only [ExecutionFiles.get?, hid, Entries.get?_put_self, hread, Except.map]
  rw [StoreCall.answers, StoreCall.answers, StoreCall.answers, hsave, hnext, serve, hget]
  rfl

/-- A run that began at an offset from UTC of half a minute. -/
def halfMinuteRun : Execution :=
  { goingRun with startedAt := ⟨2024, 1, 2, 3, 4, 5, 0, some 30⟩ }

/-- In memory the half minute is kept, in a file it is not. -/
theorem half_minute_lost :
    checkKey halfMinuteRun.id = .ok () ∧ halfMinuteRun.startedAt.Exists ∧
      halfMinuteRun.completedAt = none ∧ halfMinuteRun.snapshot = none ∧ halfMinuteRun.Dumps ∧
      StoreCall.answers serve [] [.save halfMinuteRun, .get halfMinuteRun.startedAt "a"] =
        [.ok .saved, .ok (.found (some goingRun))] ∧
      ¬ List.Forall₂ Agrees
        (StoreCall.answers serve [] [.save halfMinuteRun, .get halfMinuteRun.startedAt "a"])
        (StoreCall.answers ExecutionStore.serve []
          [.save halfMinuteRun, .get halfMinuteRun.startedAt "a"]) := by
  have hid : checkKey "a" = .ok () := by decide
  have hdumps : halfMinuteRun.Dumps :=
    ⟨by decide, Json.readWith_pretty (by decide +kernel)⟩
  have hread : ofText halfMinuteRun.startedAt halfMinuteRun.jsonText = .ok goingRun := by
    rw [ofText, hdumps.read]
    decide
  have hfolder : StoreCall.answers serve []
      [.save halfMinuteRun, .get halfMinuteRun.startedAt "a"] =
        [.ok .saved, .ok (.found (some goingRun))] :=
    answers_save_get hid (textOf_eq hdumps) hread
  have hstore : StoreCall.answers ExecutionStore.serve []
      [.save halfMinuteRun, .get halfMinuteRun.startedAt "a"] =
        [.ok .saved, .ok (.found (some halfMinuteRun))] := by decide
  have hexists : halfMinuteRun.startedAt.Exists :=
    ⟨by decide, rfl, rfl, by decide, by decide, by decide, by decide, by simp [halfMinuteRun]⟩
  refine ⟨hid, hexists, rfl, rfl, hdumps, hfolder, ?_⟩
  rw [hfolder, hstore]
  intro h
  have hfound := agrees_found_iff.mp (List.forall₂_cons.mp (List.forall₂_cons.mp h).2).1
  exact absurd hfound (by decide)

end ExecutionFiles

end FlowEngine
