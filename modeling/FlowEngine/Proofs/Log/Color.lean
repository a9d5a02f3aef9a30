import FlowEngine.Log.Format
import FlowEngine.Text.Color
import Mathlib.Data.List.Infix
import Mathlib.Data.List.TakeWhile

/-!
# Messages without color codes

All color codes of a text are removed, but what stood around one of them may then stand together as a
code of its own. This is so for exactly the texts that hold a torn code, which is a color code with
others between its characters.

An entry for machines has the message of its line without color codes, unless its trace sets a message
of its own. A code that is put together this way is left in it, and would be removed the next time.
-/

namespace FlowEngine

namespace Text

/-- A color code: an escape character, a bracket, digits and semicolons, and the letter m. -/
def IsColorCode (code : List Char) : Prop :=
  ∃ params, (∀ c ∈ params, isColorParameter c = true) ∧
    code = escapeCharacter :: '[' :: (params ++ ['m'])

def HasColorCode (s : List Char) : Prop := ∃ code, IsColorCode code ∧ code <:+: s

/-- A text with color codes put between its characters. -/
inductive Strewn : List Char → List Char → Prop where
  | nil : Strewn [] []
  | char (c : Char) {s t : List Char} (h : Strewn s t) : Strewn (c :: s) (c :: t)
  | code {code s t : List Char} (hc : IsColorCode code) (h : Strewn s t) : Strewn s (code ++ t)

/-- A color code with at least one other between its characters. -/
def IsTornCode (torn : List Char) : Prop :=
  ∃ params inner, (∀ c ∈ params, isColorParameter c = true) ∧ Strewn ('[' :: params) inner ∧
    inner ≠ '[' :: params ∧ torn = escapeCharacter :: (inner ++ ['m'])

def HasTornCode (s : List Char) : Prop := ∃ torn, IsTornCode torn ∧ torn <:+: s

variable {s t u front back after code params inner : List Char} {c : Char}

theorem afterColorCode?_eq_some_iff : afterColorCode? s = some after ↔
    ∃ code, IsColorCode code ∧ s = code ++ after := by
  constructor
  · intro h
    unfold afterColorCode? at h
    split at h
    · rename_i rest
      split at h
      · rename_i behind hbehind
        cases h
        refine ⟨_, ⟨rest.takeWhile isColorParameter, fun c hc => List.mem_takeWhile_imp hc, rfl⟩, ?_⟩
        have hrest : rest = rest.takeWhile isColorParameter ++ 'm' :: after := by
          rw [← hbehind, List.takeWhile_append_dropWhile]
        rw [List.cons_append, List.cons_append, List.append_assoc, List.singleton_append, ← hrest]
        rfl
      · cases h
    · cases h
  · rintro ⟨_, ⟨params, hparams, rfl⟩, rfl⟩
    have hdrop : (params ++ 'm' :: after).dropWhile isColorParameter = 'm' :: after := by
      rw [List.dropWhile_append_of_pos hparams, List.dropWhile_cons_of_neg (by decide)]
    simp [afterColorCode?, escapeCharacter, hdrop]

theorem stripColorChars_code (hc : IsColorCode code) (s : List Char) :
    stripColorChars (code ++ s) = stripColorChars s := by
  have hafter : afterColorCode? (code ++ s) = some s := afterColorCode?_eq_some_iff.mpr ⟨code, hc, rfl⟩
  obtain ⟨params, -, rfl⟩ := hc
  rw [List.cons_append, stripColorChars]
  split
  · rename_i other hother
    rw [List.cons_append] at hafter
    rw [hafter] at hother
    cases hother
    rfl
  · rename_i hother
    rw [List.cons_append] at hafter
    rw [hafter] at hother
    cases hother

theorem stripColorChars_kept (h : afterColorCode? (c :: s) = none) :
    stripColorChars (c :: s) = c :: stripColorChars s := by
  rw [stripColorChars]
  split
  · rename_i other hother
    rw [h] at hother
    cases hother
  · rfl

/-- Codes are removed from the front of what is left, and any other character is kept. -/
theorem induction_color {motive : List Char → Prop} (nil : motive [])
    (code : ∀ code s, IsColorCode code → motive s → motive (code ++ s))
    (kept : ∀ c s, afterColorCode? (c :: s) = none → motive s → motive (c :: s))
    (s : List Char) : motive s := by
  fun_induction stripColorChars s with
  | case1 => exact nil
  | case2 c rest after hafter _ ih =>
    obtain ⟨removed, hremoved, hs⟩ := afterColorCode?_eq_some_iff.mp hafter
    rw [hs]
    exact code removed after hremoved ih
  | case3 c rest hafter ih => exact kept c rest hafter ih

theorem stripColorChars_char (hc : c ≠ escapeCharacter) (s : List Char) :
    stripColorChars (c :: s) = c :: stripColorChars s := by
  refine stripColorChars_kept (Option.eq_none_iff_forall_ne_some.mpr fun after h => ?_)
  obtain ⟨code, ⟨params, -, rfl⟩, hs⟩ := afterColorCode?_eq_some_iff.mp h
  exact hc (List.cons.inj hs).1

theorem stripColorChars_sublist (s : List Char) : (stripColorChars s).Sublist s := by
  induction s using induction_color with
  | nil => rw [stripColorChars]
  | code code s hc ih =>
    rw [stripColorChars_code hc]
    exact ih.trans (List.sublist_append_right code s)
  | kept c s h ih =>
    rw [stripColorChars_kept h]
    exact ih.cons_cons c

theorem IsColorCode.escape_not_mem (h : IsColorCode (c :: s)) : escapeCharacter ∉ s := by
  obtain ⟨params, hparams, hcode⟩ := h
  rw [(List.cons.inj hcode).2]
  intro hm
  simp only [List.mem_cons, List.mem_append, List.not_mem_nil, or_false] at hm
  rcases hm with hm | hm | hm
  · exact absurd hm (by decide)
  · exact absurd (hparams _ hm) (by decide)
  · exact absurd hm (by decide)

theorem prefix_of_append_eq (hs : escapeCharacter ∉ s)
    (h : front ++ escapeCharacter :: back = s ++ t) : s <+: front := by
  rcases List.append_eq_append_iff.mp h with ⟨more, rfl, hmore⟩ | ⟨more, rfl, -⟩
  · cases more with
    | nil => simp
    | cons d more =>
      obtain ⟨rfl, -⟩ := List.cons.inj hmore
      exact absurd (by simp) hs
  · exact List.prefix_append s more

/-- No color code reaches across an escape character, so what follows one is stripped on its own. -/
theorem stripColorChars_append_escape (s t : List Char) :
    stripColorChars (s ++ escapeCharacter :: t) =
      stripColorChars s ++ stripColorChars (escapeCharacter :: t) := by
  induction s using induction_color with
  | nil => rw [stripColorChars]; rfl
  | code code s hc ih =>
    rw [List.append_assoc, stripColorChars_code hc, stripColorChars_code hc, ih]
  | kept c s h ih =>
    have hnone : afterColorCode? (c :: (s ++ escapeCharacter :: t)) = none := by
      refine Option.eq_none_iff_forall_ne_some.mpr fun after hafter => ?_
      obtain ⟨code, hc, hcode⟩ := afterColorCode?_eq_some_iff.mp hafter
      obtain ⟨rest, rfl⟩ : ∃ rest, code = c :: rest := by
        obtain ⟨params, -, rfl⟩ := hc
        exact ⟨_, by rw [(List.cons.inj hcode).1]⟩
      obtain ⟨more, rfl⟩ := prefix_of_append_eq hc.escape_not_mem (List.cons.inj hcode).2
      have hsome : afterColorCode? (c :: (rest ++ more)) = some more :=
        afterColorCode?_eq_some_iff.mpr ⟨_, hc, rfl⟩
      rw [h] at hsome
      cases hsome
    rw [stripColorChars_kept h, List.cons_append, stripColorChars_kept hnone, ih, List.cons_append]

namespace Strewn

theorem append (h : Strewn s front) (h' : Strewn t back) : Strewn (s ++ t) (front ++ back) := by
  induction h with
  | nil => exact h'
  | char c _ ih => exact .char c ih
  | code hc _ ih =>
    rw [List.append_assoc]
    exact .code hc ih

theorem eq_or_escape (h : Strewn s t) :
    t = s ∨ ∃ front back, t = front ++ escapeCharacter :: back ∧ ∀ c ∈ front, c ∈ s := by
  induction h with
  | nil => exact Or.inl rfl
  | char c _ ih =>
    rcases ih with rfl | ⟨front, back, rfl, hfront⟩
    · exact Or.inl rfl
    · exact Or.inr ⟨c :: front, back, rfl, by grind⟩
  | code hc _ _ =>
    obtain ⟨params, -, rfl⟩ := hc
    exact Or.inr ⟨[], _, rfl, nofun⟩

theorem stripColorChars_append (h : Strewn s t) (hs : escapeCharacter ∉ s) (u : List Char) :
    stripColorChars (t ++ u) = s ++ stripColorChars u := by
  induction h with
  | nil => rfl
  | char c _ ih =>
    have hc : c ≠ escapeCharacter := fun e => hs (e ▸ List.mem_cons_self)
    rw [List.cons_append, stripColorChars_char hc, ih fun hm => hs (List.mem_cons_of_mem c hm)]
    rfl
  | code hc _ ih => rw [List.append_assoc, stripColorChars_code hc, ih hs]

end Strewn

/-- A character that is kept stood behind codes only. -/
theorem exists_of_stripColorChars_cons (h : stripColorChars s = c :: t) :
    ∃ front back, s = front ++ c :: back ∧ Strewn [] front ∧
      afterColorCode? (c :: back) = none ∧ stripColorChars back = t := by
  induction s using induction_color with
  | nil =>
    rw [stripColorChars] at h
    cases h
  | code code s hc ih =>
    rw [stripColorChars_code hc] at h
    obtain ⟨front, back, rfl, hfront, hrest⟩ := ih h
    exact ⟨code ++ front, back, (List.append_assoc _ _ _).symm, .code hc hfront, hrest⟩
  | kept d s hnone _ =>
    rw [stripColorChars_kept hnone] at h
    obtain ⟨rfl, rfl⟩ := List.cons.inj h
    exact ⟨[], s, rfl, .nil, hnone, rfl⟩

theorem exists_of_stripColorChars_append (h : stripColorChars s = t ++ u) :
    ∃ front back, s = front ++ back ∧ Strewn t front ∧ stripColorChars back = u := by
  induction t generalizing s with
  | nil => exact ⟨[], s, rfl, .nil, h⟩
  | cons c t ih =>
    obtain ⟨codes, rest, rfl, hcodes, -, hrest⟩ := exists_of_stripColorChars_cons h
    obtain ⟨front, back, rfl, hfront, hback⟩ := ih hrest
    exact ⟨codes ++ c :: front, back, by simp, hcodes.append (.char c hfront), hback⟩

theorem hasTornCode_of_left (h : HasColorCode (stripColorChars s)) : HasTornCode s := by
  obtain ⟨_, ⟨params, hparams, rfl⟩, before, behind, hs⟩ := h
  have hsplit : stripColorChars s =
      before ++ escapeCharacter :: (('[' :: params) ++ 'm' :: behind) := by
    rw [← hs]
    simp
  obtain ⟨front, rest, rfl, -, hrest⟩ := exists_of_stripColorChars_append hsplit
  obtain ⟨codes, rest, rfl, -, hnone, hinside⟩ := exists_of_stripColorChars_cons hrest
  obtain ⟨inner, rest, rfl, hinner, hend⟩ := exists_of_stripColorChars_append hinside
  obtain ⟨codes', last, rfl, hcodes', -, -⟩ := exists_of_stripColorChars_cons hend
  have hstrewn : Strewn ('[' :: params) (inner ++ codes') := by simpa using hinner.append hcodes'
  refine ⟨escapeCharacter :: (inner ++ codes' ++ ['m']), ⟨params, _, hparams, hstrewn, ?_, rfl⟩,
    front ++ codes, last, by simp⟩
  -- Were nothing put in, a code would stand there, and its escape character would not be kept.
  intro hplain
  have hcode : afterColorCode? (escapeCharacter :: (inner ++ (codes' ++ 'm' :: last))) =
      some last := by
    rw [← List.append_assoc, hplain]
    exact afterColorCode?_eq_some_iff.mpr ⟨_, ⟨params, hparams, rfl⟩, by simp⟩
  rw [hnone] at hcode
  cases hcode

theorem afterColorCode?_torn (hparams : ∀ c ∈ params, isColorParameter c = true)
    (h : Strewn ('[' :: params) inner) (hne : inner ≠ '[' :: params) (u : List Char) :
    afterColorCode? (escapeCharacter :: (inner ++ u)) = none := by
  obtain ⟨front, back, rfl, hfront⟩ := h.eq_or_escape.resolve_left hne
  refine Option.eq_none_iff_forall_ne_some.mpr fun after hafter => ?_
  obtain ⟨_, ⟨others, hothers, rfl⟩, hcode⟩ := afterColorCode?_eq_some_iff.mp hafter
  have hc : IsColorCode (escapeCharacter :: '[' :: (others ++ ['m'])) := ⟨others, hothers, rfl⟩
  rw [List.append_assoc] at hcode
  have hpre := prefix_of_append_eq hc.escape_not_mem (List.cons.inj hcode).2
  -- The letter at the end of a code would stand among the parameters of the torn one.
  have hm : 'm' ∈ '[' :: params := hfront 'm' (hpre.subset (by simp))
  rcases List.mem_cons.mp hm with hm | hm
  · exact absurd hm (by decide)
  · exact absurd (hparams _ hm) (by decide)

theorem hasColorCode_left_of_torn (h : HasTornCode s) : HasColorCode (stripColorChars s) := by
  obtain ⟨_, ⟨params, inner, hparams, hinner, hne, rfl⟩, before, behind, rfl⟩ := h
  have hinside : escapeCharacter ∉ '[' :: params := by
    intro hm
    rcases List.mem_cons.mp hm with hm | hm
    · exact absurd hm (by decide)
    · exact absurd (hparams _ hm) (by decide)
  have hleft : stripColorChars (before ++ escapeCharacter :: (inner ++ ['m']) ++ behind) =
      stripColorChars before ++ escapeCharacter :: '[' :: (params ++ ['m']) ++
        stripColorChars behind := by
    have hm : stripColorChars ('m' :: behind) = 'm' :: stripColorChars behind :=
      stripColorChars_char (by decide) behind
    rw [List.append_assoc, List.cons_append, stripColorChars_append_escape, List.append_assoc,
      stripColorChars_kept (afterColorCode?_torn hparams hinner hne _),
      hinner.stripColorChars_append hinside, List.singleton_append, hm]
    simp
  exact ⟨_, ⟨params, hparams, rfl⟩, stripColorChars before, stripColorChars behind, hleft.symm⟩

theorem stripColorChars_eq_self_iff : stripColorChars s = s ↔ ¬ HasColorCode s := by
  constructor
  · rintro h ⟨_, ⟨params, hparams, rfl⟩, before, behind, rfl⟩
    have hc : IsColorCode (escapeCharacter :: '[' :: (params ++ ['m'])) := ⟨params, hparams, rfl⟩
    rw [List.append_assoc, List.cons_append, stripColorChars_append_escape, ← List.cons_append,
      stripColorChars_code hc] at h
    have hlength := congrArg List.length h
    have hbefore := (stripColorChars_sublist before).length_le
    have hbehind := (stripColorChars_sublist behind).length_le
    simp only [List.length_append, List.length_cons] at hlength
    omega
  · intro h
    induction s with
    | nil => rw [stripColorChars]
    | cons c s ih =>
      have hnone : afterColorCode? (c :: s) = none := by
        refine Option.eq_none_iff_forall_ne_some.mpr fun after hafter => ?_
        obtain ⟨code, hc, hs⟩ := afterColorCode?_eq_some_iff.mp hafter
        exact h ⟨code, hc, [], after, hs.symm⟩
      have hrest : ¬ HasColorCode s := by
        rintro ⟨code, hc, hs⟩
        exact h ⟨code, hc, hs.trans (List.suffix_cons c s).isInfix⟩
      rw [stripColorChars_kept hnone, ih hrest]

theorem toList_stripColor (s : String) : (stripColor s).toList = stripColorChars s.toList :=
  String.toList_ofList

theorem stripColor_eq_self_iff {s : String} : stripColor s = s ↔ ¬ HasColorCode s.toList := by
  rw [← stripColorChars_eq_self_iff, ← toList_stripColor, String.toList_inj]

end Text

open Text

namespace Log

variable {entry : Entry}

theorem keys_extraFields_subset (line : Line) : (extraFields line).keys ⊆ toldFields := by
  intro key hkey
  obtain ⟨pair, hp, rfl⟩ := List.mem_map.mp hkey
  obtain ⟨name, hname, hpair⟩ := List.mem_filterMap.mp hp
  split at hpair
  · cases hpair
  · cases hpair
  · cases hpair
    exact hname

/-- The message of an entry is that of its line without color codes, unless the trace has one. -/
theorem Entry.message (h : "message" ∉ entry.record.trace.keys) :
    entry.fields.get? "message" = some (.text (stripColor entry.record.line.message)) := by
  have hextra : "message" ∉ (extraFields entry.record.line).keys := fun hm =>
    absurd (keys_extraFields_subset _ hm) (by decide)
  rw [Entry.fields, Entries.get?_putAll_of_not_mem hextra, Entries.get?_putAll_of_not_mem h]
  rfl

end Log

/-- A text that is stripped of color codes still holds some, and changes when it is stripped again,
exactly if a torn code was in it. The message of an entry is stripped once. -/
theorem Log.codes_left_iff_torn (s : String) :
    (HasColorCode (stripColor s).toList ↔ HasTornCode s.toList) ∧
    (stripColor (stripColor s) = stripColor s ↔ ¬ HasTornCode s.toList) ∧
    ∀ entry : Log.Entry, entry.record.line.message = s → "message" ∉ entry.record.trace.keys →
      ∃ message, entry.fields.get? "message" = some (.text message) ∧
        (HasColorCode message.toList ↔ HasTornCode s.toList) := by
  have hleft : HasColorCode (stripColor s).toList ↔ HasTornCode s.toList := by
    rw [toList_stripColor]
    exact ⟨hasTornCode_of_left, hasColorCode_left_of_torn⟩
  refine ⟨hleft, ?_, ?_⟩
  · rw [stripColor_eq_self_iff, hleft]
  · rintro entry rfl htrace
    exact ⟨_, entry.message htrace, hleft⟩

namespace Torn

/-- A red beginning with the end of another color in it. -/
def text : String := "a\x1b[\x1b[0m31mb"

theorem hasTornCode_text : HasTornCode text.toList := by
  have hend : IsColorCode ['\x1b', '[', '0', 'm'] := ⟨['0'], List.forall_mem_singleton.mpr rfl, rfl⟩
  have hinner : Strewn ['[', '3', '1'] ('[' :: (['\x1b', '[', '0', 'm'] ++ ['3', '1'])) :=
    .char '[' (.code hend (.char '3' (.char '1' .nil)))
  have hparams : ∀ c ∈ ['3', '1'], isColorParameter c = true := List.all_eq_true.mp rfl
  exact ⟨_, ⟨['3', '1'], _, hparams, hinner, by decide, rfl⟩, ['a'], ['b'], rfl⟩

example : stripColor text = "a\x1b[31mb" := by cbv

def entry : Log.Entry where
  time := ⟨0, 0, 0, 0, 0, 0, 0, none⟩
  record := ⟨Log.line .info "nexflow.test" text, [("flow_id", .text "f")], false⟩

/-- A log entry of a run whose line holds a torn code. -/
theorem codes_left_in_entry :
    entry.record.line.message = text ∧ "message" ∉ entry.record.trace.keys ∧
      ∃ message, entry.fields.get? "message" = some (.text message) ∧
        HasColorCode message.toList := by
  have htrace : "message" ∉ entry.record.trace.keys := by decide
  obtain ⟨message, hmessage, hleft⟩ := (Log.codes_left_iff_torn text).2.2 entry rfl htrace
  exact ⟨rfl, htrace, message, hmessage, hleft.mpr hasTornCode_text⟩

/-- Stripping does not make every text free of color codes, it is not the same done twice, and not
every message of an entry is free of them. -/
theorem stripped_text_holds_code :
    (¬ ∀ s : String, ¬ HasColorCode (stripColor s).toList) ∧
    (¬ ∀ s : String, stripColor (stripColor s) = stripColor s) ∧
    ¬ ∀ (entry : Log.Entry) (message : String), entry.fields.get? "message" = some (.text message) →
      ¬ HasColorCode message.toList := by
  have hcode : HasColorCode (stripColor text).toList := by
    rw [toList_stripColor]
    exact hasColorCode_left_of_torn hasTornCode_text
  refine ⟨fun h => h text hcode, fun h => ?_, fun h => ?_⟩
  · exact stripColor_eq_self_iff.mp (h text) hcode
  · exact h entry _ (entry.message (by decide)) hcode

end Torn

end FlowEngine
