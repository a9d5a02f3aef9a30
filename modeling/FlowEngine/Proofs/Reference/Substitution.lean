import Mathlib.Data.List.TakeWhile
import FlowEngine.Proofs.Text.Pieces
import FlowEngine.Reference.Resolve

/-!
# References in settings and in text

A template is read from the left: a reference wherever one begins, and a character elsewhere. One in
which no brace opens is made of characters only, and resolves to itself.

A setting that is exactly one reference takes its value, and the string form of that value is what the
reference is replaced by in text. The two ways to resolve a text agree, then, unless the text begins
and ends with double braces that are not those of one reference.
-/

namespace FlowEngine

theorem Template.pieces_eq_map_char {s : List Char} (h : '\x7b' ∉ s) :
    Template.pieces s = s.map .char := by
  fun_induction Template.pieces s with
  | case1 => rfl
  | case2 rest body after hr hlt ih => exact absurd List.mem_cons_self h
  | case3 rest hr ih => exact absurd List.mem_cons_self h
  | case4 c rest hne ih => rw [ih fun hm => h (List.mem_cons_of_mem c hm), List.map_cons]

theorem Scope.piecesText_map_char (scope : Scope) (s : List Char) :
    scope.piecesText (s.map .char) = .ok s := by
  induction s with
  | nil => rfl
  | cons c s ih => simp [Scope.piecesText, Scope.piece, ih, bind, Except.bind]

theorem Scope.resolve_eq_self (scope : Scope) {template : String}
    (h : '\x7b' ∉ template.toList) : scope.resolve template = .ok template := by
  rw [Scope.resolve, Template.pieces_eq_map_char h, Scope.piecesText_map_char]
  exact congrArg Except.ok String.ofList_toList

namespace Scope

theorem soleReference?_eq_none {setting : String} (h : '\x7b' ∉ setting.toList) :
    soleReference? setting = none := by
  have hp : (['\x7b', '\x7b'].isPrefixOf (Text.trimChars setting.toList)) = false := by
    rw [Bool.eq_false_iff]
    intro hp
    have hm := (List.isPrefixOf_iff_prefix.mp hp).subset List.mem_cons_self
    exact h (Text.mem_of_mem_trimChars hm)
  simp [soleReference?, hp]

def IsPlain (settings : Entries Value) : Prop :=
  ∀ entry ∈ settings, ∃ s : String, entry.2 = .text s ∧ '\x7b' ∉ s.toList

theorem settings_eq_self (scope : Scope) {settings : Entries Value} (h : IsPlain settings) :
    scope.settings settings = .ok settings := by
  induction settings with
  | nil => rfl
  | cons entry rest ih =>
    obtain ⟨key, v⟩ := entry
    obtain ⟨s, hs, hn⟩ := h (key, v) List.mem_cons_self
    obtain rfl : v = .text s := hs
    have hrest := ih fun entry he => h entry (List.mem_cons_of_mem _ he)
    simp [Scope.settings, setting, soleReference?_eq_none hn, scope.resolve_eq_self hn, hrest,
      Except.map, bind, Except.bind]

end Scope

/-- White space stands at neither end. -/
structure Text.Tight (s : List Char) : Prop where
  front : ∀ c, s.head? = some c → isBlank c = false
  back : ∀ c, s.getLast? = some c → isBlank c = false

theorem Text.tight_of_ends {s : List Char} {first last : Char} (hf : s.head? = some first)
    (hl : s.getLast? = some last) (hfirst : isBlank first = false) (hlast : isBlank last = false) :
    Text.Tight s where
  front c h := by
    obtain rfl : first = c := Option.some.inj (hf.symm.trans h)
    exact hfirst
  back c h := by
    obtain rfl : last = c := Option.some.inj (hl.symm.trans h)
    exact hlast

namespace Template

def braced (body : List Char) : List Char := '\x7b' :: '\x7b' :: (body ++ ['\x7d', '\x7d'])

/-- What can stand between the braces of a reference. -/
structure IsBody (body : List Char) : Prop where
  ne_nil : body ≠ []
  not_mem : '\x7d' ∉ body

/-- How the pieces of a template follow from its text. A reference is taken where one begins. -/
inductive Reads : List Char → List Piece → Prop where
  | done : Reads [] []
  | reference {body rest pieces} (hb : IsBody body) (hr : Reads rest pieces) :
      Reads (braced body ++ rest) (.reference body :: pieces)
  | char {c rest pieces} (hn : ∀ body after, IsBody body → c :: rest ≠ braced body ++ after)
      (hr : Reads rest pieces) : Reads (c :: rest) (.char c :: pieces)

variable {s body after rest : List Char} {c : Char}

theorem takeWhile_body (after : List Char) (h : '\x7d' ∉ body) :
    (body ++ '\x7d' :: after).takeWhile (· != '\x7d') = body ∧
      (body ++ '\x7d' :: after).dropWhile (· != '\x7d') = '\x7d' :: after := by
  have hall : ∀ d ∈ body, (d != '\x7d') = true := by
    intro d hd
    rw [bne_iff_ne]
    rintro rfl
    exact h hd
  constructor
  · rw [List.takeWhile_append_of_pos hall, List.takeWhile_cons_of_neg (by decide), List.append_nil]
  · rw [List.dropWhile_append_of_pos hall, List.dropWhile_cons_of_neg (by decide)]

theorem referenceAt?_body (hb : IsBody body) :
    referenceAt? (body ++ '\x7d' :: '\x7d' :: after) = some (body, after) := by
  obtain ⟨htake, hdrop⟩ := takeWhile_body ('\x7d' :: after) hb.not_mem
  simp [referenceAt?, htake, hdrop, hb.ne_nil]

theorem eq_of_referenceAt? (h : referenceAt? s = some (body, after)) :
    IsBody body ∧ s = body ++ '\x7d' :: '\x7d' :: after := by
  unfold referenceAt? at h
  split at h
  · rename_i rest hd
    dsimp only at h
    split at h
    · cases h
    · rename_i hne
      cases h
      have hs : s.takeWhile (· != '\x7d') ++ s.dropWhile (· != '\x7d') = s :=
        List.takeWhile_append_dropWhile
      refine ⟨⟨by simpa using hne, ?_⟩, by rw [← hd, hs]⟩
      intro hm
      simpa using List.mem_takeWhile_imp hm
  · cases h

theorem braced_append (body after : List Char) :
    braced body ++ after = '\x7b' :: '\x7b' :: (body ++ '\x7d' :: '\x7d' :: after) := by
  simp [braced]

theorem pieces_braced (hb : IsBody body) :
    pieces (braced body ++ rest) = .reference body :: pieces rest := by
  rw [braced_append, pieces]
  split
  · rename_i found after hf
    rw [referenceAt?_body hb] at hf
    cases hf
    rfl
  · rename_i hf
    rw [referenceAt?_body hb] at hf
    cases hf

theorem reads_pieces (s : List Char) : Reads s (pieces s) := by
  fun_induction pieces s with
  | case1 => exact .done
  | case2 rest body after hr hlt ih =>
    obtain ⟨hb, rfl⟩ := eq_of_referenceAt? hr
    rw [← braced_append]
    exact .reference hb ih
  | case3 rest hr ih =>
    refine .char ?_ ih
    intro body after hb he
    rw [braced_append, List.cons.injEq, List.cons.injEq] at he
    rw [he.2.2, referenceAt?_body hb] at hr
    cases hr
  | case4 c rest hne ih =>
    refine .char ?_ ih
    intro body after hb he
    rw [braced_append, List.cons.injEq] at he
    exact hne _ he.1 he.2

theorem pieces_char (hn : ∀ body after, IsBody body → c :: rest ≠ braced body ++ after) :
    pieces (c :: rest) = .char c :: pieces rest := by
  generalize hs : c :: rest = s at hn ⊢
  fun_cases pieces s with
  | case1 => cases hs
  | case2 rest body after hr hlt =>
    obtain ⟨hb, rfl⟩ := eq_of_referenceAt? hr
    exact absurd (braced_append body after).symm (hn body after hb)
  | case3 => cases hs; rfl
  | case4 => cases hs; rfl

/-- A template is read in one way only. -/
theorem Reads.eq_pieces {found : List Piece} (h : Reads s found) : found = pieces s := by
  induction h with
  | done => rw [pieces]
  | reference hb _ ih => rw [pieces_braced hb, ih]
  | char hn _ ih => rw [pieces_char hn, ih]

end Template

namespace Scope

open Template

variable (scope : Scope) {key v : String} {body inner : List Char}

/-- A setting is taken for one reference when it has double braces around anything. -/
theorem soleReference?_eq_some :
    soleReference? v = some inner ↔ inner ≠ [] ∧ Text.trimChars v.toList = braced inner := by
  simp only [soleReference?, Option.ite_none_right_eq_some, Bool.and_eq_true, decide_eq_true_eq,
    List.isPrefixOf_iff_prefix, List.isSuffixOf_iff_suffix, Option.some.injEq]
  generalize Text.trimChars v.toList = s
  constructor
  · rintro ⟨⟨⟨hlong, ⟨after, rfl⟩⟩, ⟨before, hs⟩⟩, rfl⟩
    -- Five characters are enough for the two pairs of braces to stand apart.
    rcases List.append_eq_append_iff.mp hs with ⟨middle, hm, -⟩ | ⟨middle, rfl, hm⟩
    · have hb := congrArg List.length hs
      have hm := congrArg List.length hm
      simp only [List.length_append, List.length_cons, List.length_nil] at hb hm hlong
      omega
    · subst hm
      simp only [List.length_append, List.length_cons, List.length_nil] at hlong
      have hne : middle ≠ [] := List.ne_nil_of_length_pos (by omega)
      simp [braced, hne]
  · rintro ⟨hne, rfl⟩
    have hlong := List.length_pos_iff.mpr hne
    refine ⟨⟨⟨?_, ?_⟩, ?_⟩, ?_⟩
    · simp [braced]
      omega
    · exact ⟨inner ++ ['\x7d', '\x7d'], by simp [braced]⟩
    · exact ⟨'\x7b' :: '\x7b' :: inner, by simp [braced]⟩
    · simp [braced]

def settingValue : Value → Value
  | .null => .text ""
  | v => v

theorem inline_settingValue (v : Value) : (settingValue v).inline = v.inline := by
  cases v <;> rfl

theorem setting_braced (hne : inner ≠ []) (hv : Text.trimChars v.toList = braced inner) :
    scope.setting (.text v) = (scope.reference inner).map settingValue := by
  rw [setting, soleReference?_eq_some.mpr ⟨hne, hv⟩]
  rfl

theorem setting_other (h : ∀ inner, inner ≠ [] → Text.trimChars v.toList ≠ braced inner) :
    scope.setting (.text v) = (scope.resolve v).map .text := by
  have hnone : soleReference? v = none := by
    rw [Option.eq_none_iff_forall_ne_some]
    intro inner hs
    obtain ⟨hne, hv⟩ := soleReference?_eq_some.mp hs
    exact h inner hne hv
  rw [setting, hnone]

theorem resolve_braced (hb : IsBody body) (hv : v.toList = braced body) :
    scope.resolve v = (scope.reference body).map Value.inline := by
  have hp : pieces v.toList = [.reference body] := by
    rw [hv, ← List.append_nil (braced body), pieces_braced hb, pieces]
  rw [resolve, hp]
  cases hr : scope.reference body with
  | error fault => simp [piecesText, piece, hr, Except.map, bind, Except.bind]
  | ok w => simp [piecesText, piece, hr, Except.map, bind, Except.bind]

theorem settings_singleton :
    scope.settings [(key, .text v)] = (scope.setting (.text v)).map fun w => [(key, w)] := by
  cases hs : scope.setting (.text v) <;> simp [settings, hs, Except.map, bind, Except.bind]

/-- What a map of settings holds under a key, in the form that it takes in text. -/
def textUnder (key : String) (resolved : Entries Value) : String :=
  (Value.ofOption (resolved.get? key)).inline

theorem textUnder_singleton {found : Except Fault Value} :
    ((found.map fun w => [(key, w)]).map (textUnder key)) = found.map Value.inline := by
  cases found with
  | error fault => rfl
  | ok w => simp [Except.map, textUnder, Entries.get?, Value.ofOption]

/-- Whatever stands in double braces is taken for one reference, and the setting for its value; any
other setting stays text. So a setting and a template of one text agree, also in the fault that ends
them, where the text has no double braces around it or is exactly one reference. In a template each
reference gives way to the string form of its value. -/
theorem settings_agree (scope : Scope) (key v : String) (ht : Text.Tight v.toList) :
    ((∀ inner, inner ≠ [] → v.toList = braced inner → IsBody inner) →
        (scope.settings [(key, .text v)]).map (textUnder key) = scope.resolve v) ∧
      (∀ inner, inner ≠ [] → v.toList = braced inner →
        scope.settings [(key, .text v)] =
          (scope.reference inner).map fun w => [(key, settingValue w)]) ∧
      ((∀ inner, inner ≠ [] → v.toList ≠ braced inner) →
        scope.settings [(key, .text v)] = (scope.resolve v).map fun text => [(key, .text text)]) ∧
      ∃ found, Reads v.toList found ∧
        scope.resolve v = (scope.piecesText found).map String.ofList := by
  have htrim : Text.trimChars v.toList = v.toList := Text.trimChars_eq_self ht.front ht.back
  have hsole : ∀ inner, inner ≠ [] → v.toList = braced inner →
      scope.setting (.text v) = (scope.reference inner).map settingValue :=
    fun inner hne hv => scope.setting_braced hne (htrim.trans hv)
  have hother : (∀ inner, inner ≠ [] → v.toList ≠ braced inner) →
      scope.setting (.text v) = (scope.resolve v).map .text :=
    fun h => scope.setting_other fun inner hne hv => h inner hne (htrim.symm.trans hv)
  refine ⟨?_, ?_, ?_, pieces v.toList, reads_pieces _, rfl⟩
  · intro hb
    rw [settings_singleton, textUnder_singleton]
    by_cases h : ∃ inner, inner ≠ [] ∧ v.toList = braced inner
    · obtain ⟨inner, hne, hv⟩ := h
      rw [hsole inner hne hv, scope.resolve_braced (hb inner hne hv) hv]
      cases scope.reference inner with
      | error fault => rfl
      | ok w => exact congrArg Except.ok (inline_settingValue w)
    · rw [hother fun inner hne hv => h ⟨inner, hne, hv⟩]
      cases scope.resolve v <;> rfl
  · intro inner hne hv
    rw [settings_singleton, hsole inner hne hv]
    cases scope.reference inner <;> rfl
  · intro h
    rw [settings_singleton, hother h]
    cases scope.resolve v <;> rfl

end Scope

namespace Doubled

open Template

def scope : Scope where
  context := { Context.create "f" "e" ⟨0, 0, 0, 0, 0, 0, 0, none⟩ with
    nex := [("a", .int 1), ("b", .int 2)] }
  loop := none

def first : List Char := "nex.a".toList

def second : List Char := "nex.b".toList

theorem isBody_first : IsBody first := ⟨by decide, by decide⟩

theorem isBody_second : IsBody second := ⟨by decide, by decide⟩

/-- Where text follows the second reference, both are replaced. -/
theorem settings_agree_exclaimed :
    Text.Tight "\x7b\x7bnex.a\x7d\x7d\x7b\x7bnex.b\x7d\x7d!".toList ∧
      (scope.settings [("k", .text "\x7b\x7bnex.a\x7d\x7d\x7b\x7bnex.b\x7d\x7d!")]).map
          (Scope.textUnder "k") = .ok "12!" := by
  have htight : Text.Tight "\x7b\x7bnex.a\x7d\x7d\x7b\x7bnex.b\x7d\x7d!".toList :=
    Text.tight_of_ends (rfl : _ = some '\x7b') (rfl : _ = some '!') (by decide) (by decide)
  have hends : ∀ inner, inner ≠ [] →
      "\x7b\x7bnex.a\x7d\x7d\x7b\x7bnex.b\x7d\x7d!".toList = braced inner → IsBody inner := by
    intro inner _ h
    have hlast : some '!' = (('\x7b' :: '\x7b' :: inner ++ ['\x7d']) ++ ['\x7d']).getLast? :=
      congrArg List.getLast? (h.trans (by simp [braced]))
    rw [List.getLast?_concat] at hlast
    exact absurd hlast (by decide)
  have hreads : Reads "\x7b\x7bnex.a\x7d\x7d\x7b\x7bnex.b\x7d\x7d!".toList
      [.reference first, .reference second, .char '!'] :=
    .reference isBody_first (.reference isBody_second (.char (by simp [braced]) .done))
  refine ⟨htight, ?_⟩
  rw [(Scope.settings_agree scope "k" _ htight).1 hends, Scope.resolve, ← hreads.eq_pieces]
  rfl

/-- Two references side by side are taken for one whose body holds braces, which leads nowhere. -/
theorem two_references_lost :
    ¬ ∀ (scope : Scope) (key v : String) (resolved : Entries Value) (text : String),
      Text.Tight v.toList → scope.settings [(key, .text v)] = .ok resolved →
      scope.resolve v = .ok text → Scope.textUnder key resolved = text := by
  intro hall
  have hreads : Reads "\x7b\x7bnex.a\x7d\x7d\x7b\x7bnex.b\x7d\x7d".toList
      [.reference first, .reference second] :=
    .reference isBody_first (.reference isBody_second .done)
  have htext : scope.resolve "\x7b\x7bnex.a\x7d\x7d\x7b\x7bnex.b\x7d\x7d" = .ok "12" := by
    rw [Scope.resolve, ← hreads.eq_pieces]
    rfl
  have htight : Text.Tight "\x7b\x7bnex.a\x7d\x7d\x7b\x7bnex.b\x7d\x7d".toList :=
    Text.tight_of_ends (rfl : _ = some '\x7b') (rfl : _ = some '\x7d') (by decide) (by decide)
  have hsame := hall scope "k" _ [("k", .text "")] _ htight rfl htext
  exact absurd hsame (by decide)

end Doubled

end FlowEngine
