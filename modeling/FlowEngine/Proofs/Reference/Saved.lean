import FlowEngine.Proofs.Data.Path
import FlowEngine.Proofs.Reference.Substitution

/-!
# References to saved outputs

Operators have spaces around them, so a reference without white space is one path. A setting that is
exactly such a reference has the value at that path.

A name to save under is an identifier. It has no white space, no dot and no operator in it, so the
path made of it leads to what is saved there. A longer path leads on from there, as it would on its
own.
-/

namespace FlowEngine

/-- Text with something in it, and none of that white space. -/
structure Text.Spaceless (s : List Char) : Prop where
  ne_nil : s ≠ []
  visible : ∀ c ∈ s, isBlank c = false

theorem Text.visible_of_all {s : List Char} (h : (s.all fun c => !isBlank c) = true) :
    ∀ c ∈ s, isBlank c = false := by
  simpa using h

namespace Scope

open Template

variable (scope : Scope) {body : List Char}

theorem splitOperator_spaceless (hb : ∀ c ∈ body, Text.isBlank c = false)
    (ops : List Operator) : splitOperator body ops = none := by
  have hspace : ' ' ∉ body := fun hm => by cases hb ' ' hm
  induction ops with
  | nil => rfl
  | cons op rest ih =>
    obtain ⟨pattern, hp⟩ : ∃ pattern, op.spelled = ' ' :: pattern := by cases op <;> exact ⟨_, rfl⟩
    rw [splitOperator, hp, Text.splitFirst?_eq_none hspace]
    exact ih

theorem reference_spaceless (hb : Text.Spaceless body) :
    scope.reference body = scope.path (String.ofList body) := by
  have htrim : Text.trimChars body = body :=
    Text.trimChars_eq_self (fun c hc => hb.visible c (List.mem_of_head? hc))
      fun c hc => hb.visible c (List.mem_of_getLast? hc)
  rw [reference, htrim, expression, String.toList_ofList, splitOperator_spaceless hb.visible]

theorem settings_spaceless (key : String) {path : String} (hp : Text.Spaceless path.toList) :
    scope.settings [(key, .text ("\x7b\x7b" ++ path ++ "\x7d\x7d"))] =
      (scope.path path).map fun v => [(key, settingValue v)] := by
  have hbraced : ("\x7b\x7b" ++ path ++ "\x7d\x7d").toList = braced path.toList := by
    simp [braced]
  have hlast : (braced path.toList).getLast? = some '\x7d' := by
    rw [show braced path.toList = ('\x7b' :: '\x7b' :: path.toList ++ ['\x7d']) ++ ['\x7d'] by
      simp [braced]]
    exact List.getLast?_concat
  have htight : Text.Tight (braced path.toList) :=
    Text.tight_of_ends rfl hlast (by decide) (by decide)
  have htrim : Text.trimChars (braced path.toList) = braced path.toList :=
    Text.trimChars_eq_self htight.front htight.back
  rw [settings_singleton, setting_braced scope hp.ne_nil (hbraced ▸ htrim),
    reference_spaceless scope hp, String.ofList_toList]
  cases scope.path path <;> rfl

end Scope

/-- An ASCII letter or underscore, and after it ASCII letters, digits and underscores. -/
def Text.IsIdentifier (s : String) : Prop :=
  ∃ c rest, s.toList = c :: rest ∧ (c.isAlpha = true ∨ c = '_') ∧
    ∀ d ∈ rest, d.isAlphanum = true ∨ d = '_'

namespace Text

variable {c : Char} {s : List Char} {name : String}

theorem visible_of_isAlphanum (h : c.isAlphanum = true ∨ c = '_') :
    isBlank c = false ∧ c ≠ '.' := by
  rcases h with h | rfl
  · change (decide ('A'.val ≤ c.val ∧ c.val ≤ 'Z'.val) ||
      (decide ('a'.val ≤ c.val) && decide (c.val ≤ 'z'.val)) ||
      (decide ('0'.val ≤ c.val) && decide (c.val ≤ '9'.val))) = true at h
    simp only [Bool.or_eq_true, Bool.and_eq_true, decide_eq_true_eq,
      UInt32.le_iff_toNat_le] at h
    change ((65 ≤ c.toNat ∧ c.toNat ≤ 90) ∨ (97 ≤ c.toNat ∧ c.toNat ≤ 122)) ∨
      (48 ≤ c.toNat ∧ c.toNat ≤ 57) at h
    constructor
    · simp only [isBlank, isBlankCode, Bool.or_eq_false_iff, Bool.and_eq_false_iff,
        decide_eq_false_iff_not, beq_eq_false_iff_ne]
      omega
    · rintro rfl
      exact absurd h (by decide)
  · decide

theorem not_isBlank_of_getLast?_trimChars (h : (trimChars s).getLast? = some c) :
    isBlank c = false := by
  rw [trimChars, trimBack, List.getLast?_reverse] at h
  have hd := List.head?_dropWhile_not isBlank (trimFront s).reverse
  rw [h] at hd
  exact hd

theorem isIdentifier_of (h : FlowEngine.isIdentifier name.toList = true) : IsIdentifier name := by
  unfold FlowEngine.isIdentifier at h
  split at h
  · cases h
  · rename_i c rest hchars
    simp only [Bool.and_eq_true, Bool.or_eq_true, beq_iff_eq, List.all_eq_true] at h
    exact ⟨c, rest, hchars, h.1, fun d hd => by simpa [Char.isAlphanum] using h.2 d hd⟩

theorem IsIdentifier.ne_nil (h : IsIdentifier name) : name.toList ≠ [] := by
  obtain ⟨c, rest, hchars, -⟩ := h
  rw [hchars]
  exact List.cons_ne_nil c rest

theorem IsIdentifier.visible (h : IsIdentifier name) :
    ∀ c ∈ name.toList, isBlank c = false ∧ c ≠ '.' := by
  obtain ⟨first, rest, hchars, hfirst, hrest⟩ := h
  intro c hc
  rw [hchars, List.mem_cons] at hc
  rcases hc with rfl | hc
  · exact visible_of_isAlphanum (hfirst.imp_left fun ha => by simp [Char.isAlphanum, ha])
  · exact visible_of_isAlphanum (hrest c hc)

theorem IsIdentifier.trim (h : IsIdentifier name) : Text.trim name = name := by
  rw [Text.trim, trimChars_eq_self (fun c hc => (h.visible c (List.mem_of_head? hc)).1)
    fun c hc => (h.visible c (List.mem_of_getLast? hc)).1, String.ofList_toList]

end Text

theorem Node.exists_trim_of_saveName? {node : Node} {name : String}
    (h : node.saveName? = some name) : ∃ s, name = Text.trim s := by
  unfold saveName? saveName at h
  split at h
  · cases h
  · generalize Value.shown _ = shown at h
    cases shown with
    | error fault => cases h
    | ok text =>
      simp only [Except.map, Except.toOption, Option.join_some, Option.ite_none_left_eq_some,
        Option.some.injEq] at h
      exact ⟨text, h.2.symm⟩

/-- The names under which outputs are saved are trimmed, so none ends in a line feed. -/
theorem Node.isIdentifier_saveName {node : Node} {name : String}
    (hn : node.saveName? = some name) (hs : isSaveName name = true) : Text.IsIdentifier name := by
  obtain ⟨s, rfl⟩ := exists_trim_of_saveName? hn
  simp only [isSaveName, Bool.or_eq_true, Bool.and_eq_true, beq_iff_eq] at hs
  rcases hs with hi | ⟨hlast, -⟩
  · exact Text.isIdentifier_of hi
  · rw [Text.trim, String.toList_ofList] at hlast
    exact absurd (Text.not_isBlank_of_getLast?_trimChars hlast) (by decide)

namespace Scope

variable (scope : Scope) {name : String} {v : Value}

theorem path_eq_parts (path : String) :
    scope.path path = scope.parts (Text.dottedParts (withoutInput path)) := by
  unfold Scope.path
  dsimp only
  split
  · rename_i hblank
    rw [Text.dottedParts_blank hblank, parts]
    all_goals simp
  · rfl

theorem path_nex (p : String) :
    scope.path ("nex." ++ p) = (Value.object scope.context.nex).at? p := by
  have hinput : withoutInput ("nex." ++ p) = "nex." ++ p := by simp [withoutInput, Text.startsWith]
  have hparts : Text.dottedParts ("nex." ++ p) = "nex" :: Text.dottedParts p :=
    Text.dottedParts_append "nex" p
  obtain ⟨first, rest, hrest⟩ : ∃ first rest, Text.dottedParts p = first :: rest :=
    List.exists_cons_of_ne_nil (by simp [Text.dottedParts, Text.splitAt_ne_nil])
  rw [path_eq_parts, hinput, hparts, Value.at?_eq_follow, hrest]
  rfl

/-- A path behind another one is looked up in what this one leads to, with the same fault if there is
one, and so is the rest of a reference to the saved outputs. -/
theorem lookup_composes (p q : String) :
    (∀ root : Value, root.at? (p ++ "." ++ q) = root.at? p >>= fun v => v.at? q) ∧
    ∀ scope : Scope,
      scope.path ("nex." ++ p ++ "." ++ q) = scope.path ("nex." ++ p) >>= fun v => v.at? q := by
  refine ⟨fun root => root.at?_append p q, fun scope => ?_⟩
  have hbehind : "nex." ++ p ++ "." ++ q = "nex." ++ (p ++ "." ++ q) := by
    simp only [String.append_assoc]
  rw [hbehind, path_nex, path_nex, Value.at?_append]

theorem path_saved (hn : Text.IsIdentifier name) (hv : scope.context.nex.get? name = some v) :
    scope.path ("nex." ++ name) = .ok v := by
  have hparts : Text.dottedParts name = [name] :=
    Text.dottedParts_eq_singleton fun hm => (hn.visible '.' hm).2 rfl
  have hname : name.isEmpty = false := by
    simpa [String.isEmpty_iff, ← String.toList_eq_nil_iff] using hn.ne_nil
  rw [path_nex, Value.at?_eq_follow, hparts]
  simp [Value.follow, Value.stepInto, hn.trim, hname, hv, Value.ofOption, bind, Except.bind]

/-- A setting that is nothing but a reference to a saved output has its value, unless that is
null. -/
theorem settings_saved (key : String) (hn : Text.IsIdentifier name)
    (hv : scope.context.nex.get? name = some v) :
    scope.settings [(key, .text ("\x7b\x7bnex." ++ name ++ "\x7d\x7d"))] =
      .ok [(key, settingValue v)] := by
  have hfront : ∀ c ∈ "nex.".toList, Text.isBlank c = false := Text.visible_of_all (by decide)
  have hspaceless : Text.Spaceless ("nex." ++ name).toList := by
    refine ⟨by simp, fun c hc => ?_⟩
    rw [String.toList_append, List.mem_append] at hc
    exact hc.elim (hfront c) fun hc => (hn.visible c hc).1
  have hbraced : "\x7b\x7bnex." ++ name = "\x7b\x7b" ++ ("nex." ++ name) := by
    rw [← String.append_assoc]
    rfl
  rw [hbraced, scope.settings_spaceless key hspaceless, scope.path_saved hn hv]
  rfl

end Scope

end FlowEngine
