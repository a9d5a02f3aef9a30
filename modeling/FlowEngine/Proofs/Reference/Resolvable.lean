import FlowEngine.Proofs.Data.Path
import FlowEngine.Proofs.Expression.Operands
import FlowEngine.Proofs.Reference.Saved

/-!
# References that resolve

Resolving ends in a fault in two ways only. A path has more digits at a place of a list than an
integer is read from, or arithmetic meets an integer that no double is near to. All that is missing
gives null, which is nothing in text, and so does arithmetic on what stands for no number.
-/

namespace FlowEngine

/-- The faults of reading an integer, as a double or from digits. -/
inductive Fault.OfSize : Fault → Prop where
  | integer : OfSize .integerTooLarge
  | digits {count} (h : digitLimit < count) : OfSize (.tooManyDigits count)

namespace Scope

open Template

variable {scope : Scope} {p key : String} {names rest : List String} {body : List Char}
  {fault : Fault} {v : Value}

/-- A path below the saved outputs that names a place of a list by too many digits. -/
def Overlong (scope : Scope) (p : String) (count : Nat) : Prop :=
  ∃ segments, Text.dottedParts (withoutInput p) = "nex" :: segments ∧
    (Value.object scope.context.nex).Overlong segments count

def Followable (scope : Scope) (p : String) : Prop := ∀ count, ¬ scope.Overlong p count

/-- Both paths of an expression can be followed, and what is computed with has a double. -/
structure Computable (scope : Scope) (op : Operator) (left right : String) : Prop where
  followable_left : scope.Followable left
  followable_right : scope.Followable right
  near : ∀ a b, scope.path left = .ok a → scope.path right = .ok b →
    Value.Computes op a b → a.NearDouble ∧ b.NearDouble

def Resolvable (scope : Scope) (body : List Char) : Prop :=
  match splitOperator (Text.trimChars body) Operator.all with
  | some (left, op, right) => scope.Computable op left right
  | none => scope.Followable (String.ofList (Text.trimChars body))

def TemplateResolvable (scope : Scope) (template : String) : Prop :=
  ∀ body, .reference body ∈ pieces template.toList → scope.Resolvable body

/-- A setting that is taken for one reference resolves as that, and any other text as a template. -/
def SettingResolvable (scope : Scope) (v : Value) : Prop :=
  ∀ s, v = .text s →
    match soleReference? s with
    | some body => scope.Resolvable body
    | none => scope.TemplateResolvable s

theorem parts_eq_error_iff : scope.parts names = .error fault ↔
    ∃ segments count, names = "nex" :: segments ∧
      (Value.object scope.context.nex).Overlong segments count ∧ fault = .tooManyDigits count := by
  constructor
  · intro h
    unfold parts at h
    split at h
    · obtain ⟨count, hc, hf⟩ := Value.follow_eq_error_iff.mp h
      exact ⟨_, count, rfl, hc, hf⟩
    · split at h <;> cases h
    all_goals cases h
  · rintro ⟨segments, count, rfl, hc, hf⟩
    cases segments with
    | nil => exact absurd hc Value.overlong_nil
    | cons segment segments => exact Value.follow_eq_error_iff.mpr ⟨count, hc, hf⟩

theorem path_eq_error_iff : scope.path p = .error fault ↔
    ∃ count, scope.Overlong p count ∧ fault = .tooManyDigits count := by
  rw [path_eq_parts, parts_eq_error_iff]
  constructor
  · rintro ⟨segments, count, hsplit, hc, hf⟩
    exact ⟨count, ⟨segments, hsplit, hc⟩, hf⟩
  · rintro ⟨count, ⟨segments, hsplit, hc⟩, hf⟩
    exact ⟨segments, count, hsplit, hc, hf⟩

theorem Overlong.exceeds {count : Nat} (h : scope.Overlong p count) : digitLimit < count := by
  obtain ⟨_, -, _, _, _, _, _, -, -, -, -, hlimit⟩ := h
  exact hlimit

/-- A result that is there exactly when a condition holds; without it, a size is at fault. -/
def Hinges {α : Type} (condition : Prop) (result : Except Fault α) : Prop :=
  condition ∧ (∃ a, result = .ok a) ∨ ¬ condition ∧ ∃ fault, result = .error fault ∧ fault.OfSize

section Hinges

variable {α β : Type} {condition condition' : Prop} {result : Except Fault α}

theorem Hinges.iff (h : Hinges condition result) : condition ↔ ∃ a, result = .ok a := by
  rcases h with ⟨hc, ha⟩ | ⟨hc, fault, hf, -⟩
  · exact iff_of_true hc ha
  · apply iff_of_false hc
    rintro ⟨a, ha⟩
    rw [hf] at ha
    cases ha

theorem Hinges.ofSize (h : Hinges condition result) (hf : result = .error fault) :
    fault.OfSize := by
  rcases h with ⟨-, a, ha⟩ | ⟨-, other, ho, hsize⟩
  · rw [ha] at hf
    cases hf
  · rw [ho] at hf
    cases hf
    exact hsize

theorem Hinges.map (h : Hinges condition result) (f : α → β) : Hinges condition (result.map f) := by
  rcases h with ⟨hc, a, rfl⟩ | ⟨hc, fault, rfl, hsize⟩
  · exact Or.inl ⟨hc, f a, rfl⟩
  · exact Or.inr ⟨hc, fault, rfl, hsize⟩

theorem Hinges.bind {next : α → Except Fault β} (h : Hinges condition result)
    (hn : ∀ a, result = .ok a → Hinges condition' (next a)) :
    Hinges (condition ∧ condition') (result >>= next) := by
  rcases h with ⟨hc, a, rfl⟩ | ⟨hc, fault, rfl, hsize⟩
  · rcases hn a rfl with ⟨hc', hb⟩ | ⟨hc', hb⟩
    · exact Or.inl ⟨⟨hc, hc'⟩, hb⟩
    · exact Or.inr ⟨fun hboth => hc' hboth.2, hb⟩
  · exact Or.inr ⟨fun hboth => hc hboth.1, fault, rfl, hsize⟩

theorem Hinges.congr (h : Hinges condition result) (hc : condition ↔ condition') :
    Hinges condition' result := by
  rw [Hinges, ← hc]
  exact h

theorem hinges_ok (a : α) : Hinges True (.ok a : Except Fault α) := Or.inl ⟨trivial, a, rfl⟩

end Hinges

theorem hinges_path (scope : Scope) (p : String) : Hinges (scope.Followable p) (scope.path p) := by
  cases h : scope.path p with
  | ok v =>
    refine Or.inl ⟨fun count hc => ?_, v, rfl⟩
    rw [path_eq_error_iff.mpr ⟨count, hc, rfl⟩] at h
    cases h
  | error fault =>
    obtain ⟨count, hc, rfl⟩ := path_eq_error_iff.mp h
    exact Or.inr ⟨fun hall => hall count hc, _, rfl, .digits hc.exceeds⟩

def unbraced (p : String) : String :=
  match bracedBody? p.toList with
  | some body => String.ofList (Text.trimChars body)
  | none => p

theorem path_blank (h : Text.isBlankText p = true) : scope.path p = .ok .null := by
  have hinput : withoutInput p = p := by
    apply if_neg
    intro hs
    have hfront : "input.".toList <+: p.toList := List.isPrefixOf_iff_prefix.mp hs
    have hblank : Text.isBlank 'i' = true :=
      List.all_eq_true.mp h 'i' (hfront.subset List.mem_cons_self)
    exact absurd hblank (by decide)
  rw [path, hinput, h]
  rfl

theorem object_eq_path (scope : Scope) (p : String) : scope.object p = scope.path (unbraced p) := by
  have hobject : scope.object p =
      if Text.isBlankText (unbraced p) then .ok .null else scope.path (unbraced p) := rfl
  rw [hobject]
  split
  · rename_i hblank
    exact (path_blank hblank).symm
  · rfl

theorem hinges_evaluate (op : Operator) (a b : Value) :
    Hinges (Value.Computes op a b → a.NearDouble ∧ b.NearDouble) (Value.evaluate op a b) := by
  rcases Value.evaluate_cases op a b with ⟨hc, hv⟩ | ⟨hc, hf⟩
  · exact Or.inl ⟨hc, hv⟩
  · exact Or.inr ⟨hc, _, hf, .integer⟩

theorem hinges_reference (scope : Scope) (body : List Char) :
    Hinges (scope.Resolvable body) (scope.reference body) := by
  unfold Resolvable reference expression
  rw [String.toList_ofList]
  cases splitOperator (Text.trimChars body) Operator.all with
  | none => exact scope.hinges_path _
  | some operands =>
    obtain ⟨left, op, right⟩ := operands
    have hleft := scope.hinges_path left
    have hright := scope.hinges_path right
    -- The condition on the operands is about the values that the two paths lead to.
    have hnear (a b : Value) (ha : scope.path left = .ok a) (hb : scope.path right = .ok b) :
        Hinges (∀ a b, scope.path left = .ok a → scope.path right = .ok b →
          Value.Computes op a b → a.NearDouble ∧ b.NearDouble) (Value.evaluate op a b) := by
      refine (hinges_evaluate op a b).congr ⟨?_, fun h => h a b ha hb⟩
      intro h a' b' ha' hb'
      rw [ha] at ha'
      rw [hb] at hb'
      cases ha'
      cases hb'
      exact h
    refine (hleft.bind fun a ha => hright.bind fun b hb => hnear a b ha hb).congr ?_
    exact ⟨fun h => ⟨h.1, h.2.1, h.2.2⟩, fun h => ⟨h.followable_left, h.followable_right, h.near⟩⟩

theorem hinges_pieces (scope : Scope) (found : List Piece) :
    Hinges (∀ body, .reference body ∈ found → scope.Resolvable body)
      (scope.piecesText found) := by
  induction found with
  | nil => exact (hinges_ok _).congr (by simp)
  | cons p found ih =>
    cases p with
    | char c =>
      refine (((hinges_ok [c]).bind fun head _ => ih.bind fun tail _ =>
        hinges_ok (head ++ tail))).congr ?_
      simp
    | reference body =>
      refine ((((scope.hinges_reference body).map fun v => v.inline.toList).bind fun head _ =>
        ih.bind fun tail _ => hinges_ok (head ++ tail))).congr ?_
      simp [forall_eq_or_imp]

theorem hinges_resolve (scope : Scope) (template : String) :
    Hinges (scope.TemplateResolvable template) (scope.resolve template) :=
  (scope.hinges_pieces _).map _

theorem hinges_setting (scope : Scope) (v : Value) :
    Hinges (scope.SettingResolvable v) (scope.setting v) := by
  cases v with
  | text s =>
    have hset : scope.SettingResolvable (.text s) ↔
        match soleReference? s with
        | some body => scope.Resolvable body
        | none => scope.TemplateResolvable s := by
      simp [SettingResolvable]
    refine Hinges.congr ?_ hset.symm
    dsimp only [setting]
    cases soleReference? s with
    | some body => exact (scope.hinges_reference body).map _
    | none => exact (scope.hinges_resolve s).map _
  | _ => exact (hinges_ok _).congr (by simp [SettingResolvable])

theorem hinges_settings (scope : Scope) (settings : Entries Value) :
    Hinges (∀ entry ∈ settings, scope.SettingResolvable entry.2) (scope.settings settings) := by
  induction settings with
  | nil => exact (hinges_ok _).congr (by simp)
  | cons entry rest ih =>
    obtain ⟨key, v⟩ := entry
    refine ((scope.hinges_setting v).bind fun w _ => ih.bind fun others _ =>
      hinges_ok ((key, w) :: others)).congr ?_
    simp

/-- The shapes of paths that are looked up at all. -/
def IsLookedUp : List String → Prop
  | "nex" :: _ :: _ => True
  | "loop" :: _ :: _ => True
  | ["variables", _] => True
  | ["meta", _] => True
  | "nodes" :: _ :: _ :: _ => True
  | _ => False

inductive Missing (scope : Scope) : List String → Prop where
  | unset {name} (h : scope.context.vars.get? name = none) : Missing scope ["variables", name]
  | node {key part keys} (h : (nodeKey? scope.context key).bind scope.context.outcome? = none) :
      Missing scope ("nodes" :: key :: part :: keys)
  | output {key part front name back outcome}
      (ho : (nodeKey? scope.context key).bind scope.context.outcome? = some outcome)
      (hn : (descend (Outcome.optionalObject (outcome.outputNamed part)) front).field? name =
        none) : Missing scope ("nodes" :: key :: part :: (front ++ name :: back))
  | saved {front segment back v} (hv : Value.follow (.object scope.context.nex) front = .ok v)
      (hs : v.Lacks segment) : Missing scope ("nex" :: (front ++ segment :: back))
  | loop {field rest} (h : scope.loop = none) : Missing scope ("loop" :: field :: rest)
  | field {field rest} (h : field ≠ "index" ∧ field ≠ "accumulated") :
      Missing scope ("loop" :: field :: rest)
  | about {field} (h : field ≠ "flowId" ∧ field ≠ "executionId" ∧ field ≠ "startedAt") :
      Missing scope ["meta", field]
  | astray {other : List String} (h : ¬ IsLookedUp other) : Missing scope other

theorem descend_null (keys : List String) : descend .null keys = .null := by
  induction keys with
  | nil => rfl
  | cons key keys ih => exact ih

theorem Missing.parts (h : scope.Missing names) : scope.parts names = .ok .null := by
  cases h with
  | unset h => simp [Scope.parts, h, Value.ofOption]
  | node h => simp [Scope.parts, nodePath, h]
  | output ho hn =>
    rename_i front name back outcome
    simp only [Scope.parts, nodePath, ho]
    have hnull := descend_null back
    unfold descend at hn hnull ⊢
    rw [List.foldl_append, List.foldl_cons, hn]
    exact congrArg Except.ok hnull
  | saved hv hs =>
    rename_i front segment back v
    have hfollow : Value.follow (.object scope.context.nex) (front ++ segment :: back) =
        .ok .null := by
      rw [Value.follow_append, hv]
      exact hs.follow back
    cases front with
    | nil => exact hfollow
    | cons head front => exact hfollow
  | loop h => simp [Scope.parts, h]
  | field h =>
    cases hl : scope.loop with
    | none => simp [Scope.parts, hl]
    | some state => simp [Scope.parts, hl, loopField, h]
  | about h => simp [Scope.parts, metaField, h]
  | astray h =>
    unfold Scope.parts
    split
    · exact absurd trivial h
    · exact absurd trivial h
    · exact absurd trivial h
    · exact absurd trivial h
    · exact absurd trivial h
    · rfl

/-- A path to something missing, or arithmetic on something that stands for no number. -/
inductive Idle (scope : Scope) (body : List Char) : Prop where
  | missing (hs : splitOperator (Text.trimChars body) Operator.all = none)
      (hm : scope.Missing (Text.dottedParts (withoutInput (String.ofList (Text.trimChars body)))))
  | uncounted {left op right a b}
      (hs : splitOperator (Text.trimChars body) Operator.all = some (left, op, right))
      (hop : op ≠ .plus) (ha : scope.path left = .ok a) (hb : scope.path right = .ok b)
      (hna : a.NearDouble) (hnb : b.NearDouble) (hu : a.IsUncounted ∨ b.IsUncounted)

theorem path_missing (h : scope.Missing (Text.dottedParts (withoutInput p))) :
    scope.path p = .ok .null := by
  rw [path_eq_parts]
  exact h.parts

theorem Idle.reference (h : scope.Idle body) :
    ∃ v, scope.reference body = .ok v ∧ settingValue v = .text "" := by
  cases h with
  | missing hs hm =>
    refine ⟨.null, ?_, rfl⟩
    rw [Scope.reference, expression, String.toList_ofList, hs]
    exact path_missing hm
  | uncounted hs hop ha hb hna hnb hu =>
    refine ⟨.text "", ?_, rfl⟩
    rw [Scope.reference, expression, String.toList_ofList, hs]
    dsimp only
    rw [ha, hb]
    exact Value.evaluate_uncounted hop hna hnb hu

theorem Idle.inline (h : scope.Idle body) :
    ∃ v, scope.reference body = .ok v ∧ settingValue v = .text "" ∧ v.inline = "" := by
  obtain ⟨v, hv, hempty⟩ := h.reference
  refine ⟨v, hv, hempty, ?_⟩
  rw [← inline_settingValue, hempty]
  rfl

/-- Wherever it stands in a text, it adds nothing to it. -/
theorem Idle.piecesText (h : scope.Idle body) (front back : List Piece) :
    scope.piecesText (front ++ .reference body :: back) = scope.piecesText (front ++ back) := by
  obtain ⟨v, hv, -, hinline⟩ := h.inline
  induction front with
  | nil =>
    have hpiece : scope.piece (.reference body) = .ok [] := by
      rw [piece, hv]
      exact congrArg (fun s => Except.ok (String.toList s)) hinline
    rw [List.nil_append, List.nil_append, Scope.piecesText, hpiece]
    cases scope.piecesText back <;> rfl
  | cons p front ih =>
    rw [List.cons_append, List.cons_append, Scope.piecesText, Scope.piecesText, ih]

theorem Idle.setting {s : String} (h : scope.Idle body) (hs : soleReference? s = some body) :
    scope.setting (.text s) = .ok (.text "") := by
  obtain ⟨v, hv, hempty, -⟩ := h.inline
  rw [Scope.setting, hs]
  dsimp only
  rw [hv]
  exact congrArg Except.ok hempty

theorem getElem?_settings {settings resolved : Entries Value} {place : Nat}
    (h : scope.settings settings = .ok resolved) (hv : settings[place]? = some (key, v)) :
    ∃ w, scope.setting v = .ok w ∧ resolved[place]? = some (key, w) := by
  induction settings generalizing resolved place with
  | nil => cases hv
  | cons entry rest ih =>
    obtain ⟨first, value⟩ := entry
    rw [Scope.settings] at h
    cases hw : scope.setting value with
    | error fault =>
      rw [hw] at h
      cases h
    | ok w =>
      cases hothers : scope.settings rest with
      | error fault =>
        rw [hw, hothers] at h
        cases h
      | ok others =>
        rw [hw, hothers] at h
        cases h
        cases place with
        | zero =>
          cases hv
          exact ⟨w, hw, rfl⟩
        | succ place =>
          obtain ⟨found, hfound, hplace⟩ := ih hothers hv
          exact ⟨found, hfound, hplace⟩

/-- Each of the four ways to resolve has a result exactly where no path is too long in the digits of
a place and no integer beyond all doubles is computed with, and otherwise a fault of size. What is
missing is null, and nothing in text, and so is arithmetic on what stands for no number. -/
theorem resolver_returns (scope : Scope) :
    (∀ p, (scope.Followable p ↔ ∃ v, scope.path p = .ok v) ∧
      (scope.Followable (unbraced p) ↔ ∃ v, scope.object p = .ok v)) ∧
    (∀ template, scope.TemplateResolvable template ↔
      ∃ text, scope.resolve template = .ok text) ∧
    (∀ settings, (∀ entry ∈ settings, scope.SettingResolvable entry.2) ↔
      ∃ resolved, scope.settings settings = .ok resolved) ∧
    (∀ fault, (∃ p, scope.path p = .error fault ∨ scope.object p = .error fault) ∨
      (∃ template, scope.resolve template = .error fault) ∨
      (∃ settings, scope.settings settings = .error fault) → fault.OfSize) ∧
    (∀ p, (scope.Missing (Text.dottedParts (withoutInput p)) → scope.path p = .ok .null) ∧
      (scope.Missing (Text.dottedParts (withoutInput (unbraced p))) →
        scope.object p = .ok .null)) ∧
    (∀ template front body back, pieces template.toList = front ++ .reference body :: back →
      scope.Idle body →
        scope.resolve template = (scope.piecesText (front ++ back)).map String.ofList) ∧
    (∀ settings resolved, scope.settings settings = .ok resolved →
      ∀ (place : Nat) key s body, settings[place]? = some (key, .text s) →
        soleReference? s = some body → scope.Idle body →
          resolved[place]? = some (key, .text "")) := by
  refine ⟨?_, ?_, ?_, ?_, ?_, ?_, ?_⟩
  · intro p
    rw [object_eq_path]
    exact ⟨(scope.hinges_path p).iff, (scope.hinges_path _).iff⟩
  · intro template
    exact (scope.hinges_resolve template).iff
  · intro settings
    exact (scope.hinges_settings settings).iff
  · rintro fault (⟨p, h | h⟩ | ⟨template, h⟩ | ⟨settings, h⟩)
    · exact (scope.hinges_path p).ofSize h
    · rw [object_eq_path] at h
      exact (scope.hinges_path _).ofSize h
    · exact (scope.hinges_resolve template).ofSize h
    · exact (scope.hinges_settings settings).ofSize h
  · intro p
    rw [object_eq_path]
    exact ⟨path_missing, path_missing⟩
  · intro template front body back hp hi
    rw [resolve, hp, hi.piecesText]
  · intro settings resolved h place key s body hentry hs hi
    obtain ⟨w, hw, hplace⟩ := getElem?_settings h hentry
    rw [hi.setting hs] at hw
    rw [hplace, ← Except.ok.inj hw]

end Scope

namespace Oversize

open Template

def scope (power : Nat) : Scope where
  context := { Context.create "f" "e" ⟨0, 0, 0, 0, 0, 0, 0, none⟩ with
    vars := [("n", .int (10 ^ power : Nat))]
    nex := [("l", .list [.int 1])] }
  loop := none

def difference : String := "\x7b\x7bvariables.n - variables.missing\x7d\x7d"

def place (count : Nat) : String := "nex.l." ++ String.ofList (List.replicate count '1')

theorem digits?_ones (count : Nat) :
    Text.digits? (List.replicate count '1') = some (List.replicate count 1) := by
  induction count with
  | zero => rfl
  | succ count ih =>
    rw [Text.digits?] at ih ⊢
    rw [List.replicate_succ, List.mapM_cons, ih]
    rfl

theorem overlong_place {power count : Nat} (h : digitLimit < count) :
    (scope power).Overlong (place count) count := by
  have hchars : (place count).toList =
      'n' :: 'e' :: 'x' :: '.' :: 'l' :: '.' :: List.replicate count '1' := by
    simp [place]
  have hinput : Scope.withoutInput (place count) = place count := by
    simp [Scope.withoutInput, Text.startsWith, hchars]
  have hdot : '.' ∉ List.replicate count '1' := by simp
  have hparts : Text.dottedParts (place count) =
      ["nex", "l", String.ofList (List.replicate count '1')] := by
    rw [Text.dottedParts, hchars]
    simp [Text.splitAt, Text.splitAt_eq_singleton hdot]
  have hvisible : ∀ c ∈ List.replicate count '1', Text.isBlank c = false := by
    intro c hc
    rw [List.eq_of_mem_replicate hc]
    rfl
  have htrim : Text.trim (String.ofList (List.replicate count '1')) =
      String.ofList (List.replicate count '1') := by
    rw [Text.trim, String.toList_ofList, Text.trimChars_eq_self
      (fun c hc => hvisible c (List.mem_of_head? hc))
      fun c hc => hvisible c (List.mem_of_getLast? hc)]
  refine ⟨["l", String.ofList (List.replicate count '1')], ?_, ["l"],
    String.ofList (List.replicate count '1'), [], [.int 1], List.replicate count 1, rfl, rfl, ?_,
    List.length_replicate, h⟩
  · rw [hinput, hparts]
  · rw [htrim, String.toList_ofList]
    exact digits?_ones count

theorem natAbs_lt_of_mem_vars {power : Nat} (h : power < digitLimit) :
    ∀ entry ∈ (scope power).context.vars, ∀ n, entry.2 = .int n → n.natAbs < 10 ^ digitLimit := by
  intro entry he n hn
  rw [List.mem_singleton.mp he] at hn
  rw [← Value.int.inj hn, Int.natAbs_natCast]
  exact Nat.pow_lt_pow_right (by decide) h

/-- Values without so many digits as are no longer read do not make all references resolve. -/
theorem large_values_unresolved :
    (¬ ∀ (scope : Scope) (template : String),
      (∀ entry ∈ scope.context.vars, ∀ n, entry.2 = .int n → n.natAbs < 10 ^ digitLimit) →
      ∃ text, scope.resolve template = .ok text) ∧
    ¬ ∀ (scope : Scope) (p : String), ∃ v, scope.path p = .ok v := by
  constructor
  · intro hall
    have hfault : (scope 400).resolve difference = .error .integerTooLarge := by decide +kernel
    have hpower : 400 < digitLimit := by decide
    obtain ⟨text, ht⟩ := hall (scope 400) difference (natAbs_lt_of_mem_vars hpower)
    rw [hfault] at ht
    cases ht
  · intro hall
    have hlong : digitLimit < 4301 := by decide
    obtain ⟨v, hv⟩ := hall (scope 0) (place 4301)
    rw [Scope.path_eq_error_iff.mpr ⟨4301, overlong_place hlong, rfl⟩] at hv
    cases hv

/-- With a double near to the variable, the same difference is computed. -/
example : (scope 300).resolve difference = .ok "" := by decide +kernel

def absent : List Char := "variables.other".toList

theorem idle_absent (power : Nat) : (scope power).Idle absent :=
  have hparts : Text.dottedParts (Scope.withoutInput (String.ofList (Text.trimChars absent))) =
      ["variables", "other"] := by decide
  .missing (by decide) (hparts ▸ .unset rfl)

/-- A missing variable is nothing in text, whatever the others hold. -/
theorem resolver_returns_absent :
    (scope 400).Idle absent ∧ IsBody absent ∧
      (scope 400).resolve (String.ofList (braced absent)) = .ok "" := by
  have hbody : IsBody absent := ⟨by decide, by decide⟩
  have hpieces : pieces (String.ofList (braced absent)).toList = [] ++ .reference absent :: [] := by
    rw [String.toList_ofList, ← List.append_nil (braced absent), pieces_braced hbody, pieces]
    rfl
  obtain ⟨-, -, -, -, -, htexts, -⟩ := Scope.resolver_returns (scope 400)
  exact ⟨idle_absent 400, hbody, htexts _ [] absent [] hpieces (idle_absent 400)⟩

end Oversize

end FlowEngine
