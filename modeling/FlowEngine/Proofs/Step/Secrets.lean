import FlowEngine.Proofs.Data.Path
import FlowEngine.Proofs.Reference.Resolvable
import FlowEngine.Proofs.Text.Pieces
import FlowEngine.Step.AskModel

/-!
# Secrets and bindings

The check of a binding looks for a forbidden path in the path as it is written. What is read is the
path without the word `input`, without double braces and without white space around its segments. All
but the last only cut pieces off, so the check sees what is read, unless white space stands in front
of the key.
-/

namespace FlowEngine

namespace Prompt

def secretKeys : List String :=
  ["dbPassword", "password", "apiKey", "authToken", "secret", "credentials"]

def isSecret (key : String) : Bool := secretKeys.any fun secret => Text.lower key == Text.lower secret

theorem forbiddenPaths_eq : forbiddenPaths = secretKeys.map ("nex." ++ ·) := by decide

theorem isForbidden_of_piece {path key : String} (hs : isSecret key = true)
    (h : ("nex." ++ key).toList <:+: path.toList) : isForbidden path = true := by
  simp only [isSecret, List.any_eq_true, beq_iff_eq] at hs
  obtain ⟨secret, hm, hsecret⟩ := hs
  simp only [isForbidden, List.any_eq_true]
  refine ⟨"nex." ++ secret, ?_, ?_⟩
  · rw [forbiddenPaths_eq]
    exact List.mem_map_of_mem hm
  · apply Text.containsText_of_piece
    have hlower := Text.lower_piece h
    rw [Text.toList_lower_append, hsecret, ← Text.toList_lower_append] at hlower
    exact hlower

end Prompt

namespace Scope

/-- The path that is read for the path of a binding. -/
def pathRead (path : String) : String := withoutInput (unbraced (Prompt.plainPath path))

theorem bracedBody?_piece {s body : List Char} (h : bracedBody? s = some body) : body <:+: s := by
  rw [bracedBody?] at h
  split at h
  · rename_i before rest hopen
    obtain ⟨⟨front, back⟩, hclose, rfl⟩ := Option.map_eq_some_iff.mp h
    rw [Text.eq_of_splitFirst? hopen, Text.eq_of_splitFirst? hclose, List.append_assoc front]
    exact List.infix_append' _ _ _
  · cases h

theorem unbraced_piece (path : String) : (unbraced path).toList <:+: path.toList := by
  rw [unbraced]
  split
  · rename_i body hbody
    rw [String.toList_ofList]
    exact (Text.trimChars_piece body).trans (bracedBody?_piece hbody)
  · exact List.infix_rfl

theorem withoutInput_piece (path : String) : (withoutInput path).toList <:+: path.toList := by
  rw [withoutInput]
  split
  · exact (Text.trim_piece _).trans (Text.dropFront_piece _ _)
  · exact List.infix_rfl

/-- What is read of a path is a piece of it. -/
theorem pathRead_piece (path : String) : (pathRead path).toList <:+: path.toList :=
  (withoutInput_piece _).trans ((unbraced_piece _).trans
    ((Text.trim_piece _).trans (Text.dropFront_piece _ _)))

/-- Whether the parts of a path lead to a secret with white space in front of the key. -/
def slip : List String → Bool
  | "nex" :: part :: _ => Prompt.isSecret (Text.trim part) && part.toList.head?.any Text.isBlank
  | _ => false

def slipsBy (path : String) : Bool := slip (Text.dottedParts (pathRead path))

theorem nex_part_piece {path part : String} {rest : List String}
    (h : Text.dottedParts (pathRead path) = "nex" :: part :: rest) :
    ("nex." ++ part).toList <:+: path.toList := by
  rw [Text.dottedParts, List.map_eq_cons_iff] at h
  obtain ⟨first, parts, hsplit, hfirst, hparts⟩ := h
  obtain ⟨second, parts, rfl, hsecond, -⟩ := List.map_eq_cons_iff.mp hparts
  have hprefix := Text.splitAt_front_two hsplit
  have hnex : first = "nex".toList := by rw [← hfirst, String.toList_ofList]
  have hpart : second = part.toList := by rw [← hsecond, String.toList_ofList]
  rw [hnex, hpart] at hprefix
  rw [String.toList_append]
  exact hprefix.isInfix.trans (pathRead_piece path)

theorem isSecret_eq_false {path part : String} {rest : List String}
    (hpass : Prompt.isForbidden path = false) (hslip : slipsBy path = false)
    (h : Text.dottedParts (pathRead path) = "nex" :: part :: rest) :
    Prompt.isSecret (Text.trim part) = false := by
  rw [← Bool.not_eq_true]
  intro hsecret
  have hfront : Text.trimFront part.toList = part.toList := by
    cases hchars : part.toList with
    | nil => rfl
    | cons c chars =>
      have hsplit : (Prompt.isSecret (Text.trim part) && part.toList.head?.any Text.isBlank) = false := by
        rw [slipsBy, h, slip] at hslip
        exact hslip
      rw [hsecret, Bool.true_and, hchars, List.head?_cons, Option.any_some] at hsplit
      rw [Text.trimFront, List.dropWhile_cons_of_neg (by simp [hsplit])]
  have hkey : (Text.trim part).toList <+: part.toList := by
    rw [Text.trim, String.toList_ofList, Text.trimChars, hfront]
    exact Text.trimBack_front _
  have hpiece : ("nex." ++ Text.trim part).toList <:+: ("nex." ++ part).toList := by
    rw [String.toList_append, String.toList_append]
    exact ((List.prefix_append_right_inj _).mpr hkey).isInfix
  have hforbidden := Prompt.isForbidden_of_piece hsecret (hpiece.trans (nex_part_piece h))
  rw [hpass] at hforbidden
  cases hforbidden

end Scope

/-- Two contexts that differ in nothing but what they have saved under the keys of secrets. -/
structure Context.SameButSecrets (context other : Context) : Prop where
  rest : other = { context with nex := other.nex }
  nex : ∀ key, Prompt.isSecret key = false → context.nex.get? key = other.nex.get? key

namespace Scope

variable {context other : Context} {loop : Option LoopState} {path : String}

theorem parts_same (h : context.SameButSecrets other) {segments : List String}
    (hkey : ∀ part rest, segments = "nex" :: part :: rest → Prompt.isSecret (Text.trim part) = false) :
    parts ⟨context, loop⟩ segments = parts ⟨other, loop⟩ segments := by
  obtain ⟨hrest, hnex⟩ := h
  generalize other.nex = nex at hrest hnex
  subst hrest
  unfold parts
  split
  · rename_i part rest
    have hstep : Value.stepInto (.object context.nex) part = Value.stepInto (.object nex) part := by
      unfold Value.stepInto
      dsimp only
      rw [hnex _ (hkey part rest rfl)]
    rw [Value.follow_cons, Value.follow_cons, hstep]
  · rfl
  · rfl
  · rfl
  · rfl
  · rfl

theorem object_plainPath (scope : Scope) (path : String) :
    scope.object (Prompt.plainPath path) = scope.parts (Text.dottedParts (pathRead path)) := by
  rw [object_eq_path, path_eq_parts]
  rfl

theorem object_same (h : context.SameButSecrets other) (hpass : Prompt.isForbidden path = false)
    (hslip : slipsBy path = false) :
    object ⟨context, loop⟩ (Prompt.plainPath path) = object ⟨other, loop⟩ (Prompt.plainPath path) := by
  rw [object_plainPath, object_plainPath]
  exact parts_same h fun part rest => isSecret_eq_false hpass hslip

/-- A path that slips by the check reads what is saved under the key of a secret. -/
theorem object_of_slipsBy (h : slipsBy path = true) :
    ∃ key rest, Prompt.isSecret key = true ∧ ∀ scope : Scope,
      scope.object (Prompt.plainPath path) =
        Value.follow (Value.ofOption (scope.context.nex.get? key)) rest := by
  unfold slipsBy slip at h
  split at h
  · rename_i part rest hparts
    rw [Bool.and_eq_true] at h
    refine ⟨Text.trim part, rest, h.1, ?_⟩
    intro scope
    have hkey : ¬ (Text.trim part).isEmpty = true := by
      intro hempty
      rw [String.isEmpty_iff.mp hempty] at h
      exact absurd h.1 (by decide)
    have hstep : Value.stepInto (.object scope.context.nex) part =
        .ok (Value.ofOption (scope.context.nex.get? (Text.trim part))) := by
      unfold Value.stepInto
      dsimp only
      rw [if_neg hkey]
    rw [object_plainPath, hparts, parts, Value.follow_cons, hstep]
    rfl
  · cases h

end Scope

namespace Step.AskModel

variable {context other : Context} {settings : Settings} {node : Node} {scene scene' : Scene}

theorem boundValues_same (h : context.SameButSecrets other) {bs : List (Except Fault Binding)}
    (hslip : ∀ b, .ok b ∈ bs → Prompt.isForbidden b.path = false → Scope.slipsBy b.path = false)
    (inputs : Entries Value) :
    boundValues ⟨context, none⟩ inputs bs = boundValues ⟨other, none⟩ inputs bs := by
  induction bs generalizing inputs with
  | nil => rfl
  | cons entry rest ih =>
    cases entry with
    | error fault => rfl
    | ok b =>
      by_cases hpass : Prompt.isForbidden b.path = true
      · rw [boundValues, boundValues, if_pos hpass, if_pos hpass]
      · have hpass' : Prompt.isForbidden b.path = false := Bool.eq_false_iff.mpr hpass
        have hread : Scope.object ⟨context, none⟩ (Prompt.plainPath b.path) =
            Scope.object ⟨other, none⟩ (Prompt.plainPath b.path) :=
          Scope.object_same h hpass' (hslip b List.mem_cons_self hpass')
        have hrest := ih fun b hb => hslip b (List.mem_cons_of_mem _ hb)
        rw [boundValues, boundValues, if_neg hpass, if_neg hpass, hread]
        simp only [hrest]

/-- How the executor goes on once it has read what a node binds. -/
inductive Reading where
  | faulty (fault : Fault)
  | refused (error : String)
  | forbidden (name : String)
  | bound (prompt : String) (provider : Provider) (credentials : Credentials) (inputs : Entries Value)

namespace Reading

def forbiddenText (name : String) : String :=
  "AI node input binding '" ++ name ++
    "' references a forbidden path. Credentials cannot be passed to AI nodes."

def work (settings : Settings) (node : Node) : Reading → Work Outcome
  | .faulty fault => Doing.fail fault
  | .refused error => refuse node error []
  | .forbidden name => refuse node (forbiddenText name) []
  | .bound prompt provider credentials inputs => askWith settings node prompt provider credentials inputs

end Reading

def readBindings (scope : Scope) (node : Node) (prompt : String) (provider : Provider)
    (credentials : Credentials) : Reading :=
  match bindings (node.setting "inputBindings") >>= boundValues scope [] with
  | .error fault => .faulty fault
  | .ok (.error name) => .forbidden name
  | .ok (.ok inputs) => .bound prompt provider credentials inputs

/-- What the executor reads before it turns to a model. -/
def reading (settings : Settings) (scope : Scope) (node : Node) : Reading :=
  match node.setting "prompt" with
  | .text prompt =>
    if Text.isBlankText prompt then .refused "AI node has no prompt configured."
    else
      match Provider.ofSetting (node.setting "provider") with
      | .error fault => .faulty fault
      | .ok none =>
        .refused ("Unknown LLM provider: '" ++ (node.setting "provider").display ++ "'.")
      | .ok (some provider) =>
        match (settings.credentials.get? provider.name).filter (!·.apiKey.isEmpty) with
        | some credentials => readBindings scope node prompt provider credentials
        | none =>
          .refused ("No API key configured for provider '" ++ provider.name ++
            "'. Add the key to the nexflow configuration or environment.")
  | _ => .refused "AI node has no prompt configured."

theorem scope_bind {α : Type} (f : Scope → Work α) :
    (Work.scope >>= f) scene = f ⟨scene.context, none⟩ scene :=
  rfl

theorem askProvider_eq (prompt : String) (provider : Provider) (credentials : Credentials) :
    askProvider settings node prompt provider credentials scene =
      (readBindings ⟨scene.context, none⟩ node prompt provider credentials).work settings node scene := by
  unfold askProvider readBindings
  cases bindings (node.setting "inputBindings") with
  | error fault => rfl
  | ok bs =>
    rw [Doing.ofExcept_ok_bind, scope_bind]
    show _ = Reading.work settings node (match boundValues ⟨scene.context, none⟩ [] bs with
      | .error fault => .faulty fault
      | .ok (.error name) => .forbidden name
      | .ok (.ok inputs) => .bound prompt provider credentials inputs) scene
    cases boundValues ⟨scene.context, none⟩ [] bs with
    | error fault => rfl
    | ok values => cases values <;> rfl

theorem execute_eq :
    execute settings node scene =
      (reading settings ⟨scene.context, none⟩ node).work settings node scene := by
  unfold execute reading
  cases node.setting "prompt" with
  | text prompt =>
    dsimp only
    split
    · rfl
    · cases Provider.ofSetting (node.setting "provider") with
      | error fault => rfl
      | ok provider =>
        rw [Doing.ofExcept_ok_bind]
        cases provider with
        | none => rfl
        | some provider =>
          dsimp only
          cases (settings.credentials.get? provider.name).filter (!·.apiKey.isEmpty) with
          | none => rfl
          | some credentials => exact askProvider_eq prompt provider credentials
  | _ => rfl

theorem refuse_eq (error : String) :
    refuse node error [] scene =
      .ask (.log ⟨Log.line .error Log.Logger.ai ("AI node " ++ node.displayName ++ " failed: " ++ error),
        scene.place.trace, false⟩) fun _ => .done (.ok (Outcome.failed node error [] []), scene) :=
  rfl

theorem reading_same (h : context.SameButSecrets other)
    (hslip : ∀ bs, bindings (node.setting "inputBindings") = .ok bs →
      ∀ b, .ok b ∈ bs → Prompt.isForbidden b.path = false → Scope.slipsBy b.path = false) :
    reading settings ⟨context, none⟩ node = reading settings ⟨other, none⟩ node := by
  have hread : ∀ prompt provider credentials, readBindings ⟨context, none⟩ node prompt provider credentials
      = readBindings ⟨other, none⟩ node prompt provider credentials := by
    intro prompt provider credentials
    unfold readBindings
    cases hb : bindings (node.setting "inputBindings") with
    | error fault => rfl
    | ok bs =>
      have hsame := boundValues_same h (hslip bs hb) []
      show (match boundValues ⟨context, none⟩ [] bs with
        | .error fault => Reading.faulty fault
        | .ok (.error name) => .forbidden name
        | .ok (.ok inputs) => .bound prompt provider credentials inputs) = _
      rw [hsame]
      rfl
  unfold reading
  simp only [hread]

/-- In two contexts that differ in secrets only the executor refuses a node alike, before it asks for
anything but a line in the log, or it goes on with the same values bound. -/
theorem secrets_unread (settings : Settings) (node : Node)
    (h : scene.context.SameButSecrets scene'.context)
    (hslip : ∀ bs, bindings (node.setting "inputBindings") = .ok bs →
      ∀ b, .ok b ∈ bs → Prompt.isForbidden b.path = false → Scope.slipsBy b.path = false) :
    ∃ found : Reading,
      reading settings ⟨scene.context, none⟩ node = found ∧
      reading settings ⟨scene'.context, none⟩ node = found ∧
      ∀ s ∈ [scene, scene'], execute settings node s = found.work settings node s ∧
        ∀ name, found = .forbidden name →
          ∃ line, execute settings node s = .ask (.log ⟨line, s.place.trace, false⟩) fun _ =>
            .done (.ok (Outcome.failed node (Reading.forbiddenText name) [] []), s) := by
  have hsame : reading settings ⟨scene.context, none⟩ node =
      reading settings ⟨scene'.context, none⟩ node := reading_same h hslip
  refine ⟨_, rfl, hsame.symm, ?_⟩
  intro s hs
  have hwork : execute settings node s =
      (reading settings ⟨scene.context, none⟩ node).work settings node s := by
    simp only [List.mem_cons, List.not_mem_nil, or_false] at hs
    rcases hs with rfl | rfl
    · exact execute_eq
    · rw [hsame]
      exact execute_eq
  refine ⟨hwork, ?_⟩
  intro name hname
  rw [hwork, hname]
  exact ⟨_, refuse_eq _⟩

end Step.AskModel

namespace Unread

open Step.AskModel

def credentials : Credentials := ⟨"sk-test", .null⟩

def settings : Step.AskModel.Settings :=
  ⟨.default, [("anthropic", credentials)], .int 12000, .null, .int 1000, .int 0⟩

def node (path : String) : Node :=
  ⟨"ai", .ai, "", [("prompt", .text "Go"),
    ("inputBindings", .list [.object [("name", .text "p"), ("nexPath", .text path)]])], []⟩

def scene (password : String) : Scene :=
  ⟨{ Context.create "f" "x" ⟨2024, 1, 2, 3, 4, 5, 0, some 0⟩ with
    nex := [("password", .text password), ("customer", .text "Ada")] }, .outside⟩

theorem same (password other : String) :
    (scene password).context.SameButSecrets (scene other).context := by
  refine ⟨rfl, ?_⟩
  intro key hkey
  have hne : ¬ "password" = key := by
    rintro rfl
    exact absurd hkey (by decide)
  simp [scene, Entries.get?, hne]

/-- A customer is bound, and a password in capitals and braces is refused, whatever the password. -/
theorem node_unread :
    reading settings ⟨(scene "one").context, none⟩ (node "nex.customer") =
      reading settings ⟨(scene "two").context, none⟩ (node "nex.customer") ∧
    ∀ s ∈ [scene "one", scene "two"], ∃ line,
      execute settings (node "\x7b\x7bnex.PASSWORD\x7d\x7d") s =
        .ask (.log ⟨line, s.place.trace, false⟩) fun _ =>
          .done (.ok (Outcome.failed (node "\x7b\x7bnex.PASSWORD\x7d\x7d")
            (Reading.forbiddenText "p") [] []), s) := by
  constructor
  · obtain ⟨found, hone, htwo, -⟩ :=
      secrets_unread settings (node "nex.customer") (same "one" "two") (by
        intro bs hbs b hb _
        cases hbs
        cases List.mem_singleton.mp hb
        decide)
    rw [hone, htwo]
  · obtain ⟨found, hone, -, hboth⟩ :=
      secrets_unread settings (node "\x7b\x7bnex.PASSWORD\x7d\x7d")
        (same "one" "two") (by
          intro bs hbs b hb _
          cases hbs
          cases List.mem_singleton.mp hb
          decide)
    intro s hs
    exact (hboth s hs).2 "p" hone.symm

/-- With white space in front of its key a password passes the check and is bound. -/
theorem password_read :
    (scene "one").context.SameButSecrets (scene "two").context ∧
    reading settings ⟨(scene "one").context, none⟩ (node "nex. password") =
      .bound "Go" .anthropic credentials [("p", .text "one")] ∧
    reading settings ⟨(scene "two").context, none⟩ (node "nex. password") =
      .bound "Go" .anthropic credentials [("p", .text "two")] ∧
    ∀ s ∈ [scene "one", scene "two"], execute settings (node "nex. password") s =
      (reading settings ⟨s.context, none⟩ (node "nex. password")).work settings
        (node "nex. password") s :=
  ⟨same "one" "two", rfl, rfl, fun _ _ => execute_eq⟩

end Unread

end FlowEngine
