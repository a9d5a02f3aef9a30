import FlowEngine.Proofs.Expression.Operands
import FlowEngine.Proofs.Step.Asking
import FlowEngine.Proofs.Step.Secrets

/-!
# What a node asks, and when

A node asks nothing when it has no prompt, no known provider or no key, when it binds a forbidden path,
or when its inputs or its prompt are too long or its inputs cannot be written. Otherwise it poses one
question, which hangs on its settings and on what its references lead to, unless one of them cannot
be read.
-/

namespace FlowEngine.Step.AskModel

open Doing Exchange

section Conditions

variable (settings : Settings) (scope : Scope) (node : Node)

/-- What a node binds that has a prompt and a provider with a key. -/
structure Binds (prompt : String) (provider : Provider) (credentials : Credentials)
    (inputs : Entries Value) : Prop where
  hasPrompt : node.setting "prompt" = .text prompt
  visible : Text.isBlankText prompt = false
  hasProvider : Provider.ofSetting (node.setting "provider") = .ok (some provider)
  hasCredentials : settings.credentials.get? provider.name = some credentials
  hasKey : credentials.apiKey ≠ ""
  bound : ∃ bs, bindings (node.setting "inputBindings") = .ok bs ∧
    boundValues scope [] bs = .ok (.ok inputs)

/-- The question that a node poses about its inputs. -/
structure Poses (most : Int) (inputs : Entries Value) (question : Question) : Prop extends
    Binds settings scope node question.prompt question.request.provider question.credentials
      inputs where
  written : (Value.object inputs).isPrintable = true
  fits : ((Json.print (.object inputs)).length : Int) ≤ most
  resolved : promptChars scope inputs (Template.pieces question.prompt.toList) =
    .ok question.resolved.toList
  resolvedFits : (question.resolved.length : Int) ≤ most
  user : question.request.user =
    Prompt.user question.resolved (Json.print (.object inputs)) (!inputs.isEmpty)
  system : Prompt.system (node.setting "outputSchema") = .ok question.request.system
  model : question.request.model = (node.setting "model").orElse settings.model
  maxTokens : tokensSetting (node.setting "maxTokens") settings.maxTokens =
    .ok question.request.maxTokens
  temperature : temperatureSetting (node.setting "temperature") settings.temperature =
    .ok question.request.temperature

/-- Why a node asks nothing. -/
inductive Barred (most : Int) : Prop where
  | noPrompt (h : ∀ prompt, node.setting "prompt" = .text prompt → Text.isBlankText prompt = true)
  | noProvider (h : Provider.ofSetting (node.setting "provider") = .ok none)
  | noKey {provider : Provider}
      (h : Provider.ofSetting (node.setting "provider") = .ok (some provider))
      (hkey : ∀ credentials, settings.credentials.get? provider.name = some credentials →
        credentials.apiKey = "")
  | forbidden {bs : List (Except Fault Binding)} {b : Binding}
      (h : bindings (node.setting "inputBindings") = .ok bs) (hm : .ok b ∈ bs)
      (hb : Prompt.isForbidden b.path = true)
  | inputsTooLong {bs : List (Except Fault Binding)} {inputs : Entries Value} {text : String}
      (h : bindings (node.setting "inputBindings") = .ok bs)
      (hv : boundValues scope [] bs = .ok (.ok inputs))
      (ht : (Value.object inputs).printed Json.print = .ok text) (hlong : most < text.length)
  | promptTooLong {bs : List (Except Fault Binding)} {inputs : Entries Value} {prompt resolved : String}
      (h : bindings (node.setting "inputBindings") = .ok bs)
      (hv : boundValues scope [] bs = .ok (.ok inputs)) (hp : node.setting "prompt" = .text prompt)
      (hr : promptChars scope inputs (Template.pieces prompt.toList) = .ok resolved.toList)
      (hlong : most < resolved.length)

/-- The values that a node binds cannot be written as JSON. -/
inductive Unwritten : Prop where
  | intro {prompt : String} {provider : Provider} {credentials : Credentials}
      {inputs : Entries Value} (h : Binds settings scope node prompt provider credentials inputs)
      (hu : (Value.object inputs).isPrintable = false)

/-- A reference in a prompt can be read, and what it leads to can be written. -/
def Tells (inputs : Entries Value) (body : List Char) : Prop :=
  ∃ found, named scope inputs (String.ofList (Text.trimChars body)) = .ok found ∧
    ∀ v, found = some v → v.isPrintable = true

/-- Everything that a node needs to pose its question, or to tell that it is refused, can be read. -/
structure Sound : Prop where
  bindings : ∀ bs, bindings (node.setting "inputBindings") = .ok bs → ∀ entry ∈ bs,
    ∃ b, entry = .ok b ∧
      (Prompt.isForbidden b.path = false → ∃ v, scope.object (Prompt.plainPath b.path) = .ok v)
  inputs : ¬ Unwritten settings scope node
  limit : ∀ prompt provider credentials inputs,
    Binds settings scope node prompt provider credentials inputs →
      Limit.exceeded settings.maxInputChars (Json.print (.object inputs)).length = .ok true →
        settings.maxInputChars.isPrintable = true
  prompt : ∀ prompt provider credentials inputs,
    Binds settings scope node prompt provider credentials inputs →
      ∀ body, .reference body ∈ Template.pieces prompt.toList → Tells scope inputs body
  schema : (node.setting "outputSchema").IsCollection →
    Prompt.schemaFault? (node.setting "outputSchema") = none
  maxTokens : (node.setting "maxTokens").NearDouble
  temperature : (node.setting "temperature").NearDouble
  model : ((node.setting "model").orElse settings.model).isVoid = true ∨
    ∃ name, (node.setting "model").orElse settings.model = .text name

end Conditions

section Read

variable {settings : Settings} {scope : Scope} {node : Node}

/-- A binding that has its parts, a path that may be read, and a value there. -/
def Bound (scope : Scope) (entry : Except Fault Binding) : Prop :=
  ∃ b, entry = .ok b ∧ Prompt.isForbidden b.path = false ∧
    ∃ v, scope.object (Prompt.plainPath b.path) = .ok v

theorem boundValues_cases (scope : Scope) (inputs : Entries Value)
    (bs : List (Except Fault Binding)) :
    (∃ values, boundValues scope inputs bs = .ok (.ok values) ∧ ∀ entry ∈ bs, Bound scope entry) ∨
    (∃ name, boundValues scope inputs bs = .ok (.error name) ∧
      ∃ b, .ok b ∈ bs ∧ Prompt.isForbidden b.path = true) ∨
    ∃ fault, boundValues scope inputs bs = .error fault ∧
      ∃ entry ∈ bs, ¬ Bound scope entry ∧
        ∀ b, entry = .ok b → Prompt.isForbidden b.path = false := by
  -- The first binding that is forbidden or cannot be read decides, whatever stands behind it.
  induction bs generalizing inputs with
  | nil => exact .inl ⟨inputs, rfl, nofun⟩
  | cons entry rest ih =>
    cases entry with
    | error fault =>
      refine .inr (.inr ⟨fault, rfl, .error fault, List.mem_cons_self, ?_, nofun⟩)
      rintro ⟨b, ⟨⟩, -⟩
    | ok b =>
      by_cases hforbidden : Prompt.isForbidden b.path = true
      · exact .inr (.inl ⟨b.name, by rw [boundValues, if_pos hforbidden], b, List.mem_cons_self,
          hforbidden⟩)
      have hpass : Prompt.isForbidden b.path = false := Bool.eq_false_iff.mpr hforbidden
      cases hread : scope.object (Prompt.plainPath b.path) with
      | error fault =>
        refine .inr (.inr ⟨fault, ?_, _, List.mem_cons_self, ?_, ?_⟩)
        · rw [boundValues, if_neg hforbidden, hread]
          rfl
        · rintro ⟨_, ⟨⟩, -, v, hv⟩
          cases hread.symm.trans hv
        · rintro _ ⟨⟩
          exact hpass
      | ok v =>
        obtain ⟨more, hmore⟩ : ∃ more, boundValues scope inputs (.ok b :: rest) =
            boundValues scope more rest := by
          rw [boundValues, if_neg hforbidden, hread]
          exact ⟨_, rfl⟩
        rw [hmore]
        obtain ⟨values, h, hall⟩ | ⟨name, h, c, hc, hc'⟩ | ⟨fault, h, c, hc, hc'⟩ := ih more
        · exact .inl ⟨values, h, List.forall_mem_cons.mpr ⟨⟨b, rfl, hpass, v, hread⟩, hall⟩⟩
        · exact .inr (.inl ⟨name, h, c, List.mem_cons_of_mem _ hc, hc'⟩)
        · exact .inr (.inr ⟨fault, h, c, List.mem_cons_of_mem _ hc, hc'⟩)

theorem exists_bind_iff {α β : Type} {x : Except Fault α} {f : α → Except Fault β}
    (hf : ∀ a, x = .ok a → ∃ b, f a = .ok b) : (∃ b, (x >>= f) = .ok b) ↔ ∃ a, x = .ok a := by
  cases x with
  | error fault => exact iff_of_false nofun nofun
  | ok a => exact iff_of_true (hf a rfl) ⟨a, rfl⟩

theorem exists_promptPiece_iff (inputs : Entries Value) (piece : Template.Piece) :
    (∃ chars, promptPiece scope inputs piece = .ok chars) ↔
      ∀ body, piece = .reference body → Tells scope inputs body := by
  cases piece with
  | char c => exact iff_of_true ⟨_, rfl⟩ nofun
  | reference body =>
    have hself : (∀ body', Template.Piece.reference body = .reference body' →
        Tells scope inputs body') ↔ Tells scope inputs body := by
      simp only [Template.Piece.reference.injEq, forall_eq']
    rw [hself, promptPiece, Tells]
    cases hv : named scope inputs (String.ofList (Text.trimChars body)) with
    | error fault => exact iff_of_false nofun nofun
    | ok found =>
      cases found with
      | none => exact iff_of_true ⟨_, rfl⟩ ⟨none, rfl, nofun⟩
      | some v =>
        obtain ⟨hp, ht⟩ | ⟨hp, ht⟩ := v.printed_cases Prompt.readable
        · refine iff_of_true ⟨_, congrArg (Except.map String.toList) ht⟩ ⟨some v, rfl, ?_⟩
          rintro _ ⟨⟩
          exact hp
        · refine iff_of_false ?_ ?_
          · rintro ⟨chars, h⟩
            cases (congrArg (Except.map String.toList) ht).symm.trans h
          · rintro ⟨_, ⟨⟩, h⟩
            cases hp.symm.trans (h v rfl)

theorem exists_promptChars_iff (inputs : Entries Value) (pieces : List Template.Piece) :
    (∃ chars, promptChars scope inputs pieces = .ok chars) ↔
      ∀ body, .reference body ∈ pieces → Tells scope inputs body := by
  induction pieces with
  | nil => exact iff_of_true ⟨[], rfl⟩ nofun
  | cons piece rest ih =>
    have hsplit : (∃ chars, promptChars scope inputs (piece :: rest) = .ok chars) ↔
        (∃ chars, promptPiece scope inputs piece = .ok chars) ∧
          ∃ chars, promptChars scope inputs rest = .ok chars := by
      rw [promptChars]
      cases promptPiece scope inputs piece with
      | error fault => exact iff_of_false nofun (fun ⟨⟨_, h⟩, _⟩ => nomatch h)
      | ok chars => exact (exists_bind_iff fun _ _ => ⟨_, rfl⟩).trans (and_iff_right ⟨chars, rfl⟩).symm
    rw [hsplit, exists_promptPiece_iff, ih]
    constructor
    · rintro ⟨hfirst, hrest⟩ body hm
      obtain heq | hm := List.mem_cons.mp hm
      · exact hfirst body heq.symm
      · exact hrest body hm
    · intro h
      exact ⟨fun body heq => h body (heq ▸ List.mem_cons_self),
        fun body hm => h body (List.mem_cons_of_mem piece hm)⟩

theorem exists_schemaText_iff (schema : Value) :
    (∃ text, Prompt.schemaText schema = .ok text) ↔
      (schema.IsCollection → Prompt.schemaFault? schema = none) := by
  by_cases hcollection : schema.IsCollection
  · cases hfault : Prompt.schemaFault? schema with
    | some fault =>
      have htext : Prompt.schemaText schema = .error fault := by
        cases hcollection <;> simp only [Prompt.schemaText, hfault]
      rw [htext]
      refine iff_of_false ?_ fun h => ?_
      · rintro ⟨text, ⟨⟩⟩
      · cases h hcollection
    | none =>
      have htext : Prompt.schemaText schema = .ok (some (Json.print schema)) := by
        cases hcollection <;> simp only [Prompt.schemaText, hfault]
      exact iff_of_true ⟨_, htext⟩ fun _ => rfl
  · refine iff_of_true ?_ (absurd · hcollection)
    cases schema with
    | list items => exact absurd (.list items) hcollection
    | object fields => exact absurd (.object fields) hcollection
    | _ => exact ⟨_, rfl⟩

theorem exists_system_iff (schema : Value) :
    (∃ text, Prompt.system schema = .ok text) ↔
      (schema.IsCollection → Prompt.schemaFault? schema = none) := by
  rw [← exists_schemaText_iff]
  refine exists_bind_iff fun text _ => ?_
  cases text with
  | none => exact ⟨_, rfl⟩
  | some text =>
    dsimp only
    split
    · exact ⟨_, rfl⟩
    · exact ⟨_, rfl⟩

theorem exists_toDouble_iff {v : Value} {n : Value.Numeric} (hn : v.numeric? = some n) :
    (∃ d, n.toDouble = .ok d) ↔ v.NearDouble := by
  rw [Value.toDouble_of_numeric? hn]
  obtain ⟨hnear, hread⟩ | ⟨hfar, hfault⟩ := Value.asDouble_cases v
  · exact iff_of_true hread hnear
  · rw [hfault]
    exact iff_of_false nofun hfar

theorem nearDouble_of_numeric?_eq_none {v : Value} (h : v.numeric? = none) : v.NearDouble := by
  rintro n rfl
  cases h

theorem exists_tokensSetting_iff (v default : Value) :
    (∃ tokens, tokensSetting v default = .ok tokens) ↔ v.NearDouble := by
  unfold tokensSetting
  cases hn : v.numeric? with
  | none => exact iff_of_true ⟨default, rfl⟩ (nearDouble_of_numeric?_eq_none hn)
  | some n =>
    refine (exists_bind_iff fun d _ => ?_).trans (exists_toDouble_iff hn)
    split
    · cases n <;> exact ⟨_, rfl⟩
    · exact ⟨_, rfl⟩

theorem exists_temperatureSetting_iff (v default : Value) :
    (∃ temperature, temperatureSetting v default = .ok temperature) ↔ v.NearDouble := by
  unfold temperatureSetting
  cases hn : v.numeric? with
  | none => exact iff_of_true ⟨default, rfl⟩ (nearDouble_of_numeric?_eq_none hn)
  | some n => exact (exists_bind_iff fun d _ => ⟨_, rfl⟩).trans (exists_toDouble_iff hn)

theorem exists_modelSetting_iff (v : Value) :
    (∃ name, Model.modelSetting v = .ok name) ↔ v.isVoid = true ∨ ∃ name, v = .text name := by
  by_cases htext : ∃ s, v = .text s
  · obtain ⟨s, rfl⟩ := htext
    exact iff_of_true ⟨some s, rfl⟩ (.inr ⟨s, rfl⟩)
  · have hother : Model.modelSetting v =
        if v.isVoid = true then .ok none else .error (.noOperation v.kindName "strip") := by
      unfold Model.modelSetting
      split
      · exact absurd ⟨_, rfl⟩ htext
      · rfl
    rw [hother]
    by_cases hvoid : v.isVoid = true
    · rw [if_pos hvoid]
      exact iff_of_true ⟨none, rfl⟩ (.inl hvoid)
    · rw [if_neg hvoid]
      exact iff_of_false nofun (not_or.mpr ⟨hvoid, htext⟩)

end Read

section Opening

variable {settings : Settings} {node : Node} {most : Int} {scene scene' : Scene} {t : List Exchange}
  {result : Except Fault Outcome} {prompt : String} {provider : Provider} {credentials : Credentials}
  {inputs : Entries Value}

/-- How the work of a node begins: it is refused, it breaks off, or it comes to pose a question. -/
inductive Opening (settings : Settings) (node : Node) (most : Int) (scene : Scene) :
    List Exchange → Except Fault Outcome → Scene → Prop where
  | barred {t : List Exchange} {outcome : Outcome} {scene' : Scene}
      (h : Barred settings ⟨scene.context, none⟩ node most) (ht : AreLog t)
      (hstatus : outcome.status = .failure) : Opening settings node most scene t (.ok outcome) scene'
  | unwritten {t : List Exchange} {outcome : Outcome} {scene' : Scene}
      (h : Unwritten settings ⟨scene.context, none⟩ node) (ht : AreLog t)
      (hstatus : outcome.status = .failure) : Opening settings node most scene t (.ok outcome) scene'
  | broken {t : List Exchange} {fault : Fault} {scene' : Scene}
      (h : ¬ Sound settings ⟨scene.context, none⟩ node)
      (hw : ¬ Unwritten settings ⟨scene.context, none⟩ node) (ht : AreLog t) :
      Opening settings node most scene t (.error fault) scene'
  | posed {inputs : Entries Value} {question : Question} {told rest : List Exchange}
      {result : Except Fault Outcome} {scene' : Scene}
      (h : Poses settings ⟨scene.context, none⟩ node most inputs question) (htold : AreLog told)
      (hask : (ask settings node question).Path scene rest result scene') :
      Opening settings node most scene (told ++ rest) result scene'

theorem path_promptText {scope : Scope} {result : Except Fault String}
    (h : (promptText scope inputs prompt).Path scene t result scene') :
    AreLog t ∧ scene' = scene ∧
      result = (promptChars scope inputs (Template.pieces prompt.toList)).map String.ofList := by
  obtain ⟨t₁, t₂, _, scene₁, rfl, hwarn, hrest⟩ := path_bind.mp h
  obtain ⟨hlog, rfl, rfl⟩ := Work.path_noteAll hwarn
  obtain ⟨first, hresolve, rfl⟩ := path_map.mp hrest
  obtain ⟨rfl, rfl, rfl⟩ := path_ofExcept.mp hresolve
  exact ⟨hlog.append areLog_nil, rfl, rfl⟩

/-- What a node that reads everything it needs goes on with is what has been read. -/
theorem Opening.of_ofExcept {α : Type} {x : Except Fault α} {f : α → Work Outcome}
    {told : List Exchange} (htold : AreLog told)
    (hw : ¬ Unwritten settings ⟨scene.context, none⟩ node)
    (hsound : Sound settings ⟨scene.context, none⟩ node → ∃ a, x = .ok a)
    (hrest : ∀ a, x = .ok a → (f a).Path scene t result scene' →
      Opening settings node most scene (told ++ t) result scene')
    (h : (Doing.ofExcept x >>= f).Path scene t result scene') :
    Opening settings node most scene (told ++ t) result scene' := by
  cases x with
  | error fault =>
    obtain ⟨rfl, rfl, rfl⟩ := path_ofExcept_bind.mp h
    refine .broken (fun hs => ?_) hw (htold.append areLog_nil)
    obtain ⟨a, ha⟩ := hsound hs
    cases ha
  | ok a =>
    rw [ofExcept_ok_bind] at h
    exact hrest a rfl h

theorem Opening.of_refuse {error : String} {told : List Exchange} (htold : AreLog told)
    (hbarred : Barred settings ⟨scene.context, none⟩ node most)
    (h : (refuse node error []).Path scene t result scene') :
    Opening settings node most scene (told ++ t) result scene' := by
  obtain ⟨hlog, outcome, rfl, hstatus⟩ := path_refuse h
  exact .barred hbarred (htold.append hlog) hstatus

theorem Binds.unique {scope : Scope} {prompt' : String} {provider' : Provider}
    {credentials' : Credentials} {inputs' : Entries Value}
    (h : Binds settings scope node prompt provider credentials inputs)
    (h' : Binds settings scope node prompt' provider' credentials' inputs') :
    prompt = prompt' ∧ inputs = inputs' := by
  obtain ⟨bs, hbs, hvalues⟩ := h.bound
  obtain ⟨bs', hbs', hvalues'⟩ := h'.bound
  cases h.hasPrompt.symm.trans h'.hasPrompt
  cases hbs.symm.trans hbs'
  cases hvalues.symm.trans hvalues'
  exact ⟨rfl, rfl⟩

theorem Binds.not_unwritten {scope : Scope}
    (h : Binds settings scope node prompt provider credentials inputs)
    (hp : (Value.object inputs).isPrintable = true) : ¬ Unwritten settings scope node := by
  rintro ⟨h', hu⟩
  obtain ⟨-, rfl⟩ := h.unique h'
  cases hp.symm.trans hu

/-- A prompt whose references can be told goes on as its text. -/
theorem Opening.of_promptText {f : String → Work Outcome}
    (hb : Binds settings ⟨scene.context, none⟩ node prompt provider credentials inputs)
    (hw : ¬ Unwritten settings ⟨scene.context, none⟩ node)
    (hrest : ∀ resolved told rest, AreLog told →
      promptChars ⟨scene.context, none⟩ inputs (Template.pieces prompt.toList) =
        .ok resolved.toList →
      (f resolved).Path scene rest result scene' →
        Opening settings node most scene (told ++ rest) result scene')
    (h : (promptText ⟨scene.context, none⟩ inputs prompt >>= f).Path scene t result scene') :
    Opening settings node most scene t result scene' := by
  obtain ⟨told, rest, _, scene₁, rfl, hprompt, hthen⟩ := path_bind.mp h
  obtain ⟨htold, rfl, rfl⟩ := path_promptText hprompt
  cases hchars : promptChars ⟨scene₁.context, none⟩ inputs (Template.pieces prompt.toList) with
  | error fault =>
    rw [hchars] at hthen
    obtain ⟨rfl, rfl, rfl⟩ := hthen
    refine .broken (fun hsound => ?_) hw (htold.append areLog_nil)
    obtain ⟨chars, hread⟩ := (exists_promptChars_iff inputs _).mpr (hsound.prompt _ _ _ _ hb)
    cases hchars.symm.trans hread
  | ok chars =>
    rw [hchars] at hthen
    refine hrest (String.ofList chars) told rest htold ?_ hthen
    rw [String.toList_ofList, hchars]

theorem path_askAbout (hmost : settings.maxInputChars = .int most)
    (hb : Binds settings ⟨scene.context, none⟩ node prompt provider credentials inputs)
    (hp : (Value.object inputs).isPrintable = true)
    (h : (askAbout settings node prompt provider credentials inputs
      (Json.print (.object inputs))).Path scene t result scene') :
    Opening settings node most scene t result scene' := by
  have hlimit (n : Nat) : Limit.exceeded settings.maxInputChars n = .ok (decide (most < n)) := by
    rw [hmost]
    rfl
  have hw := hb.not_unwritten hp
  obtain ⟨bs, hbs, hvalues⟩ := hb.bound
  unfold askAbout at h
  have hopen := Work.path_scope.mp h
  have hexceeded := hlimit (Json.print (.object inputs)).length
  rw [hexceeded, ofExcept_ok_bind] at hopen
  split at hopen
  · rename_i hlong
    refine .of_ofExcept areLog_nil hw (fun hsound => ?_) (fun limit _ hrefuse => ?_) hopen
    · exact ⟨_, Value.shown_eq_ok (hsound.limit _ _ _ _ hb (hexceeded.trans (congrArg _ hlong)))⟩
    · have htext : (Value.object inputs).printed Json.print = .ok (Json.print (.object inputs)) :=
        if_pos hp
      exact .of_refuse areLog_nil (.inputsTooLong hbs hvalues htext (of_decide_eq_true hlong)) hrefuse
  rename_i hfits
  refine .of_promptText hb hw (fun resolved told rest htold hresolved hthen => ?_) hopen
  rw [hlimit, ofExcept_ok_bind] at hthen
  split at hthen
  · rename_i hlong
    exact .of_refuse htold (.promptTooLong hbs hvalues hb.hasPrompt hresolved
      (of_decide_eq_true hlong)) hthen
  rename_i hresolvedFits
  -- Nothing is asked before the last of the settings has been read.
  refine .of_ofExcept htold hw (fun hsound => (exists_system_iff _).mpr hsound.schema)
    (fun system hsystem hnext => ?_) hthen
  refine .of_ofExcept htold hw (fun hsound => (exists_tokensSetting_iff _ _).mpr hsound.maxTokens)
    (fun tokens htokens hnext => ?_) hnext
  refine .of_ofExcept htold hw
    (fun hsound => (exists_temperatureSetting_iff _ _).mpr hsound.temperature)
    (fun temperature htemperature hask => ?_) hnext
  refine .posed ⟨hb, hp, ?_, hresolved, ?_, rfl, hsystem, rfl, htokens, htemperature⟩ htold hask
  · simpa using hfits
  · simpa using hresolvedFits

theorem path_askWith (hmost : settings.maxInputChars = .int most)
    (hb : Binds settings ⟨scene.context, none⟩ node prompt provider credentials inputs)
    (h : (askWith settings node prompt provider credentials inputs).Path scene t result scene') :
    Opening settings node most scene t result scene' := by
  unfold askWith at h
  obtain ⟨hp, ht⟩ | ⟨hp, ht⟩ := (Value.object inputs).printed_cases Json.print
  · rw [ht] at h
    exact path_askAbout hmost hb hp h
  · rw [ht] at h
    obtain ⟨hlog, outcome, rfl, hstatus⟩ := path_refuse h
    exact .unwritten ⟨hb, hp⟩ hlog hstatus

/-- The settings of a provider and of bindings have the kinds that are meant for them. -/
structure WellKinded (node : Node) : Prop where
  provider : node.setting "provider" = .null ∨ ∃ name, node.setting "provider" = .text name
  bindings : node.setting "inputBindings" = .null ∨
    ∃ items, node.setting "inputBindings" = .list items

theorem WellKinded.exists_ofSetting (h : WellKinded node) :
    ∃ found, Provider.ofSetting (node.setting "provider") = .ok found := by
  obtain hnull | ⟨name, hname⟩ := h.provider
  · exact ⟨some .anthropic, by rw [hnull]; rfl⟩
  · rw [hname, Provider.ofSetting]
    split
    · exact ⟨_, rfl⟩
    · exact ⟨_, rfl⟩

theorem WellKinded.exists_bindings (h : WellKinded node) :
    ∃ bs, AskModel.bindings (node.setting "inputBindings") = .ok bs := by
  obtain hnull | ⟨items, hitems⟩ := h.bindings
  · exact ⟨[], by rw [hnull]; rfl⟩
  · rw [hitems, AskModel.bindings]
    split
    · exact ⟨_, rfl⟩
    · exact ⟨_, rfl⟩

theorem path_readBindings (hkinds : WellKinded node) (hmost : settings.maxInputChars = .int most)
    (hprompt : node.setting "prompt" = .text prompt) (hvisible : Text.isBlankText prompt = false)
    (hprovider : Provider.ofSetting (node.setting "provider") = .ok (some provider))
    (hcredentials : settings.credentials.get? provider.name = some credentials)
    (hkey : credentials.apiKey ≠ "")
    (h : Doing.Path (fun s => (readBindings ⟨scene.context, none⟩ node prompt provider
      credentials).work settings node s) scene t result scene') :
    Opening settings node most scene t result scene' := by
  obtain ⟨bs, hbs⟩ := hkinds.exists_bindings
  have hread : bindings (node.setting "inputBindings") >>= boundValues ⟨scene.context, none⟩ [] =
      boundValues ⟨scene.context, none⟩ [] bs := by
    rw [hbs]
    rfl
  unfold readBindings at h
  rw [hread] at h
  obtain ⟨values, hvalues, -⟩ | ⟨name, hvalues, b, hb, hforbidden⟩ |
    ⟨fault, hvalues, entry, hm, hunread, hpass⟩ := boundValues_cases ⟨scene.context, none⟩ [] bs
  · rw [hvalues] at h
    exact path_askWith hmost ⟨hprompt, hvisible, hprovider, hcredentials, hkey, bs, hbs, hvalues⟩ h
  · rw [hvalues] at h
    exact .of_refuse areLog_nil (.forbidden hbs hb hforbidden) h
  · rw [hvalues] at h
    obtain ⟨rfl, rfl, rfl⟩ := path_ofExcept.mp h
    refine .broken (fun hsound => ?_) ?_ areLog_nil
    · obtain ⟨b, hentry, hv⟩ := hsound.bindings bs hbs entry hm
      exact hunread ⟨b, hentry, hpass b hentry, hv (hpass b hentry)⟩
    · rintro ⟨h', -⟩
      obtain ⟨bs', hbs', hvalues'⟩ := h'.bound
      cases hbs.symm.trans hbs'
      cases hvalues.symm.trans hvalues'

theorem path_execute (hkinds : WellKinded node) (hmost : settings.maxInputChars = .int most)
    (h : (execute settings node).Path scene t result scene') :
    Opening settings node most scene t result scene' := by
  unfold execute at h
  split at h
  case h_2 hprompt =>
    exact .of_refuse areLog_nil (.noPrompt fun prompt hp => absurd hp (hprompt prompt)) h
  case h_1 prompt hprompt =>
    split at h
    · rename_i hblank
      refine .of_refuse areLog_nil (.noPrompt fun other hother => ?_) h
      cases hprompt.symm.trans hother
      exact hblank
    · rename_i hvisible
      obtain ⟨found, hfound⟩ := hkinds.exists_ofSetting
      rw [hfound, ofExcept_ok_bind] at h
      cases found with
      | none => exact .of_refuse areLog_nil (.noProvider hfound) h
      | some provider =>
        dsimp only at h
        split at h
        · rename_i credentials hcredentials
          obtain ⟨hheld, hkey⟩ := Option.filter_eq_some_iff.mp hcredentials
          have hkey : credentials.apiKey ≠ "" := by simpa using hkey
          unfold Doing.Path at h
          rw [askProvider_eq] at h
          exact path_readBindings hkinds hmost hprompt (Bool.eq_false_iff.mpr hvisible) hfound hheld
            hkey h
        · rename_i hnone
          refine .of_refuse areLog_nil (.noKey hfound fun credentials hheld => ?_) h
          have hkey := Option.filter_eq_none_iff.mp hnone credentials hheld
          simpa using hkey

end Opening

section Question

variable {settings : Settings} {scope : Scope} {node : Node} {most : Int} {inputs : Entries Value}
  {question : Question}

theorem Binds.read {prompt : String} {provider : Provider} {credentials : Credentials}
    (h : Binds settings scope node prompt provider credentials inputs) :
    ∀ bs, bindings (node.setting "inputBindings") = .ok bs → ∀ entry ∈ bs, Bound scope entry := by
  intro bs hbs
  obtain ⟨bs', hbs', hvalues⟩ := h.bound
  cases hbs.symm.trans hbs'
  obtain ⟨-, -, hall⟩ | ⟨_, hother, -⟩ | ⟨_, hother, -⟩ := boundValues_cases scope [] bs
  · exact hall
  · cases hvalues.symm.trans hother
  · cases hvalues.symm.trans hother

theorem Poses.not_barred (h : Poses settings scope node most inputs question) :
    ¬ Barred settings scope node most := by
  obtain ⟨bs, hbs, hvalues⟩ := h.bound
  rintro (hblank | hnone | ⟨hprovider, hkey⟩ | ⟨hbs', hm, hb⟩ | ⟨hbs', hvalues', htext, hlong⟩ |
    ⟨hbs', hvalues', hprompt, hresolved, hlong⟩)
  · cases h.visible.symm.trans (hblank _ h.hasPrompt)
  · cases h.hasProvider.symm.trans hnone
  · cases h.hasProvider.symm.trans hprovider
    exact h.hasKey (hkey _ h.hasCredentials)
  · obtain ⟨b', heq, hpass, -⟩ := h.read _ hbs' _ hm
    cases heq
    cases hpass.symm.trans hb
  · cases hbs.symm.trans hbs'
    cases hvalues.symm.trans hvalues'
    rw [Value.printed, if_pos h.written] at htext
    cases htext
    exact absurd h.fits (Int.not_le.mpr hlong)
  · cases hbs.symm.trans hbs'
    cases hvalues.symm.trans hvalues'
    cases h.hasPrompt.symm.trans hprompt
    have heq := Except.ok.inj (h.resolved.symm.trans hresolved)
    rw [← String.toList_inj.mp heq] at hlong
    exact absurd h.resolvedFits (Int.not_le.mpr hlong)

theorem Poses.sound (hmost : settings.maxInputChars = .int most)
    (h : Poses settings scope node most inputs question)
    (hmodel : ∃ name, Model.modelSetting question.request.model = .ok name) :
    Sound settings scope node where
  bindings bs hbs entry hm := by
    obtain ⟨b, heq, -, hv⟩ := h.read bs hbs entry hm
    exact ⟨b, heq, fun _ => hv⟩
  inputs := h.toBinds.not_unwritten h.written
  limit prompt provider credentials inputs' hb hlong := by
    obtain ⟨-, rfl⟩ := h.toBinds.unique hb
    rw [hmost] at hlong
    exact absurd h.fits (Int.not_le.mpr (of_decide_eq_true (Except.ok.inj hlong)))
  prompt prompt provider credentials inputs' hb := by
    obtain ⟨rfl, rfl⟩ := h.toBinds.unique hb
    exact (exists_promptChars_iff inputs _).mp ⟨_, h.resolved⟩
  schema := (exists_system_iff _).mp ⟨_, h.system⟩
  maxTokens := (exists_tokensSetting_iff _ _).mp ⟨_, h.maxTokens⟩
  temperature := (exists_temperatureSetting_iff _ _).mp ⟨_, h.temperature⟩
  model := h.model ▸ (exists_modelSetting_iff _).mp hmodel

end Question

/-- A node that is barred asks no model and does not succeed, and one whose inputs cannot be written
asks none and fails. One that can read what it needs fails when it is barred, and else asks its
question once or, exactly if the first answer is unread, twice, and ends by the last answer. Any other
asks no model and ends in a fault. -/
theorem model_called (settings : Settings) (node : Node) {most : Int} {scene scene' : Scene}
    {t : List Exchange} {result : Except Fault Outcome} (hkinds : WellKinded node)
    (hmost : settings.maxInputChars = .int most) (hreplies : RepliesReadable t)
    (h : (execute settings node).Path scene t result scene') :
    (Barred settings ⟨scene.context, none⟩ node most →
      AreLog t ∧ ∀ outcome, result = .ok outcome → outcome.status = .failure) ∧
    (Unwritten settings ⟨scene.context, none⟩ node →
      AreLog t ∧ ∃ outcome, result = .ok outcome ∧ outcome.status = .failure) ∧
    (Sound settings ⟨scene.context, none⟩ node →
      (Barred settings ⟨scene.context, none⟩ node most →
        ∃ outcome, result = .ok outcome ∧ outcome.status = .failure) ∧
      (¬ Barred settings ⟨scene.context, none⟩ node most →
        ∃ inputs question told calls rest last,
          Poses settings ⟨scene.context, none⟩ node most inputs question ∧
          t = told ++ rest ∧ AreLog told ∧
          Made settings.client question.credentials scene.place calls rest ∧
          completions t = calls.filterMap (fun asked =>
            sent? settings.client question.credentials asked.1) ∧
          Asks question calls last ∧ Ends question last result)) ∧
    (¬ Sound settings ⟨scene.context, none⟩ node →
      ¬ Barred settings ⟨scene.context, none⟩ node most →
      ¬ Unwritten settings ⟨scene.context, none⟩ node →
        AreLog t ∧ ∃ fault, result = .error fault) := by
  cases path_execute hkinds hmost h with
  | barred hbarred ht hstatus =>
    refine ⟨fun _ => ⟨ht, ?_⟩, fun _ => ⟨ht, _, rfl, hstatus⟩,
      fun _ => ⟨fun _ => ⟨_, rfl, hstatus⟩, absurd hbarred⟩, fun _ => absurd hbarred⟩
    rintro _ ⟨⟩
    exact hstatus
  | unwritten hunwritten ht hstatus =>
    refine ⟨fun _ => ⟨ht, ?_⟩, fun _ => ⟨ht, _, rfl, hstatus⟩,
      fun hsound => absurd hunwritten hsound.inputs, fun _ _ => absurd hunwritten⟩
    rintro _ ⟨⟩
    exact hstatus
  | broken hbroken hwritten ht =>
    exact ⟨fun _ => ⟨ht, nofun⟩, (absurd · hwritten), (absurd · hbroken), fun _ _ _ => ⟨ht, _, rfl⟩⟩
  | @posed inputs question told rest _ _ hposes htold hask =>
    have hfree := hposes.not_barred
    have hwritten := hposes.toBinds.not_unwritten hposes.written
    refine ⟨(absurd · hfree), (absurd · hwritten), fun hsound => ⟨(absurd · hfree), fun _ => ?_⟩,
      fun hunsound _ _ => ?_⟩
    · obtain ⟨name, hname⟩ := (exists_modelSetting_iff _).mpr (hposes.model ▸ hsound.model)
      obtain ⟨calls, last, hmade, hasks, hends⟩ := path_ask hname hreplies.right hask
      refine ⟨inputs, question, told, calls, rest, last, hposes, rfl, htold, hmade, ?_, hasks, hends⟩
      rw [completions_append, htold.completions, hmade.completions hreplies.right, List.nil_append]
    · cases hmodel : Model.modelSetting question.request.model with
      | ok name => exact absurd (hposes.sound hmost ⟨name, hmodel⟩) hunsound
      | error fault =>
        obtain ⟨rfl, rfl⟩ := path_ask_unnamed hmodel hreplies.right hask
        exact ⟨htold.append areLog_nil, fault, rfl⟩

namespace Asked

def node (maxTokens : Value) : Node :=
  ⟨"ai", .ai, "", [("prompt", .text "Go"), ("maxTokens", maxTokens)], []⟩

def settings : Settings :=
  ⟨.default, [("anthropic", ⟨"sk-test", .null⟩)], .int 12000, .null, .int 1000, .int 0⟩

def scene : Scene := ⟨Context.create "f" "x" ⟨2024, 1, 2, 3, 4, 5, 0, some 0⟩, .outside⟩

def serve : (r : Request) → List String → r.Reply × List String
  | .complete _, text :: rest => (.completion (some text) (.int 3) (.int 4) none, rest)
  | r, texts => (r.someReply, texts)

def row (maxTokens : Value) : List Exchange :=
  (execute settings (node maxTokens) scene).transcript serve ["no", "[7]"]

theorem path_row (maxTokens : Value) :
    ∃ result scene', (execute settings (node maxTokens)).Path scene (row maxTokens) result scene' :=
  ⟨_, _, Dialogue.path_transcript serve (execute settings (node maxTokens) scene) ["no", "[7]"]⟩

theorem wellKinded (maxTokens : Value) : WellKinded (node maxTokens) := ⟨.inl rfl, .inl rfl⟩

theorem pieces_go : Template.pieces "Go".toList = [.char 'G', .char 'o'] :=
  Template.pieces_eq_map_char (by decide)

theorem not_barred (maxTokens : Value) :
    ¬ Barred settings ⟨scene.context, none⟩ (node maxTokens) 12000 := by
  rintro (hblank | hnone | ⟨hprovider, hkey⟩ | ⟨hbs, hm, -⟩ | ⟨hbs, hvalues, htext, hlong⟩ |
    ⟨hbs, hvalues, hprompt, hresolved, hlong⟩)
  · exact absurd (hblank "Go" rfl) (by decide)
  · cases hnone
  · cases hprovider
    exact absurd (hkey _ rfl) (by decide)
  · cases hbs
    cases hm
  · cases hbs
    cases hvalues
    cases htext
    exact absurd hlong (by decide)
  · cases hbs
    cases hvalues
    cases hprompt
    rw [pieces_go] at hresolved
    have hgo := Except.ok.inj hresolved
    rw [← String.length_toList, ← hgo] at hlong
    exact absurd hlong (by decide)

theorem sound_null : Sound settings ⟨scene.context, none⟩ (node .null) where
  bindings := by
    rintro _ ⟨⟩
    exact nofun
  inputs := by
    rintro ⟨hb, hu⟩
    obtain ⟨bs, hbs, hvalues⟩ := hb.bound
    cases hbs
    cases hvalues
    cases hu
  limit _ _ _ _ _ _ := by decide +kernel
  prompt := by
    intro prompt _ _ _ hb body hm
    cases hb.hasPrompt
    rw [pieces_go] at hm
    simp at hm
  schema := nofun
  maxTokens := nofun
  temperature := nofun
  model := .inl rfl

theorem repliesReadable_row : RepliesReadable (row .null) := by
  have htexts : texts (row .null) = ["no", "[7]"] := by decide +kernel
  intro text ht
  rw [htexts] at ht
  refine Reply.readable_of_not_hasLongRow (Json.not_hasLongRow_of_length_le ?_)
  obtain rfl | rfl : text = "no" ∨ text = "[7]" := by simpa using ht
  · decide
  · decide

/-- The first of two answers holds no object and no list, and there is a second request. -/
theorem model_called_twice :
    ¬ Barred settings ⟨scene.context, none⟩ (node .null) 12000 ∧
      (completions (row .null)).length = 2 ∧
      ∃ result scene' inputs question told calls rest last,
        (execute settings (node .null)).Path scene (row .null) result scene' ∧
        Poses settings ⟨scene.context, none⟩ (node .null) 12000 inputs question ∧
        row .null = told ++ rest ∧ AreLog told ∧
        Made settings.client question.credentials scene.place calls rest ∧
        completions (row .null) = calls.filterMap (fun asked =>
          sent? settings.client question.credentials asked.1) ∧
        Asks question calls last ∧ Ends question last result := by
  obtain ⟨result, scene', hpath⟩ := path_row .null
  obtain ⟨inputs, question, told, calls, rest, last, hposes, ht, htold, hmade, hsent, hasks,
    hends⟩ := ((model_called settings (node .null) (wellKinded .null) rfl repliesReadable_row
      hpath).2.2.1 sound_null).2 (not_barred .null)
  exact ⟨not_barred .null, by decide +kernel, result, scene', inputs, question, told, calls, rest,
    last, hpath, hposes, ht, htold, hmade, hsent, hasks, hends⟩

/-- A count of tokens beyond all doubles asks no model, though nothing bars the node. -/
theorem huge_count_asks_nothing :
    ¬ Barred settings ⟨scene.context, none⟩ (node (.int (10 ^ 400))) 12000 ∧
      ∃ t, (execute settings (node (.int (10 ^ 400)))).Path scene t (.error .integerTooLarge) scene ∧
        completions t = [] := by
  have hrun : ((execute settings (node (.int (10 ^ 400))) scene).run serve ["no", "[7]"]).1 =
      (.error .integerTooLarge, scene) := by
    decide +kernel
  have hpath := Dialogue.path_transcript serve (execute settings (node (.int (10 ^ 400))) scene)
    ["no", "[7]"]
  rw [hrun] at hpath
  exact ⟨not_barred _, row (.int (10 ^ 400)), hpath, by decide +kernel⟩

end Asked

end FlowEngine.Step.AskModel
