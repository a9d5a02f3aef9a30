import Mathlib.Data.List.Nodup
import FlowEngine.Proofs.Work.Transcript
import FlowEngine.Step.CallService

/-!
# Headers of requests

The headers of a request are written in layers: those that are built in, those of the connector, those
of the node, and the proof of who calls. A later one is written over an earlier one of the same
spelling. Receivers do not tell spellings apart that differ in case only, so the headers can be
told apart by them exactly if no name is written in two spellings.
-/

namespace FlowEngine

namespace Web

variable {fold : String → String} {pairs sent : List (String × String)}

/-- Names that are taken for the same are spelled alike. -/
def OneSpelling (fold : String → String) (pairs : List (String × String)) : Prop :=
  ∀ p ∈ pairs, ∀ q ∈ pairs, fold p.1 = fold q.1 → p.1 = q.1

def Unambiguous (fold : String → String) (sent : Entries String) : Prop :=
  (sent.keys.map fold).Nodup

instance : Decidable (OneSpelling fold pairs) :=
  inferInstanceAs (Decidable (∀ p ∈ pairs, ∀ q ∈ pairs, fold p.1 = fold q.1 → p.1 = q.1))

/-- What is sent under names that are taken for a name. -/
def valuesUnder (fold : String → String) (sent : Entries String) (name : String) : List String :=
  (sent.filter fun p => fold p.1 = fold name).map (·.2)

/-- What is written last under a name that is taken for a name. -/
def lastUnder (fold : String → String) (pairs : List (String × String)) (name : String) :
    Option String :=
  ((pairs.filter fun p => fold p.1 = fold name).getLast?).map (·.2)

theorem lastUnder_append (front back : List (String × String)) (name : String) :
    lastUnder fold (front ++ back) name =
      (lastUnder fold back name).or (lastUnder fold front name) := by
  rw [lastUnder, List.filter_append, List.getLast?_append, Option.map_or]
  rfl

theorem unambiguous_iff : Unambiguous fold (.ofPairs pairs) ↔ OneSpelling fold pairs := by
  rw [Unambiguous, List.nodup_map_iff_inj_on (Entries.nodup_keys_ofPairs pairs)]
  simp only [Entries.mem_keys_ofPairs]
  constructor
  · intro h p hp q hq heq
    exact h p.1 ⟨p, hp, rfl⟩ q.1 ⟨q, hq, rfl⟩ heq
  · rintro h _ ⟨p, hp, rfl⟩ _ ⟨q, hq, rfl⟩ heq
    exact h p hp q hq heq

/-- With one spelling for each name, what is written last is all that is sent. -/
theorem valuesUnder_ofPairs (h : OneSpelling fold pairs) (name : String) :
    valuesUnder fold (.ofPairs pairs) name = (lastUnder fold pairs name).toList := by
  have hkeys : ∀ p ∈ Entries.ofPairs pairs, ∃ q ∈ pairs, q.1 = p.1 := by
    intro p hp
    exact Entries.mem_keys_ofPairs.mp (List.mem_map_of_mem hp)
  by_cases hmem : ∃ q ∈ pairs, fold q.1 = fold name
  · obtain ⟨q, hq, hname⟩ := hmem
    -- Among the headers to be written, to be taken for the name is to be spelled as this one.
    have hsame : ∀ p ∈ pairs, fold p.1 = fold name ↔ p.1 = q.1 := by
      intro p hp
      constructor
      · intro hp'
        exact h p hp q hq (hp'.trans hname.symm)
      · intro hp'
        rw [hp', hname]
    have hsent : (Entries.ofPairs pairs).filter (fun p => fold p.1 = fold name) =
        (Entries.ofPairs pairs).filter fun p => p.1 = q.1 := by
      apply List.filter_congr
      intro p hp
      obtain ⟨p', hp', heq⟩ := hkeys p hp
      rw [← heq]
      exact decide_eq_decide.mpr (hsame p' hp')
    have hwritten : pairs.filter (fun p => fold p.1 = fold name) =
        pairs.filter fun p => p.1 = q.1 := by
      apply List.filter_congr
      intro p hp
      exact decide_eq_decide.mpr (hsame p hp)
    rw [valuesUnder, hsent, Entries.filter_key (Entries.nodup_keys_ofPairs pairs),
      Entries.get?_ofPairs, lastUnder, hwritten]
  · have hwritten : pairs.filter (fun p => fold p.1 = fold name) = [] := by
      rw [List.filter_eq_nil_iff]
      intro p hp
      simpa using fun heq => hmem ⟨p, hp, heq⟩
    have hsent : (Entries.ofPairs pairs).filter (fun p => fold p.1 = fold name) = [] := by
      rw [List.filter_eq_nil_iff]
      intro p hp
      obtain ⟨q, hq, heq⟩ := hkeys p hp
      simpa using fun hp' => hmem ⟨q, hq, by rw [heq, hp']⟩
    rw [valuesUnder, lastUnder, hwritten, hsent]
    rfl

end Web

namespace Connector

/-- The header that proves who calls, if the connector has what it takes. -/
def authHeader? (c : Connector) : Option (String × String) :=
  if c.authConfig.isEmpty then none
  else
    match c.authType with
    | .none => none
    | .bearer => (c.authSetting? "token").map fun token => ("Authorization", "Bearer " ++ token)
    | .apiKey =>
      (c.authSetting? "key").map fun key => ((c.authSetting? "headerName").getD "X-API-Key", key)
    | .basic =>
      let user := (c.authConfig.get? "username").getD ""
      let password := (c.authConfig.get? "password").getD ""
      let octets := (user ++ ":" ++ password).toUTF8.toList.map UInt8.toNat
      some ("Authorization", "Basic " ++ String.ofList (Text.base64 octets))

theorem authorize_eq (c : Connector) (headers : Entries String) :
    c.authorize headers = headers.putAll c.authHeader?.toList := by
  unfold authorize authHeader?
  split
  · rfl
  · cases c.authType with
    | none => rfl
    | bearer => cases c.authSetting? "token" <;> rfl
    | apiKey => cases c.authSetting? "key" <;> rfl
    | basic => rfl

end Connector

namespace Web

variable (fold : String → String) (c : Connector) (headers : Entries Value)

/-- The headers that every request has unless they are written anew. -/
def builtInHeaders : List (String × String) := [("Content-Type", "application/json")]

def writtenHeaders : List (String × String) :=
  builtInHeaders ++ c.defaultHeaders ++ headers.mapValues Value.display ++ c.authHeader?.toList

theorem headerTexts_eq {headers : Entries Value} {texts : Entries String}
    (h : headerTexts headers = .ok texts) : texts = headers.mapValues Value.display := by
  induction headers generalizing texts with
  | nil =>
    cases h
    rfl
  | cons header rest ih =>
    obtain ⟨name, v⟩ := header
    rw [headerTexts, Value.shown] at h
    obtain ⟨-, ht⟩ | ⟨-, ht⟩ := v.printed_cases Value.display
    · cases hr : headerTexts rest with
      | error fault =>
        rw [ht, hr] at h
        cases h
      | ok texts' =>
        rw [ht, hr] at h
        cases h
        rw [ih hr]
        rfl
    · rw [ht] at h
      cases h

theorem headers_request {timeout : Value} {method : String} {path : Option String}
    {body : Entries Value} {formed : Request}
    (h : request timeout c method path headers body = .ok formed) :
    formed.headers = .ofPairs (writtenHeaders c headers) := by
  obtain ⟨texts, htexts, -, hheaders⟩ := texts_of_request h
  rw [hheaders]
  simp only [Connector.authorize_eq, headerTexts_eq htexts, writtenHeaders, Entries.ofPairs,
    Entries.putAll, List.foldl_append]
  rfl

/-- What counts under a name: the proof of who calls before the headers of the node, these before those
of the connector, and these before what is built in. -/
def effective (name : String) : Option String :=
  (lastUnder fold c.authHeader?.toList name).or <|
    (lastUnder fold (headers.mapValues Value.display) name).or <|
      (lastUnder fold c.defaultHeaders name).or (lastUnder fold builtInHeaders name)

theorem lastUnder_writtenHeaders (name : String) :
    lastUnder fold (writtenHeaders c headers) name = effective fold c headers name := by
  rw [writtenHeaders, lastUnder_append, lastUnder_append, lastUnder_append, effective]

/-- The headers that are sent for a node by a connector. No two of them are taken for the same exactly
if none was written in two spellings, and then what counts under a name is all that is sent under
it. -/
structure Layered (sent : Entries String) : Prop where
  unambiguous : Unambiguous fold sent ↔ OneSpelling fold (writtenHeaders c headers)
  values : OneSpelling fold (writtenHeaders c headers) →
    ∀ name, valuesUnder fold sent name = (effective fold c headers name).toList

theorem layered_ofPairs : Layered fold c headers (.ofPairs (writtenHeaders c headers)) where
  unambiguous := unambiguous_iff
  values h name := by rw [valuesUnder_ofPairs h, lastUnder_writtenHeaders]

end Web

namespace Exchange

def requests (t : List Exchange) : List Web.Request :=
  t.filterMap fun e =>
    match e.request with
    | .send request => some request
    | _ => none

variable {t t' : List Exchange}

theorem requests_append : requests (t ++ t') = requests t ++ requests t' := List.filterMap_append

theorem AreLog.requests (h : AreLog t) : requests t = [] := filterMap_areLog (fun _ => rfl) h

end Exchange

namespace Step.CallService

open Doing Exchange

variable {services : Services} {node : Node} {c : Connector} {scene scene' : Scene}
  {t : List Exchange}

theorem path_webExchange {request : Web.Request} {place place' : Place}
    {result : Except Fault Web.Result} (h : (Web.exchange request).Path place t result place') :
    requests t = [request] := by
  obtain ⟨t₁, t₂, _, _, rfl, hask, hrest⟩ := path_bind.mp h
  obtain ⟨reply, rfl, rfl, rfl⟩ := path_ask.mp hask
  obtain ⟨t₃, t₄, _, _, rfl, hnote, hresult⟩ := path_bind.mp hrest
  obtain ⟨hlog, rfl, rfl⟩ := Act.path_noteAll hnote
  obtain ⟨rfl, rfl, rfl⟩ := path_ofExcept.mp hresult
  rw [requests_append, (hlog.append areLog_nil).requests]
  rfl

theorem path_webCall {timeout : Value} {method : String} {path : Option String}
    {headers body : Entries Value} {place place' : Place} {result : Except Fault Web.Result}
    (h : (Web.call timeout c method path headers body).Path place t result place') :
    ∀ request ∈ requests t, Web.request timeout c method path headers body = .ok request := by
  intro request hm
  have hformed := path_ofExcept_bind.mp h
  unfold Then at hformed
  split at hformed
  · rename_i formed hrequest
    rw [path_webExchange hformed, List.mem_singleton] at hm
    rw [hm, hrequest]
  · obtain ⟨rfl, -, -⟩ := hformed
    cases hm

theorem path_databaseExchange {statement queryType : String} {place place' : Place}
    {result : Except Fault Database.Answer}
    (h : (Database.exchange c statement queryType).Path place t result place') :
    requests t = [] := by
  obtain ⟨t₁, t₂, _, _, rfl, hask, hrest⟩ := path_bind.mp h
  obtain ⟨reply, rfl, rfl, rfl⟩ := path_ask.mp hask
  obtain ⟨t₃, t₄, first, _, rfl, hanswer, hnoted⟩ := path_bind.mp hrest
  obtain ⟨rfl, rfl, rfl⟩ := path_ofExcept.mp hanswer
  cases first with
  | error fault =>
    obtain ⟨rfl, -, -⟩ := hnoted
    rfl
  | ok answer =>
    obtain ⟨t₅, t₆, _, _, rfl, hnote, hpure⟩ := path_bind.mp hnoted
    obtain ⟨hlog, rfl, rfl⟩ := Act.path_noteAll hnote
    obtain ⟨rfl, -, -⟩ := path_pure.mp hpure
    rw [requests_append, List.nil_append, (hlog.append areLog_nil).requests]
    rfl

section Told

variable {α β : Type} {x : Work α} {f : α → Work β} {value : Except Fault α}
  {result : Except Fault β}

theorem path_told_bind
    (hx : ∀ {t first scene'}, x.Path scene t first scene' → AreLog t ∧ first = value ∧ scene' = scene)
    (h : (x >>= f).Path scene t result scene') :
    requests t = [] ∨ ∃ a rest, value = .ok a ∧ (f a).Path scene rest result scene' ∧
      requests t = requests rest := by
  obtain ⟨told, rest, first, _, rfl, hfirst, hrest⟩ := path_bind.mp h
  obtain ⟨hlog, rfl, rfl⟩ := hx hfirst
  rw [requests_append, hlog.requests, List.nil_append]
  cases first with
  | error fault =>
    obtain ⟨rfl, -, -⟩ := hrest
    exact .inl rfl
  | ok a => exact .inr ⟨a, rest, rfl, hrest, rfl⟩

end Told

/-- The requests of a node are made of its headers, with the references in them resolved. -/
def Sends (services : Services) (node : Node) (c : Connector) (scene : Scene)
    (row : List Web.Request) : Prop :=
  ∀ request ∈ row, ∃ headers method path body,
    Scope.settings ⟨scene.context, none⟩ (node.mapSetting "headers") = .ok headers ∧
      Web.request services.timeout c method path headers body = .ok request

theorem sends_nil : Sends services node c scene [] := by
  rintro _ ⟨⟩

variable {result : Except Fault Outcome}

theorem path_sendRequest (h : (sendRequest services node c).Path scene t result scene') :
    Sends services node c scene (requests t) := by
  obtain hnone | ⟨path, t₁, -, h, heq⟩ := path_told_bind Work.path_resolve (Work.path_scope.mp h)
  · exact hnone ▸ sends_nil
  rw [heq]
  obtain hnone | ⟨headers, t₂, hheaders, h, heq⟩ := path_told_bind Work.path_resolveAll h
  · exact hnone ▸ sends_nil
  rw [heq]
  obtain hnone | ⟨body, t₃, -, h, heq⟩ := path_told_bind Work.path_resolveAll h
  · exact hnone ▸ sends_nil
  rw [heq]
  obtain ⟨first, hact, -⟩ := path_map.mp h
  obtain ⟨place, hcall, -⟩ := Work.path_act.mp hact
  intro request hm
  exact ⟨headers, _, _, body, hheaders, path_webCall hcall request hm⟩

theorem path_runQuery (h : (runQuery node c).Path scene t result scene') : requests t = [] := by
  obtain hnone | ⟨statement, t₁, -, h, heq⟩ :=
    path_told_bind Work.path_resolve (Work.path_scope.mp h)
  · exact hnone
  rw [heq]
  split at h
  · obtain ⟨rfl, -, -⟩ := path_pure.mp h
    rfl
  · obtain ⟨first, hact, -⟩ := path_map.mp h
    obtain ⟨place, hexchange, -⟩ := Work.path_act.mp hact
    exact path_databaseExchange hexchange

def connector? (services : Services) (node : Node) : Option Connector :=
  services.connectors.get? (Text.trim (node.textSetting "connectorId" ""))

theorem path_execute (h : (execute services node).Path scene t result scene') :
    requests t = [] ∨
      ∃ c, connector? services node = some c ∧ Sends services node c scene (requests t) := by
  unfold execute at h
  dsimp only at h
  split at h
  · obtain ⟨rfl, -, -⟩ := path_pure.mp h
    exact .inl rfl
  · split at h
    · obtain ⟨rfl, -, -⟩ := path_pure.mp h
      exact .inl rfl
    · rename_i c hc
      split at h
      · exact .inl (path_runQuery h)
      · exact .inr ⟨c, hc, path_sendRequest h⟩

/-- The headers that go out are those of the connector and of the node, and the proof of who calls is
written last. If all names that differ in case only are spelled alike, no two of them are the same
for a receiver, and the later layer wins whatever the case; this is not so otherwise. With `id` for
`fold` the spellings are taken as they are, and then the later layer always wins. -/
theorem headers_sent (fold : String → String) :
    (∀ (timeout : Value) (c : Connector) (method : String) (path : Option String)
        (headers body : Entries Value) (request : Web.Request),
      Web.request timeout c method path headers body = .ok request →
        Web.Layered fold c headers request.headers) ∧
      ∀ (services : Services) (node : Node) (scene scene' : Scene) (t : List Exchange)
        (result : Except Fault Outcome), (execute services node).Path scene t result scene' →
        ∀ request ∈ requests t, ∃ c headers, connector? services node = some c ∧
          Scope.settings ⟨scene.context, none⟩ (node.mapSetting "headers") = .ok headers ∧
            Web.Layered fold c headers request.headers := by
  have hrequest : ∀ (timeout : Value) (c : Connector) (method : String) (path : Option String)
      (headers body : Entries Value) (request : Web.Request),
      Web.request timeout c method path headers body = .ok request →
        Web.Layered fold c headers request.headers := by
    intro timeout c method path headers body request hformed
    rw [Web.headers_request c headers hformed]
    exact Web.layered_ofPairs fold c headers
  refine ⟨hrequest, ?_⟩
  intro services node scene scene' t result hpath request hm
  obtain hnone | ⟨c, hc, hsends⟩ := path_execute hpath
  · rw [hnone] at hm
    cases hm
  · obtain ⟨headers, method, path, body, hheaders, hformed⟩ := hsends request hm
    exact ⟨c, headers, hc, hheaders, hrequest _ _ _ _ _ _ _ hformed⟩

namespace Spelled

def connector : Connector where
  id := "c"
  name := ""
  description := ""
  type := .rest
  baseUrl := some "https://host"
  authType := .bearer
  defaultHeaders := [("X-Team", "core"), ("Accept", "text/plain")]
  authConfig := [("token", "t")]
  databaseUrl := none
  dbUsername := none
  dbPassword := none
  extras := []

/-- With these headers of a node each layer is hidden by the next one. -/
theorem headers_sent_once :
    let headers : Entries Value := [("X-Team", .text "node"), ("Authorization", .text "none"),
      ("Content-Type", .text "text/html")]
    ∃ request, Web.request (.int 30) connector "GET" none headers [] = .ok request ∧
      Web.OneSpelling Text.lower (Web.writtenHeaders connector headers) ∧
      Web.Unambiguous Text.lower request.headers ∧
      Web.valuesUnder Text.lower request.headers "authorization" = ["Bearer t"] ∧
      Web.valuesUnder Text.lower request.headers "x-team" = ["node"] ∧
      Web.valuesUnder Text.lower request.headers "accept" = ["text/plain"] := by
  intro headers
  obtain ⟨request, hformed⟩ :
      ∃ request, Web.request (.int 30) connector "GET" none headers [] = .ok request := ⟨_, rfl⟩
  have hone : Web.OneSpelling Text.lower (Web.writtenHeaders connector headers) := by
    decide
  have hlayered : Web.Layered Text.lower connector headers request.headers :=
    (headers_sent Text.lower).1 (.int 30) connector "GET" none headers [] request hformed
  have hvalues := hlayered.values hone
  refine ⟨request, hformed, hone, hlayered.unambiguous.mpr hone, ?_, ?_, ?_⟩
  · rw [hvalues]
    decide
  · rw [hvalues]
    decide
  · rw [hvalues]
    decide

/-- A node that spells the name of the proof in small letters sends its own next to it. -/
theorem small_letters_sent_twice :
    ¬ ∀ (timeout : Value) (c : Connector) (method : String) (path : Option String)
      (headers body : Entries Value) (request : Web.Request),
      Web.request timeout c method path headers body = .ok request →
        Web.Unambiguous Text.lower request.headers := by
  intro hall
  have hsent := hall (.int 30) connector "GET" none [("authorization", .text "Basic x")] [] _ rfl
  rw [Web.headers_request connector [("authorization", .text "Basic x")] rfl,
    Web.unambiguous_iff] at hsent
  exact absurd hsent (by decide)

end Spelled

end Step.CallService

end FlowEngine
