import FlowEngine.Proofs.Model.Reply
import FlowEngine.Proofs.Work.Transcript
import FlowEngine.Step.AskModel

/-!
# Asking a model

A node asks a model once, and a second time exactly if the first answer holds no object and no list.
The second request is the first one with a nudge. How the node ends hangs on the last answer alone.
-/

namespace FlowEngine

open Doing Exchange

namespace Exchange

def completions (t : List Exchange) : List Model.Call :=
  t.filterMap fun e =>
    match e.request with
    | .complete call => some call
    | _ => none

variable {t t' : List Exchange}

theorem completions_append : completions (t ++ t') = completions t ++ completions t' :=
  List.filterMap_append

theorem AreLog.completions (h : AreLog t) : completions t = [] := filterMap_areLog (fun _ => rfl) h

def texts (t : List Exchange) : List String :=
  t.filterMap fun
    | ⟨.complete _, .completion text _ _ _⟩ => text
    | _ => none

/-- No text that a model has said holds an integer of too many digits where it is read. -/
def RepliesReadable (t : List Exchange) : Prop := ∀ text ∈ texts t, Reply.Readable text

theorem repliesReadable_append :
    RepliesReadable (t ++ t') ↔ RepliesReadable t ∧ RepliesReadable t' := by
  rw [RepliesReadable, texts, List.filterMap_append]
  exact List.forall_mem_append

theorem RepliesReadable.left (h : RepliesReadable (t ++ t')) : RepliesReadable t :=
  (repliesReadable_append.mp h).1

theorem RepliesReadable.right (h : RepliesReadable (t ++ t')) : RepliesReadable t' :=
  (repliesReadable_append.mp h).2

end Exchange

namespace Step.AskModel

variable {client : Model.Client} {credentials : Credentials} {request : Model.Request}
  {place place' : Place} {t : List Exchange}

section Call

/-- The call that is made of a request, if one is. -/
def sent? (client : Model.Client) (credentials : Credentials) (request : Model.Request) :
    Option Model.Call :=
  match Model.prepare client credentials request with
  | .ok (.ok (_, call)) => some call
  | _ => none

def AnswerReadable : Model.Answer → Prop
  | .completed text _ _ _ => Reply.Readable text
  | .failed _ _ => True

theorem answerReadable_answer {call : Model.Call} {reply : Model.Reply} (model : String)
    (h : RepliesReadable [⟨.complete call, reply⟩]) :
    AnswerReadable (Model.answer model reply) := by
  cases reply with
  | completion content inputTokens outputTokens named =>
    cases content with
    | none => exact ⟨none, rfl⟩
    | some text => exact h text (List.mem_singleton.mpr rfl)
  | nothing => trivial
  | broken text => trivial

/-- Whether a request can be read hangs on its model. One of which no call is made fails. -/
theorem prepare_cases (client : Model.Client) (credentials : Credentials) (request : Model.Request) :
    (∃ fault, Model.modelSetting request.model = .error fault ∧
      Model.prepare client credentials request = .error fault) ∨
    ∃ name, Model.modelSetting request.model = .ok name ∧
      ((∃ error model, Model.prepare client credentials request = .ok (.error (.failed error model))) ∨
        ∃ sent, Model.prepare client credentials request = .ok (.ok sent)) := by
  unfold Model.prepare
  cases Model.modelSetting request.model with
  | error fault => exact .inl ⟨fault, rfl, rfl⟩
  | ok name =>
    refine .inr ⟨name, rfl, ?_⟩
    simp only [Bind.bind, Except.bind]
    split
    · exact .inl ⟨_, _, rfl⟩
    · split
      · exact .inl ⟨_, _, rfl⟩
      · exact .inr ⟨_, rfl⟩

/-- A request that can be read is answered, by a model only if it becomes a call. -/
theorem path_call {result : Except Fault Model.Answer} (hreplies : RepliesReadable t)
    (h : (call client credentials request).Path place t result place') :
    (∃ fault, Model.modelSetting request.model = .error fault ∧ t = [] ∧ result = .error fault) ∨
    ∃ name, Model.modelSetting request.model = .ok name ∧ ∃ answer, result = .ok answer ∧
      AnswerReadable answer ∧ completions t = (sent? client credentials request).toList := by
  obtain ⟨t₁, t₂, prepared, place₁, rfl, hprepare, hrest⟩ := path_bind.mp h
  obtain ⟨rfl, rfl, rfl⟩ := path_ofExcept.mp hprepare
  unfold sent?
  obtain ⟨fault, hmodel, hp⟩ | ⟨name, hmodel, ⟨error, model, hp⟩ | ⟨⟨model, call⟩, hp⟩⟩ :=
    prepare_cases client credentials request
  · rw [hp] at hrest
    obtain ⟨rfl, rfl, rfl⟩ := hrest
    exact .inl ⟨fault, hmodel, rfl, rfl⟩
  · rw [hp] at hrest
    obtain ⟨rfl, rfl, rfl⟩ := path_pure.mp hrest
    exact .inr ⟨name, hmodel, _, rfl, trivial, by rw [hp]; rfl⟩
  · rw [hp] at hrest
    obtain ⟨t₃, t₄, _, place₂, rfl, hask, hnoted⟩ := path_bind.mp hrest
    obtain ⟨reply, rfl, rfl, rfl⟩ := path_ask.mp hask
    obtain ⟨t₅, t₆, _, place₃, rfl, hnote, hpure⟩ := path_bind.mp hnoted
    obtain ⟨hlog, rfl, rfl⟩ := Act.path_noteAll hnote
    obtain ⟨rfl, rfl, rfl⟩ := path_pure.mp hpure
    refine .inr ⟨name, hmodel, _, rfl, answerReadable_answer model hreplies.right.left, ?_⟩
    rw [hp, List.nil_append, completions_append, (hlog.append areLog_nil).completions]
    rfl

end Call

section Question

variable {settings : Settings} {node : Node} {question : Question} {scene scene' : Scene}
  {result : Except Fault Outcome}

def nudged (request : Model.Request) : Model.Request :=
  { request with user := request.user ++ Prompt.nudge }

/-- An answer whose text holds no object and no list. -/
def Unread (answer : Model.Answer) : Prop :=
  ∃ text inputTokens outputTokens model, answer = .completed text inputTokens outputTokens model ∧
    Reply.extract (some text) = .ok none

/-- The requests of a question and their answers, and the last answer: a second request follows exactly
if the answer to the first one is unread. -/
inductive Asks (question : Question) :
    List (Model.Request × Model.Answer) → Model.Answer → Prop where
  | once {answer : Model.Answer} (h : ¬ Unread answer) :
      Asks question [(question.request, answer)] answer
  | twice {first last : Model.Answer} (h : Unread first) :
      Asks question [(question.request, first), (nudged question.request, last)] last

/-- How a node ends by the last answer. It tells of the tokens that were counted, so a count that no
text is made of is a fault. -/
inductive Ends (question : Question) : Model.Answer → Except Fault Outcome → Prop where
  | success {text model : String} {inputTokens outputTokens v : Value} {outcome : Outcome}
      (hv : Reply.extract (some text) = .ok (some v)) (hin : inputTokens.isPrintable = true)
      (hout : outputTokens.isPrintable = true) (hstatus : outcome.status = .success)
      (houtput : outcome.successOutput = some [("result", v), ("model", .text model),
        ("inputTokens", inputTokens), ("outputTokens", outputTokens),
        ("provider", .text question.request.provider.name), ("rawResponse", .text text),
        ("resolvedPrompt", .text question.resolved)]) :
      Ends question (.completed text inputTokens outputTokens model) (.ok outcome)
  | untold {text model : String} {inputTokens outputTokens v : Value}
      (hv : Reply.extract (some text) = .ok (some v))
      (h : inputTokens.isPrintable = false ∨ outputTokens.isPrintable = false) :
      Ends question (.completed text inputTokens outputTokens model) (.error .unprintable)
  | failure {answer : Model.Answer} {outcome : Outcome}
      (h : ∀ text inputTokens outputTokens model v,
        answer = .completed text inputTokens outputTokens model →
          Reply.extract (some text) ≠ .ok (some v))
      (hstatus : outcome.status = .failure) : Ends question answer (.ok outcome)

/-- A row of what is asked when these requests get these answers, one after the other. -/
inductive Made (client : Model.Client) (credentials : Credentials) :
    Place → List (Model.Request × Model.Answer) → List Exchange → Prop where
  | nothing {place : Place} {t : List Exchange} (h : AreLog t) : Made client credentials place [] t
  | call {place place' : Place} {told row rest : List Exchange} {request : Model.Request}
      {answer : Model.Answer} {calls : List (Model.Request × Model.Answer)} (htold : AreLog told)
      (h : (call client credentials request).Path place row (.ok answer) place')
      (hrest : Made client credentials place' calls rest) :
      Made client credentials place ((request, answer) :: calls) (told ++ (row ++ rest))

theorem path_refuse {error : String} {input : Entries Value}
    (h : (refuse node error input).Path scene t result scene') :
    AreLog t ∧ ∃ outcome, result = .ok outcome ∧ outcome.status = .failure := by
  obtain ⟨told, rest, rfl, htold, hpure⟩ := Work.path_note_bind h
  obtain ⟨rfl, rfl, rfl⟩ := path_pure.mp hpure
  exact ⟨htold.append areLog_nil, _, rfl, rfl⟩

theorem ends_failed {error : String} {model : Option String} {outcome : Outcome}
    (h : outcome.status = .failure) : Ends question (.failed error model) (.ok outcome) :=
  .failure (fun _ _ _ _ _ heq => by cases heq) h

theorem path_conclude {text model : String} {inputTokens outputTokens : Value}
    {found : Option Value} (hfound : Reply.extract (some text) = .ok found)
    (h : (conclude node question ⟨text, found, inputTokens, outputTokens, model⟩).Path
      scene t result scene') :
    AreLog t ∧ Ends question (.completed text inputTokens outputTokens model) result := by
  cases found with
  | none =>
    obtain ⟨hlog, outcome, rfl, hstatus⟩ := path_refuse h
    refine ⟨hlog, .failure ?_ hstatus⟩
    intro text' _ _ _ v heq hv
    cases heq
    rw [hfound] at hv
    cases hv
  | some v =>
    unfold conclude at h
    dsimp only at h
    rw [Value.shown, Value.shown] at h
    obtain ⟨hin, hi⟩ | ⟨hin, hi⟩ := inputTokens.printed_cases Value.display
    · obtain ⟨hout, ho⟩ | ⟨hout, ho⟩ := outputTokens.printed_cases Value.display
      · rw [hi, ho, ofExcept_ok_bind, ofExcept_ok_bind] at h
        obtain ⟨told, rest, rfl, htold, hpure⟩ := Work.path_note_bind h
        obtain ⟨rfl, rfl, rfl⟩ := path_pure.mp hpure
        exact ⟨htold.append areLog_nil, .success hfound hin hout rfl rfl⟩
      · rw [hi, ho, ofExcept_ok_bind] at h
        obtain ⟨rfl, rfl, rfl⟩ := path_ofExcept_bind.mp h
        exact ⟨areLog_nil, .untold hfound (.inr hout)⟩
    · rw [hi] at h
      obtain ⟨rfl, rfl, rfl⟩ := path_ofExcept_bind.mp h
      exact ⟨areLog_nil, .untold hfound (.inl hin)⟩

theorem said_cases {answer : Model.Answer} (h : AnswerReadable answer) :
    (∃ error model, answer = .failed error model ∧ said answer = .ok (.error error)) ∨
    ∃ text inputTokens outputTokens model found,
      answer = .completed text inputTokens outputTokens model ∧
      Reply.extract (some text) = .ok found ∧
      said answer = .ok (.ok ⟨text, found, inputTokens, outputTokens, model⟩) := by
  cases answer with
  | failed error model => exact .inl ⟨error, model, rfl, rfl⟩
  | completed text inputTokens outputTokens model =>
    obtain ⟨found, hfound⟩ := h
    exact .inr ⟨text, inputTokens, outputTokens, model, found, rfl, hfound, by rw [said, hfound]; rfl⟩

theorem path_answered {refusal : String → Work Outcome} {goOn : Said → Work Outcome}
    {name : Option String} (hmodel : Model.modelSetting request.model = .ok name)
    (hreplies : RepliesReadable t)
    (h : (Work.act (call client credentials request) >>= fun answer =>
      Doing.ofExcept (said answer) >>= fun
        | .error error => refusal error
        | .ok said => goOn said).Path scene t result scene') :
    ∃ row rest place answer, t = row ++ rest ∧
      (call client credentials request).Path scene.place row (.ok answer) place ∧
      ((∃ error model, answer = .failed error model ∧
          (refusal error).Path { scene with place } rest result scene') ∨
        ∃ text inputTokens outputTokens model found,
          answer = .completed text inputTokens outputTokens model ∧
          Reply.extract (some text) = .ok found ∧
          (goOn ⟨text, found, inputTokens, outputTokens, model⟩).Path { scene with place } rest
            result scene') := by
  obtain ⟨row, behind, answer, scene₁, rfl, hact, hrest⟩ := path_bind.mp h
  obtain ⟨place, hcall, rfl⟩ := Work.path_act.mp hact
  obtain ⟨fault, hfault, -, -⟩ | ⟨-, -, answer, rfl, hreadable, -⟩ :=
    path_call hreplies.left hcall
  · cases hmodel.symm.trans hfault
  · obtain ⟨t₁, rest, _, scene₂, rfl, hsaid, hend⟩ := path_bind.mp hrest
    obtain ⟨rfl, rfl, rfl⟩ := path_ofExcept.mp hsaid
    refine ⟨row, rest, place, answer, rfl, hcall, ?_⟩
    obtain ⟨error, model, rfl, hanswer⟩ |
      ⟨text, inputTokens, outputTokens, model, found, rfl, hfound, hanswer⟩ := said_cases hreadable
    · rw [hanswer] at hend
      exact .inl ⟨error, model, rfl, hend⟩
    · rw [hanswer] at hend
      exact .inr ⟨text, inputTokens, outputTokens, model, found, rfl, hfound, hend⟩

theorem path_askAgain {name : Option String}
    (hmodel : Model.modelSetting question.request.model = .ok name) (hreplies : RepliesReadable t)
    (h : (askAgain settings node question).Path scene t result scene') :
    ∃ last, Made settings.client question.credentials scene.place
      [(nudged question.request, last)] t ∧ Ends question last result := by
  obtain ⟨told, rest, rfl, htold, hnoted⟩ := Work.path_note_bind h
  have hnudged : Model.modelSetting (nudged question.request).model = .ok name := hmodel
  have hasked : (Work.act (call settings.client question.credentials (nudged question.request)) >>=
      fun answer => Doing.ofExcept (said answer) >>= fun
        | .error error => refuse node ("LLM retry failed: " ++ error) []
        | .ok said => conclude node question said).Path scene rest result scene' := hnoted
  obtain ⟨row, behind, place, answer, rfl, hcall, ⟨error, model, rfl, hend⟩ |
    ⟨text, inputTokens, outputTokens, model, found, rfl, hfound, hend⟩⟩ :=
      path_answered hnudged hreplies.right hasked
  · obtain ⟨hlog, outcome, rfl, hstatus⟩ := path_refuse hend
    exact ⟨_, .call htold hcall (.nothing hlog), ends_failed hstatus⟩
  · obtain ⟨hlog, hends⟩ := path_conclude hfound hend
    exact ⟨_, .call htold hcall (.nothing hlog), hends⟩

/-- A question is asked once or twice, and the node ends by the last answer. -/
theorem path_ask {name : Option String}
    (hmodel : Model.modelSetting question.request.model = .ok name) (hreplies : RepliesReadable t)
    (h : (ask settings node question).Path scene t result scene') :
    ∃ calls last, Made settings.client question.credentials scene.place calls t ∧
      Asks question calls last ∧ Ends question last result := by
  obtain ⟨row, behind, place, answer, rfl, hcall, ⟨error, model, rfl, hend⟩ |
    ⟨text, inputTokens, outputTokens, model, found, rfl, hfound, hend⟩⟩ :=
      path_answered hmodel hreplies h
  · obtain ⟨hlog, outcome, rfl, hstatus⟩ := path_refuse hend
    refine ⟨_, _, .call areLog_nil hcall (.nothing hlog), .once ?_, ends_failed hstatus⟩
    rintro ⟨_, _, _, _, heq, -⟩
    cases heq
  · cases found with
    | some v =>
      obtain ⟨hlog, hends⟩ := path_conclude hfound hend
      refine ⟨_, _, .call areLog_nil hcall (.nothing hlog), .once ?_, hends⟩
      rintro ⟨_, _, _, _, heq, hnone⟩
      cases heq
      rw [hfound] at hnone
      cases hnone
    | none =>
      obtain ⟨last, hmade, hends⟩ := path_askAgain hmodel hreplies.right hend
      exact ⟨_, last, .call areLog_nil hcall hmade,
        .twice ⟨text, inputTokens, outputTokens, model, rfl, hfound⟩, hends⟩

theorem path_ask_unnamed {fault : Fault}
    (hmodel : Model.modelSetting question.request.model = .error fault) (hreplies : RepliesReadable t)
    (h : (ask settings node question).Path scene t result scene') :
    t = [] ∧ result = .error fault := by
  obtain ⟨row, behind, answer, scene₁, rfl, hact, hrest⟩ := path_bind.mp h
  obtain ⟨place, hcall, rfl⟩ := Work.path_act.mp hact
  obtain ⟨other, hother, rfl, rfl⟩ | ⟨name, hname, -⟩ := path_call hreplies.left hcall
  · cases hmodel.symm.trans hother
    obtain ⟨rfl, rfl, rfl⟩ := hrest
    exact ⟨rfl, rfl⟩
  · cases hmodel.symm.trans hname

theorem Made.completions {calls : List (Model.Request × Model.Answer)}
    (h : Made client credentials place calls t) (hreplies : RepliesReadable t) :
    completions t = calls.filterMap fun asked => sent? client credentials asked.1 := by
  induction h with
  | nothing h => exact h.completions
  | call htold h hrest ih =>
    obtain ⟨fault, -, -, hresult⟩ | ⟨-, -, -, -, -, hsent⟩ := path_call hreplies.right.left h
    · cases hresult
    · rw [completions_append, completions_append, htold.completions, hsent,
        ih hreplies.right.right, List.nil_append, List.filterMap_cons]
      cases sent? client credentials _ <;> rfl

end Question

end Step.AskModel

end FlowEngine
