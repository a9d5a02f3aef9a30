import FlowEngine.Proofs.Run.LoopItems
import FlowEngine.Proofs.Run.Stays
import FlowEngine.Proofs.Step.Aloof

/-!
# Observers

Whoever is told of a run has no part in it: a run is the same with a bus, with one that fails, and
without any. And a bus is told of the stays of the run at its nodes, one after the other.
-/

namespace FlowEngine

open Doing Attempt Exchange

namespace Site

variable {σ : Type} {o : Outside σ}

def observed (audience : Audience) (log : List Log.Entry) (site : Site σ) : Site σ :=
  { site with audience, log }

section Observed

variable (audience : Audience) (log : List Log.Entry) (site : Site σ)

theorem connect_observed (c : Connector) :
    connect o c (site.observed audience log) =
      ((connect o c site).1, (connect o c site).2.observed audience log) := by
  have hpool : (site.observed audience log).pool = site.pool := rfl
  have houtside : (site.observed audience log).outside = site.outside := rfl
  unfold connect
  rw [hpool]
  cases site.pool.get? c.id with
  | some address => rfl
  | none =>
    cases Database.addressOf o.readAddress c with
    | error reason => rfl
    | ok address =>
      dsimp only
      rw [houtside]
      obtain ⟨reason | _, outside⟩ := o.connect address site.outside <;> rfl

theorem query_observed (c : Connector) (statement queryType : String) :
    query o c statement queryType (site.observed audience log) =
      ((query o c statement queryType site).1,
        (query o c statement queryType site).2.observed audience log) := by
  unfold query
  rw [connect_observed]
  obtain ⟨(text | fault) | address, connected⟩ := connect o c site <;> rfl

theorem serve_observed {request : Request} (h : request.isTelling = false) :
    serve o request (site.observed audience log) =
      ((serve o request site).1, (serve o request site).2.observed audience log) := by
  cases request with
  | log record => cases h
  | publish event => cases h
  | query c statement queryType => exact query_observed audience log site c statement queryType
  | _ => rfl

end Observed

/-- Two sites that are the same but for who is told, and the log. -/
def SameButTold (s t : Site σ) : Prop := ∃ audience log, t = s.observed audience log

theorem SameButTold.symm {s t : Site σ} (h : SameButTold s t) : SameButTold t s := by
  obtain ⟨audience, log, rfl⟩ := h
  exact ⟨s.audience, s.log, rfl⟩

theorem SameButTold.trans {s t u : Site σ} (h : SameButTold s t) (h' : SameButTold t u) :
    SameButTold s u := by
  obtain ⟨audience, log, rfl⟩ := h
  obtain ⟨audience', log', rfl⟩ := h'
  exact ⟨audience', log', rfl⟩

/-- Where reading the time changes nothing, a site that is told something stays the same but for
that. -/
theorem sameButTold_serve (hclock : ∀ s, (o.now s).2 = s) {request : Request}
    (h : request.isTelling = true) (site : Site σ) : SameButTold site (serve o request site).2 := by
  cases request with
  | log record =>
    refine ⟨site.audience, ⟨(o.now site.outside).1, record⟩ :: site.log, ?_⟩
    change { site with
      outside := (o.now site.outside).2
      log := ⟨(o.now site.outside).1, record⟩ :: site.log } = _
    rw [hclock]
    rfl
  | publish event =>
    obtain ⟨outside, pool, _ | bus | reason, executions, log, starts⟩ := site
    · exact ⟨.nobody, log, rfl⟩
    · exact ⟨.bus (bus.publish event), log, rfl⟩
    · exact ⟨.broken reason, log, rfl⟩
  | _ => cases h

theorem indifferent_sameButTold (hclock : ∀ s, (o.now s).2 = s) :
    Indifferent (serve o) (serve o) SameButTold where
  told _ _ _ hr h := (sameButTold_serve hclock hr _).symm.trans h
  told' _ _ _ hr h := h.trans (sameButTold_serve hclock hr _)
  asked r s t hr h := by
    obtain ⟨audience, log, rfl⟩ := h
    rw [serve_observed audience log s hr]
    exact ⟨rfl, audience, log, rfl⟩

end Site

namespace Stay

theorem nodes_recorded {stay : Stay} (h : stay.node.type ≠ .start) :
    stay.recorded.nodes.get? stay.node.id = some stay.outcome := by
  obtain ⟨nodes, aliases, nex, hr, hn⟩ := Engine.recorded_eq stay.node stay.outcome stay.tried.context
  rw [recorded, hr, hn, if_neg h]
  exact Entries.get?_put_self _ _ _

end Stay

namespace Engine

variable {engine : Engine} {graph : FlowGraph} {executionId : String} {payload : Entries Value}
  {place place' : Place} {t : List Exchange} {passage : Passage}

/-- The executors that come with the engine, but for the one that calls other flows, publish
nothing. -/
theorem silent_of_standard
    (h : ∀ entry ∈ engine.registry.entries, Step.Standard entry ∧ entry.1 ≠ .subFlow) :
    engine.Silent := by
  intro entry he node scene t result scene' hpath
  obtain ⟨⟨settings, connectors, launcher, hexecutor⟩, htype⟩ := h entry he
  have hserved : Request.Served (fun r => r.publishes = false) :=
    ⟨fun _ => rfl, fun _ => rfl, fun _ _ _ => rfl, fun _ => rfl, fun _ _ _ => rfl⟩
  have haloof : Work.Aloof (fun r => r.publishes = false) (entry.2 node) :=
    Step.aloof_executor node hserved settings connectors launcher htype hexecutor
  exact (haloof scene t result scene' hpath).1

theorem path_follow (hs : engine.Silent)
    (h : (engine.follow graph executionId payload).Path place t (.ok passage) place') :
    ∃ now later scene scene' stays, scene.context = opening graph executionId payload now ∧
      Stays engine graph (engine.limit graph) (Walk.starting (startOf graph)) scene stays
        passage.walk scene' ∧
      passage.context = closed passage.walk later scene'.context ∧
      Carries t (stays.flatMap Stay.events) (stays.flatMap fun stay => stay.trials.all) := by
  obtain ⟨now, t₁, rfl, h₁⟩ := Dialogue.path_ask.mp h
  obtain ⟨t₂, t₃, ⟨result, scene₁⟩, rfl, hperform, hend⟩ := Dialogue.path_bind.mp h₁
  obtain ⟨rfl, hpassage⟩ := Dialogue.path_done.mp hend
  cases result with
  | error fault => cases hpassage
  | ok walk =>
    obtain rfl : ⟨walk, scene₁.context⟩ = passage := Except.ok.inj (congrArg Prod.fst hpassage)
    obtain ⟨stays, scene₂, later, hstays, rfl, hcarries⟩ := path_perform hs hperform
    refine ⟨now, later, _, scene₂, stays, rfl, hstays, rfl, ?_, ?_⟩
    · rw [List.append_nil]
      exact hcarries.published
    · rw [List.append_nil]
      exact hcarries.asked.trans (List.sublist_cons_self _ _)

variable {σ : Type}

/-- Who is told makes no difference to a run whose executors publish nothing. A bus is told of the
stays of a run that ends without a fault, in order, and of nothing else; they are those of the order in
which its nodes were executed, where executors leave that order alone. -/
theorem follow_observed (engine : Engine) (graph : FlowGraph) (executionId : String)
    (payload : Entries Value) (place : Place) (o : Outside σ) (site : Site σ) (hs : engine.Silent)
    (hclock : ∀ s, (o.now s).2 = s) :
    let run (audience : Audience) : (Except Fault Passage × Place) × Site σ :=
      Site.perform o place (engine.follow graph executionId payload) { site with audience }
    (∀ audience audience', (run audience).1 = (run audience').1) ∧
    ∀ bus passage place' site', run (.bus bus) = ((.ok passage, place'), site') →
      ∃ now later scene scene' stays, scene.context = opening graph executionId payload now ∧
        Stays engine graph (engine.limit graph) (Walk.starting (startOf graph)) scene stays
          passage.walk scene' ∧
        passage.context = closed passage.walk later scene'.context ∧
        site'.audience = .bus ((stays.flatMap Stay.events).foldl Bus.publish bus) ∧
        ((stays.flatMap fun stay => stay.trials.all).flatMap Trial.asked).Sublist
          ((engine.follow graph executionId payload place).transcript (Site.serve o)
            { site with audience := .bus bus }) ∧
        (∀ stay ∈ stays, stay.node.type ≠ .start →
          stay.recorded.nodes.get? stay.node.id = some stay.outcome) ∧
        (engine.Keeps Context.order → passage.context.order = stays.map fun stay => stay.node.id) := by
  constructor
  · intro audience audience'
    have hsame : Site.SameButTold { site with audience } { site with audience := audience' } :=
      ⟨audience', site.log, rfl⟩
    exact (follow_indifferent (Site.indifferent_sameButTold hclock) hs hsame).1
  · intro bus passage place' site' hrun
    have hresult : ((engine.follow graph executionId payload place).run (Site.serve o)
        { site with audience := .bus bus }).1 = (.ok passage, place') := congrArg Prod.fst hrun
    have hsite : site' = ((engine.follow graph executionId payload place).run (Site.serve o)
        { site with audience := .bus bus }).2 := (congrArg Prod.snd hrun).symm
    have hpath := (engine.follow graph executionId payload place).path_transcript (Site.serve o)
      { site with audience := .bus bus }
    rw [hresult] at hpath
    obtain ⟨now, later, scene, scene', stays, hopen, hstays, hclosed, hcarries⟩ := path_follow hs hpath
    refine ⟨now, later, scene, scene', stays, hopen, hstays, hclosed, ?_, hcarries.asked, ?_, ?_⟩
    · rw [hsite, Dialogue.run_snd, Site.audience_after rfl, hcarries.published]
    · intro stay _ hstart
      exact Stay.nodes_recorded hstart
    · intro hkeeps
      have horder := ensures_iff_forall_path.mp follow_order _ _ _ hpath passage rfl hkeeps
      rw [horder, Walk.executed, hstays.visits, List.map_append, List.map_map]
      rfl

end Engine

namespace Observing

def flow : FlowGraph :=
  .plain [.plainStart, .plainMapper "m" "1", .plainEnd]
    [("start", "m", .always), ("m", "done", .success)]

def site : Site Alone := .fresh ⟨⟨2024, 1, 2, 3, 4, 5, 0, some 0⟩, mkStdGen 0⟩ .nobody

def run (audience : Audience) : (Except Fault Passage × Place) × Site Alone :=
  Site.perform Alone.outside .outside (Engine.plain.follow flow "run" []) { site with audience }

theorem plain_silent : Engine.plain.Silent := by
  apply Engine.silent_of_standard
  intro entry he
  refine ⟨Engine.plain_standard entry he, ?_⟩
  simp only [Engine.plain, List.mem_cons, List.not_mem_nil, or_false] at he
  rcases he with rfl | rfl | rfl | rfl <;> decide

/-- Its run ends without a fault, whoever is told, and a bus is told of the stays at its nodes. -/
theorem run_told :
    (run .nobody).1 = (run (.broken "away")).1 ∧
    ∃ passage place' site', run (.bus .default) = ((.ok passage, place'), site') ∧
      ∃ stays : List Stay, stays.map (fun stay => stay.node.id) = ["start", "m", "done"] ∧
        site'.audience = .bus ((stays.flatMap Stay.events).foldl Bus.publish .default) := by
  have h := Engine.plain.follow_observed flow "run" [] .outside Alone.outside site plain_silent
    fun _ => rfl
  refine ⟨h.1 _ _, ?_⟩
  have horder : (run (.bus .default)).1.1.map (fun passage => passage.context.order) =
      .ok ["start", "m", "done"] := by decide +kernel
  cases hrun : run (.bus .default) with
  | mk ended site' =>
    obtain ⟨fault | passage, place'⟩ := ended
    · rw [hrun] at horder
      cases horder
    · rw [hrun] at horder
      obtain ⟨now, later, scene, scene', stays, -, -, -, htold, -, -, hkept⟩ := h.2 _ _ _ _ hrun
      have hnodes := (hkept Retried.plain_keeps_order).symm.trans (Except.ok.inj horder)
      exact ⟨passage, place', site', rfl, stays, hnodes, htold⟩

end Observing

end FlowEngine
