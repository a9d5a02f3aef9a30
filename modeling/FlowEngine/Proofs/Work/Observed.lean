import FlowEngine.Proofs.Run.Compatible
import FlowEngine.Proofs.Work.Telling

/-!
# Runs that are observed

No reply to a log line or an event changes what a run does. So two surroundings that reply alike to all
else, and between which it makes no difference what one of them is told, have the same run, whatever
becomes of the events.
-/

namespace FlowEngine

open Doing

def Request.publishes : Request → Bool
  | .publish _ => true
  | _ => false

def Work.Silent {α : Type} (x : Work α) : Prop :=
  ∀ scene t result scene', x.Path scene t result scene' → ∀ e ∈ t, e.request.publishes = false

variable {σ τ α β : Type} {serve : (r : Request) → σ → r.Reply × σ}
  {serve' : (r : Request) → τ → r.Reply × τ} {Same : σ → τ → Prop} {s s' : σ} {t t' : τ}

/-- Surroundings that reply alike, and stay the same for each other whatever one of them is told. -/
structure Indifferent (serve : (r : Request) → σ → r.Reply × σ)
    (serve' : (r : Request) → τ → r.Reply × τ) (Same : σ → τ → Prop) : Prop where
  told : ∀ (r : Request) s t, r.isTelling = true → Same s t → Same (serve r s).2 t
  told' : ∀ (r : Request) s t, r.isTelling = true → Same s t → Same s (serve' r t).2
  asked : ∀ (r : Request) s t, r.isTelling = false → Same s t →
    (serve r s).1 = (serve' r t).1 ∧ Same (serve r s).2 (serve' r t).2

namespace Indifferent

variable (h : Indifferent serve serve' Same)

include h

theorem hears (hs : Hears serve s s') (hsame : Same s t) : Same s' t := by
  induction hs with
  | nothing => exact hsame
  | more r hr _ ih => exact ih (h.told r _ t hr hsame)

theorem hears' (ht : Hears serve' t t') (hsame : Same s t) : Same s t' := by
  induction ht with
  | nothing => exact hsame
  | more r hr _ ih => exact ih (h.told' r s _ hr hsame)

theorem replied {r : Request} (hr : r.publishes = false) (hsame : Same s t) :
    (serve r s).1 = (serve' r t).1 ∧ Same (serve r s).2 (serve' r t).2 := by
  cases r with
  | publish event => cases hr
  | log record => exact ⟨rfl, h.told' _ _ _ rfl (h.told _ _ _ rfl hsame)⟩
  | _ => exact h.asked _ s t rfl hsame

theorem run_eq {x : Dialogue α}
    (hx : ∀ row a, x.Path row a → ∀ e ∈ row, e.request.publishes = false) (hsame : Same s t) :
    (x.run serve s).1 = (x.run serve' t).1 ∧ Same (x.run serve s).2 (x.run serve' t).2 := by
  induction x generalizing s t with
  | done a => exact ⟨rfl, hsame⟩
  | ask request next ih =>
    have hfirst : request.publishes = false := by
      obtain ⟨row, a, hpath⟩ := (next request.someReply).exists_path
      exact hx _ a (.ask request next _ hpath) _ List.mem_cons_self
    obtain ⟨hreply, hafter⟩ := h.replied hfirst hsame
    have hnext : ∀ row a, (next (serve request s).1).Path row a →
        ∀ e ∈ row, e.request.publishes = false := by
      intro row a hpath e he
      exact hx _ a (.ask request next _ hpath) e (List.mem_cons_of_mem _ he)
    have hrest := ih _ hnext hafter
    have hsecond : (Dialogue.ask request next).run serve' t =
        (next (serve request s).1).run serve' (serve' request t).2 := by
      rw [hreply]
      rfl
    rw [hsecond]
    exact hrest

end Indifferent

/-- Two pieces of work that end alike in surroundings that are the same for each other. -/
def Work.Alike (serve : (r : Request) → σ → r.Reply × σ) (serve' : (r : Request) → τ → r.Reply × τ)
    (Same : σ → τ → Prop) (x y : Work α) : Prop :=
  ∀ scene s t, Same s t →
    (x.served serve scene s).1 = (y.served serve' scene t).1 ∧
      Same (x.served serve scene s).2 (y.served serve' scene t).2

namespace Indifferent

variable (h : Indifferent serve serve' Same)

include h

theorem alike_of_silent {x : Work α} (hx : x.Silent) : Work.Alike serve serve' Same x x := by
  intro scene s t hsame
  exact h.run_eq (fun row a hpath => hx scene row a.1 a.2 hpath) hsame

theorem alike_emit (event : Event) :
    Work.Alike serve serve' Same (Work.emit event) (Work.emit event) := by
  intro scene s t hsame
  obtain ⟨s', hs, hserved⟩ := Work.tells_emit event σ serve scene s
  obtain ⟨t', ht, hserved'⟩ := Work.tells_emit event τ serve' scene t
  rw [hserved, hserved']
  exact ⟨rfl, h.hears' ht (h.hears hs hsame)⟩

theorem compatible :
    Work.Compatible (fun r => r.publishes = false) (Work.Alike serve serve' Same) where
  aloof hx := h.alike_of_silent fun scene t result scene' hpath => (hx scene t result scene' hpath).1
  bind {α β x y f g} hx hf := by
    intro scene s t hsame
    obtain ⟨hresult, hafter⟩ := hx scene s t hsame
    rw [Doing.served_bind, Doing.served_bind]
    cases hserved : x.served serve scene s with
    | mk result s₁ =>
      cases hserved' : y.served serve' scene t with
      | mk result' t₁ =>
        rw [hserved, hserved'] at hresult hafter
        obtain rfl : result = result' := hresult
        obtain ⟨fault | a, scene₁⟩ := result
        · exact ⟨rfl, hafter⟩
        · have hgive : x.CanGive a := by
            have hpath : (x scene).Path ((x scene).transcript serve s) ((x scene).run serve s).1 :=
              (x scene).path_transcript serve s
            have hrun : ((x scene).run serve s).1 = (.ok a, scene₁) := congrArg Prod.fst hserved
            rw [hrun] at hpath
            exact ⟨scene, _, scene₁, hpath⟩
          exact hf a hgive scene₁ s₁ t₁ hafter
  attempt hx := by
    intro scene s t hsame
    obtain ⟨hresult, hafter⟩ := hx scene s t hsame
    rw [served_attempt, served_attempt, hresult]
    exact ⟨rfl, hafter⟩
  emit _ := h.alike_emit _

end Indifferent

namespace Engine

variable {engine : Engine} {graph : FlowGraph} {executionId : String} {payload : Entries Value}
  {place : Place}

def Silent (engine : Engine) : Prop :=
  ∀ entry ∈ engine.registry.entries, ∀ node, (entry.2 node).Silent

theorem served_follow_eq (serve : (r : Request) → σ → r.Reply × σ) (s : σ) :
    (engine.follow graph executionId payload).served serve place s =
      let trace := place.trace.putAll [("flow_id", .text graph.id), ("execution_id", .text executionId)]
      let scene : Scene := ⟨opening graph executionId payload (serve .now s).1, { place with trace }⟩
      let ended := (engine.perform graph).served serve scene (serve .now s).2
      ((ended.1.1.map fun walk => ⟨walk, ended.1.2.context⟩,
        { ended.1.2.place with trace := place.trace }), ended.2) := by
  unfold served follow
  exact Dialogue.run_bind _ _ serve (serve .now s).2

/-- A run goes the same way in surroundings that are the same but for what they are told. -/
theorem follow_indifferent (h : Indifferent serve serve' Same) (hs : engine.Silent) (hsame : Same s t) :
    ((engine.follow graph executionId payload).served serve place s).1 =
      ((engine.follow graph executionId payload).served serve' place t).1 ∧
    Same ((engine.follow graph executionId payload).served serve place s).2
      ((engine.follow graph executionId payload).served serve' place t).2 := by
  have hregistry : ∀ node, graph.Known node →
      Registry.Related (Work.Alike serve serve' Same) engine.registry engine.registry node := by
    intro node _
    unfold Registry.Related
    cases hg : engine.registry.get node.type (some node.id) with
    | error fault => rfl
    | ok executor => exact h.alike_of_silent (hs _ (Registry.mem_of_get hg) node)
  have hperform : Work.Alike serve serve' Same (engine.perform graph) (engine.perform graph) :=
    related_perform h.compatible ⟨fun _ => rfl, fun _ => rfl, rfl⟩ rfl hregistry
  obtain ⟨hnow, hafter⟩ := h.asked .now s t rfl hsame
  rw [served_follow_eq, served_follow_eq, ← hnow]
  obtain ⟨hresult, hrest⟩ := hperform _ _ _ hafter
  refine ⟨?_, hrest⟩
  dsimp only
  rw [hresult]

end Engine

end FlowEngine
