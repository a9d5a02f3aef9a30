import FlowEngine.Proofs.Work.Ensures

/-!
# Work that only tells

Log lines and events go to the surroundings, and no reply to them changes what is done. Work that
does nothing else leaves its state alone, so that only the surroundings know of it.
-/

namespace FlowEngine

/-- Whether a request tells of something and asks for nothing. -/
def Request.isTelling : Request → Bool
  | .log _ | .publish _ => true
  | _ => false

/-- The surroundings before and after they were told some things and asked for nothing. -/
inductive Hears {τ : Type} (serve : (r : Request) → τ → r.Reply × τ) : τ → τ → Prop where
  | nothing (t) : Hears serve t t
  | more {t t'} (r : Request) (hr : r.isTelling = true) (h : Hears serve (serve r t).2 t') :
      Hears serve t t'

variable {σ τ α : Type} {serve : (r : Request) → τ → r.Reply × τ}

theorem Hears.trans {t t' t'' : τ} (h : Hears serve t t') (h' : Hears serve t' t'') :
    Hears serve t t'' := by
  induction h with
  | nothing t => exact h'
  | more r hr _ ih => exact .more r hr (ih h')

theorem Hears.one (r : Request) (hr : r.isTelling = true) (t : τ) : Hears serve t (serve r t).2 :=
  .more r hr (.nothing _)

namespace Doing

/-- Work that ends without a fault, leaves its state alone and only tells. -/
def Tells (x : Doing σ Unit) : Prop :=
  ∀ (τ : Type) (serve : (r : Request) → τ → r.Reply × τ) (s : σ) (t : τ),
    ∃ t', Hears serve t t' ∧ x.served serve s t = ((.ok (), s), t')

theorem tells_pure : Tells (pure () : Doing σ Unit) :=
  fun _ _ _ t => ⟨t, .nothing t, rfl⟩

theorem Tells.served_bind {x : Doing σ Unit} {f : Unit → Doing σ α} (hx : x.Tells)
    (serve : (r : Request) → τ → r.Reply × τ) (s : σ) (t : τ) :
    ∃ t', Hears serve t t' ∧ (x >>= f).served serve s t = (f ()).served serve s t' := by
  obtain ⟨t', ht, hs⟩ := hx τ serve s t
  refine ⟨t', ht, ?_⟩
  rw [Doing.served_bind, hs]

theorem tells_bind {x : Doing σ Unit} {f : Unit → Doing σ Unit} (hx : x.Tells)
    (hf : (f ()).Tells) : (x >>= f).Tells := by
  intro τ serve s t
  obtain ⟨t', ht, hs⟩ := hx.served_bind (f := f) serve s t
  obtain ⟨t'', ht', hs'⟩ := hf τ serve s t'
  exact ⟨t'', ht.trans ht', hs.trans hs'⟩

theorem served_attempt (x : Doing σ α) (s : σ) (t : τ) :
    (attempt x).served serve s t =
      ((.ok (x.served serve s t).1.1, (x.served serve s t).1.2), (x.served serve s t).2) :=
  Dialogue.run_bind (x s) _ serve t

end Doing

theorem Act.tells_note (line : Log.Line) : (Act.note line).Tells :=
  fun _ _ place t => ⟨_, .one (.log ⟨line, place.trace, false⟩) rfl t, rfl⟩

theorem Act.tells_noteAll (lines : List Log.Line) : (Act.noteAll lines).Tells := by
  induction lines with
  | nil => exact Doing.tells_pure
  | cons line rest ih => exact Doing.tells_bind (Act.tells_note line) ih

namespace Work

theorem tells_act {x : Act Unit} (hx : x.Tells) : (act x).Tells := by
  intro τ serve scene t
  obtain ⟨t', ht, hs⟩ := hx τ serve scene.place t
  refine ⟨t', ht, (Dialogue.run_bind (x scene.place) _ serve t).trans ?_⟩
  unfold Doing.served at hs
  rw [hs]
  rfl

theorem tells_note (line : Log.Line) : (note line).Tells := tells_act (Act.tells_note line)

theorem tells_noteAll (lines : List Log.Line) : (noteAll lines).Tells :=
  tells_act (Act.tells_noteAll lines)

theorem tells_emit (event : Event) : (emit event).Tells := by
  intro τ serve scene t
  have hp : Hears serve t (serve (.publish event) t).2 := .one (.publish event) rfl t
  have hask : (Doing.ask (.publish event)).served serve scene t =
      ((.ok (serve (.publish event) t).1, scene), (serve (.publish event) t).2) := rfl
  rw [emit, Doing.served_bind_ok hask]
  cases (serve (.publish event) t).1 with
  | none => exact ⟨_, hp, rfl⟩
  | some reason =>
    obtain ⟨t', ht, hn⟩ := tells_note _ τ serve scene (serve (.publish event) t).2
    exact ⟨t', hp.trans ht, hn⟩

theorem tells_emitFor (node : Node) (event : (flow execution node : Option String) → Event) :
    (emitFor node event).Tells :=
  fun τ serve scene t => tells_emit _ τ serve scene t

end Work

end FlowEngine
