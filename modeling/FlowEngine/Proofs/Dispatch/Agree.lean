import FlowEngine.Proofs.Dispatch.Nested

/-!
# Runs that hang on the enclosing runs only

Two dispatchers for the same flows run them in the same way if their executors do the same inside all
the runs that can enclose them. How many runs may still be nested does not matter while there is one
for each flow that is not running yet.
-/

namespace FlowEngine

open Doing

theorem Dialogue.bind_congr {α β : Type} {x : Dialogue α} {f g : α → Dialogue β}
    (h : ∀ t a, x.Path t a → f a = g a) : x.bind f = x.bind g := by
  induction x with
  | done a => exact h [] a (.here _)
  | ask request next ih =>
    apply congrArg (Dialogue.ask request)
    funext reply
    apply ih reply
    intro t a hp
    exact h _ a (.ask request next reply hp)

namespace Doing

variable {σ α β : Type} {chain : σ → List String} {c : List String} {s : σ} {x y : Doing σ α}
  {f g : α → Doing σ β}

theorem then_congr (h : ∀ t a s', x.Path s t (.ok a) s' → f a s' = g a s') :
    (x >>= f) s = (x >>= g) s := by
  apply Dialogue.bind_congr
  intro t first hp
  obtain ⟨fault | a, s'⟩ := first
  · rfl
  · exact h t a s' hp

theorem then_congr_left (h : x s = y s) : (x >>= f) s = (y >>= f) s :=
  congrArg (Dialogue.bind · _) h

/-- Inside these runs two pieces of work are the same and leave the enclosing runs alone. -/
def Agree (chain : σ → List String) (c : List String) (x y : Doing σ α) : Prop :=
  ∀ s, chain s = c → x s = y s ∧ ∀ t result s', x.Path s t result s' → chain s' = c

theorem Agree.congr_right {y' : Doing σ α} (h : Agree chain c x y)
    (hy : ∀ s, chain s = c → y' s = y s) : Agree chain c x y' := by
  intro s hs
  obtain ⟨heq, hchain⟩ := h s hs
  exact ⟨heq.trans (hy s hs).symm, hchain⟩

end Doing

theorem Work.compatible_agree (p : Request → Prop) (c : List String) :
    Work.Compatible p fun x y => Agree (fun scene : Scene => scene.place.chain) c x y where
  aloof hx scene hc := ⟨rfl, fun t result scene' hp => (hx scene t result scene' hp).2.trans hc⟩
  bind {_ _ x y f g} hx hf scene hc := by
    obtain ⟨heq, hchain⟩ := hx scene hc
    have hnext : ∀ t a scene', x.Path scene t (.ok a) scene' →
        f a scene' = g a scene' ∧ ∀ t result scene'', (f a).Path scene' t result scene'' →
          scene''.place.chain = c := by
      intro t a scene' hp
      exact hf a ⟨scene, t, scene', hp⟩ scene' (hchain t _ scene' hp)
    constructor
    · calc (x >>= f) scene = (x >>= g) scene  := then_congr fun t a s' hp => (hnext t a s' hp).1
        _ = (y >>= g) scene := then_congr_left heq
    · intro t result scene' hp
      obtain ⟨t₁, t₂, first, scene₁, rfl, h₁, h₂⟩ := path_bind.mp hp
      cases first with
      | error fault =>
        obtain ⟨-, -, rfl⟩ := h₂
        exact hchain _ _ _ h₁
      | ok a => exact (hnext t₁ a scene₁ h₁).2 _ _ _ h₂
  attempt hx scene hc := by
    obtain ⟨heq, hchain⟩ := hx scene hc
    refine ⟨congrArg (Dialogue.bind · _) heq, ?_⟩
    intro t result scene' hp
    obtain ⟨first, -, hp⟩ := path_attempt.mp hp
    exact hchain t first scene' hp
  emit _ scene hc := by
    refine ⟨rfl, ?_⟩
    intro t result scene' hp
    obtain ⟨reply, told, rfl, ht, -, rfl⟩ := Work.path_emit hp
    exact hc

namespace Dispatcher

variable {d d' : Dispatcher} {flow : String} {graph : FlowGraph} {c : List String}

/-- Flows are kept under their own ids. -/
def Keyed (d : Dispatcher) : Prop := ∀ id graph, d.flow id = .ok graph → graph.id = id

theorem flow_eq_ok_iff : d.flow flow = .ok graph ↔ Entries.get? d.flows flow = some graph := by
  unfold Dispatcher.flow
  cases Entries.get? d.flows flow with
  | none => exact ⟨nofun, nofun⟩
  | some found => simp

theorem mem_of_ofList {graphs : List FlowGraph} (h : d.flows = FlowStore.ofList graphs)
    (hf : d.flow flow = .ok graph) : graph ∈ graphs ∧ graph.id = flow := by
  have hstored : ∀ (rest : List FlowGraph) (store : FlowStore),
      Entries.get? (rest.foldl FlowStore.add store) flow = some graph →
        graph ∈ rest ∧ graph.id = flow ∨ Entries.get? store flow = some graph := by
    intro rest
    induction rest with
    | nil => exact fun store hg => Or.inr hg
    | cons first rest ih =>
      intro store hg
      rcases ih _ hg with ⟨hmem, hid⟩ | hg
      · exact Or.inl ⟨List.mem_cons_of_mem _ hmem, hid⟩
      · rw [FlowStore.add, Entries.get?_put] at hg
        split at hg
        · next hid =>
          obtain rfl := Option.some.inj hg
          exact Or.inl ⟨List.mem_cons_self, hid⟩
        · exact Or.inr hg
  rw [flow_eq_ok_iff, h] at hf
  rcases hstored graphs [] hf with hfound | hnone
  · exact hfound
  · cases hnone

theorem keyed_of_ofList {graphs : List FlowGraph} (h : d.flows = FlowStore.ofList graphs) :
    d.Keyed := fun _ _ hf => (mem_of_ofList h hf).2

/-- How many flows are not running inside some runs. -/
def spare (d : Dispatcher) (c : List String) : Nat :=
  (d.flows.filter fun entry => decide (entry.1 ∉ c)).length

theorem spare_le_room (d : Dispatcher) (c : List String) : d.spare c ≤ d.room :=
  List.length_filter_le _ _

theorem spare_snoc (hf : d.flow flow = .ok graph) (hc : flow ∉ c) :
    d.spare (c ++ [flow]) < d.spare c := by
  have hmem : ∃ entry ∈ d.flows, entry.1 = flow := by
    have hg := flow_eq_ok_iff.mp hf
    have hkeys : flow ∈ Entries.keys d.flows :=
      (Entries.get?_isSome_iff _ _).mp (hg ▸ rfl)
    exact List.mem_map.mp hkeys
  obtain ⟨entry, he, hid⟩ := hmem
  have hsub : (d.flows.filter fun entry => decide (entry.1 ∉ c ++ [flow])) =
      (d.flows.filter fun entry => decide (entry.1 ∉ c)).filter fun entry =>
        decide (entry.1 ≠ flow) := by
    rw [List.filter_filter]
    congr 1
    funext entry
    simp [and_comm]
  unfold spare
  rw [hsub, List.length_filter_lt_length_iff_exists]
  exact ⟨entry, by simp [he, hid, hc], by simp [hid]⟩

section Granted

variable {payload : Entries Value} {startedBy reason : String} {place : Place} {room : Nat}
  {fault : Fault}

theorem runWithin_unknown (hf : d.flow flow = .error fault) :
    d.runWithin room flow payload startedBy place = .done (.error fault, place) := by
  unfold runWithin
  rw [hf]
  rfl

theorem runWithin_unordered (hf : d.flow flow = .ok graph)
    (hr : d.refusal? place.chain flow = .error fault) :
    d.runWithin room flow payload startedBy place = .done (.error fault, place) := by
  unfold runWithin
  rw [hf]
  change (Doing.ofExcept (d.refusal? place.chain flow) >>= _) place = _
  rw [hr]
  rfl

theorem runWithin_refused (hf : d.flow flow = .ok graph)
    (hr : d.refusal? place.chain flow = .ok (some reason)) :
    d.runWithin room flow payload startedBy place = refuse flow startedBy reason place := by
  unfold runWithin
  rw [hf]
  change (Doing.ofExcept (d.refusal? place.chain flow) >>= _) place = _
  rw [hr]
  rfl

theorem runWithin_granted (hf : d.flow flow = .ok graph)
    (hr : d.refusal? place.chain flow = .ok none) :
    d.runWithin (room + 1) flow payload startedBy place =
      (begin flow startedBy >>= fun execution =>
        conduct (d.engineWith (d.runWithin room)) graph execution payload) place := by
  rw [runWithin, hf]
  change (Doing.ofExcept (d.refusal? place.chain flow) >>= _) place = _
  rw [hr]
  rfl

theorem runWithin_roomless (hf : d.flow flow = .ok graph)
    (hr : d.refusal? place.chain flow = .ok none) :
    d.runWithin 0 flow payload startedBy place = refuse flow startedBy d.depthText place := by
  rw [runWithin, hf]
  change (Doing.ofExcept (d.refusal? place.chain flow) >>= _) place = _
  rw [hr]
  rfl

theorem refusal?_eq_none_iff {most : Nat} (hdepth : Limit.least ">=" d.maxDepth = .ok most) :
    d.refusal? c flow = .ok none ↔ flow ∉ c ∧ c.length < most := by
  have hreached : Limit.reached d.maxDepth c.length = .ok (decide (most ≤ c.length)) := by
    rw [Limit.reached, hdepth]
    rfl
  unfold refusal?
  rw [hreached]
  by_cases hc : flow ∈ c
  · simp [hc]
  · rw [if_neg hc]
    by_cases hlength : most ≤ c.length
    · rw [decide_eq_true hlength]
      exact ⟨nofun, fun h => absurd h.2 (Nat.not_lt.mpr hlength)⟩
    · rw [decide_eq_false hlength]
      exact ⟨fun _ => ⟨hc, Nat.not_le.mp hlength⟩, fun _ => rfl⟩

theorem not_mem_of_refusal? (hr : d.refusal? c flow = .ok none) : flow ∉ c := by
  intro hc
  rw [refusal?, if_pos hc] at hr
  cases hr

theorem of_refusal? (hr : d.refusal? c flow = .ok (some reason)) :
    flow ∈ c ∧ reason = circularText flow c ∨ reason = d.depthText := by
  rw [refusal?] at hr
  by_cases hmem : flow ∈ c
  · rw [if_pos hmem] at hr
    cases hr
    exact Or.inl ⟨hmem, rfl⟩
  · rw [if_neg hmem] at hr
    cases hreached : Limit.reached d.maxDepth c.length with
    | error fault =>
      rw [hreached] at hr
      cases hr
    | ok reached =>
      rw [hreached] at hr
      cases reached <;> cases hr
      exact Or.inr rfl

end Granted

section Engine

variable {engine engine' : Engine} {place : Place} {id : String} {payload : Entries Value}

theorem execute_congr {trace : Log.Trace}
    (h : Agree (fun scene : Scene => scene.place.chain) c (engine.perform graph)
      (engine'.perform graph)) :
    engine.execute graph id payload ⟨trace, c⟩ = engine'.execute graph id payload ⟨trace, c⟩ := by
  apply then_congr_left
  apply congrArg (Dialogue.ask .now)
  funext now
  apply congrArg (Dialogue.bind · _)
  exact (h _ rfl).1

theorem runInside_congr {execution : Execution}
    (h : Agree (fun scene : Scene => scene.place.chain) (place.chain ++ [graph.id])
      (engine.perform graph) (engine'.perform graph)) :
    runInside engine graph execution payload place =
      runInside engine' graph execution payload place := by
  apply congrArg (Dialogue.bind · _)
  apply then_congr
  intro t _ place' hp
  obtain ⟨_, _, -, -, -, rfl⟩ := Act.path_emit hp
  apply then_congr_left
  apply congrArg (Dialogue.bind · _)
  apply then_congr_left
  exact execute_congr h

theorem conduct_congr {execution : Execution}
    (h : Agree (fun scene : Scene => scene.place.chain) (place.chain ++ [graph.id])
      (engine.perform graph) (engine'.perform graph)) :
    conduct engine graph execution payload place = conduct engine' graph execution payload place :=
  then_congr_left (runInside_congr h)

end Engine

/-- Two dispatchers for the same flows whose executors do the same inside some runs, whatever
launches children, provided that this does the same. -/
structure Alike (P : List String → Prop) (d d' : Dispatcher) : Prop where
  flows : d'.flows = d.flows
  maxSteps : d'.maxSteps = d.maxSteps
  maxDepth : d'.maxDepth = d.maxDepth
  registry : ∀ c, P c → ∀ l l', Step.CallFlow.Launcher.Related
      (fun x y => Agree (fun scene : Scene => scene.place.chain) c x y) l l' →
    ∀ id graph, d.flow id = .ok graph → ∀ node, graph.Known node →
      Registry.Related (fun x y => Agree (fun scene : Scene => scene.place.chain) c x y)
        (d.registry (some l)) (d'.registry (some l')) node

/-- What encloses a run that is not refused encloses it with the run itself. -/
def Steady (d : Dispatcher) (P : List String → Prop) : Prop :=
  ∀ c flow graph, P c → d.flow flow = .ok graph → d.refusal? c flow = .ok none →
    P (c ++ [graph.id])

variable {P : List String → Prop}

namespace Alike

theorem refl (hd : d.Respects Request.IsPlain) : Alike P d d where
  flows := rfl
  maxSteps := rfl
  maxDepth := rfl
  registry c _ l l' hl := hd _ (Work.compatible_agree _ c) l l' hl

section

variable (h : Alike P d d')

include h

theorem flow_eq (id : String) : d'.flow id = d.flow id := by
  rw [Dispatcher.flow, Dispatcher.flow, h.flows]

theorem startDetached (flow : String) (payload : Entries Value) (startedBy : String) :
    d'.startDetached flow payload startedBy = d.startDetached flow payload startedBy := by
  unfold Dispatcher.startDetached Dispatcher.start
  simp only [h.flow_eq, h.maxDepth]

theorem agree_perform (hc : P c) {run run' : String → Entries Value → String → Act Execution}
    (hrun : ∀ flow payload startedBy, Agree Place.chain c (run flow payload startedBy)
      (run' flow payload startedBy))
    (hf : d.flow flow = .ok graph) :
    Agree (fun scene : Scene => scene.place.chain) c ((d.engineWith run).perform graph)
      ((d'.engineWith run').perform graph) := by
  have hact : ∀ {α : Type} {x y : Act α}, Agree Place.chain c x y →
      Agree (fun scene : Scene => scene.place.chain) c (Work.act x) (Work.act y) := by
    intro α x y hxy scene hs
    obtain ⟨heq, hchain⟩ := hxy scene.place hs
    refine ⟨congrArg (Dialogue.bind · _) heq, ?_⟩
    intro t result scene' hp
    obtain ⟨place, hplace, rfl⟩ := Work.path_act.mp hp
    exact hchain t result place hplace
  have hlauncher : Step.CallFlow.Launcher.Related
      (fun x y => Agree (fun scene : Scene => scene.place.chain) c x y)
      (d.launcher run) (d'.launcher run') := by
    refine ⟨?_, ?_, ?_⟩
    · funext id
      simp only [launcher, flowName?, h.flows]
    · intro flow payload startedBy
      apply hact
      intro place hp
      obtain ⟨heq, hchain⟩ := hrun flow payload startedBy place hp
      refine ⟨then_congr_left heq, ?_⟩
      intro t result place' hpath
      obtain ⟨first, hrunpath, -⟩ := path_map.mp hpath
      exact hchain t first place' hrunpath
    · intro flow payload startedBy
      apply hact
      intro place hp
      refine ⟨congrFun (h.startDetached flow payload startedBy).symm place, ?_⟩
      intro t result place' hpath
      obtain ⟨rfl, -⟩ := path_startDetached hpath
      exact hp
  exact Engine.related_perform (Work.compatible_agree Request.IsPlain c) Request.basic_isPlain
    h.maxSteps.symm fun node hn => h.registry c hc _ _ hlauncher flow graph hf node hn

theorem agree_of_granted {room room' : Nat} {flow : String} {payload : Entries Value}
    {startedBy : String}
    (hgranted : ∀ graph, d.flow flow = .ok graph → d.refusal? c flow = .ok none →
      ∃ left left', room = left + 1 ∧ room' = left' + 1 ∧
        Agree (fun scene : Scene => scene.place.chain) (c ++ [graph.id])
          ((d.engineWith (d.runWithin left)).perform graph)
          ((d'.engineWith (d'.runWithin left')).perform graph)) :
    Agree Place.chain c (d.runWithin room flow payload startedBy)
      (d'.runWithin room' flow payload startedBy) := by
  rintro place rfl
  have hrefusal : d'.refusal? place.chain flow = d.refusal? place.chain flow := by
    unfold refusal? depthText
    rw [h.maxDepth]
  constructor
  · obtain ⟨graph, hf⟩ | hf := d.flow_cases flow
    · have hf' : d'.flow flow = .ok graph := (h.flow_eq flow).trans hf
      cases hr : d.refusal? place.chain flow with
      | error fault =>
        rw [runWithin_unordered hf hr, runWithin_unordered hf' (hrefusal.trans hr)]
      | ok refusal =>
        cases refusal with
        | some reason => rw [runWithin_refused hf hr, runWithin_refused hf' (hrefusal.trans hr)]
        | none =>
          obtain ⟨left, left', rfl, rfl, hperform⟩ := hgranted graph hf hr
          rw [runWithin_granted hf hr, runWithin_granted hf' (hrefusal.trans hr)]
          apply then_congr
          intro t execution place' hp
          obtain ⟨_, -, -, rfl⟩ := path_begin hp
          exact conduct_congr hperform
    · rw [runWithin_unknown hf, runWithin_unknown ((h.flow_eq flow).trans hf)]
  · intro t result place' hp
    exact congrArg Place.chain (place_runWithin hp)

/-- Both run a flow in the same way, if there is room for each flow that is not running yet. -/
theorem agree_runWithin (hkeyed : d.Keyed) (hsteady : d.Steady P) {room room' : Nat} (hc : P c)
    (hroom : d.spare c ≤ room) (hroom' : d.spare c ≤ room') (flow : String)
    (payload : Entries Value) (startedBy : String) :
    Agree Place.chain c (d.runWithin room flow payload startedBy)
      (d'.runWithin room' flow payload startedBy) := by
  -- By the room of one of them; that of the other one shrinks with it.
  induction room generalizing room' c flow payload startedBy with
  | zero =>
    refine h.agree_of_granted ?_
    intro graph hf hr
    have hspare := spare_snoc hf (not_mem_of_refusal? hr)
    omega
  | succ room ih =>
    refine h.agree_of_granted ?_
    intro graph hf hr
    have hspare := spare_snoc hf (not_mem_of_refusal? hr)
    have hid : graph.id = flow := hkeyed flow graph hf
    obtain ⟨room'', rfl⟩ : ∃ room'', room' = room'' + 1 := ⟨room' - 1, by omega⟩
    refine ⟨room, room'', rfl, rfl, ?_⟩
    have hinside : P (c ++ [graph.id]) := hsteady c flow graph hc hf hr
    rw [hid] at hinside ⊢
    refine h.agree_perform hinside ?_ hf
    intro flow' payload' startedBy'
    exact ih hinside (by omega) (by omega) flow' payload' startedBy'

theorem start_eq (flow : String) (payload : Entries Value) (startedBy : String) :
    d'.start flow payload startedBy = d.start flow payload startedBy := by
  unfold Dispatcher.start
  simp only [h.flow_eq]

theorem background_eq (hkeyed : d.Keyed) (hsteady : d.Steady P) {start : Start} {id : String}
    (hf : d.flow id = .ok start.flow) (hc : P (start.chain ++ [start.flow.id])) :
    d'.background start = d.background start := by
  have hroom : d'.room = d.room := congrArg List.length h.flows
  symm
  apply conduct_congr
  refine h.agree_perform hc ?_ hf
  intro flow payload startedBy
  apply h.agree_runWithin hkeyed hsteady hc (d.spare_le_room _)
  rw [hroom]
  exact d.spare_le_room _

theorem run_eq (hkeyed : d.Keyed) (hsteady : d.Steady P) {place : Place} (hc : P place.chain)
    (flow : String) (payload : Entries Value) (startedBy : String) :
    d'.run flow payload startedBy place = d.run flow payload startedBy place := by
  have hroom : d'.room = d.room := congrArg List.length h.flows
  have hagree := h.agree_runWithin hkeyed hsteady hc (d.spare_le_room _)
    (hroom ▸ d.spare_le_room _) flow payload startedBy
  exact (hagree place rfl).1.symm

end

end Alike

end Dispatcher

end FlowEngine
