import FlowEngine.Proofs.Flow.Circuit
import FlowEngine.Proofs.Run.Advance
import FlowEngine.Proofs.Step.Loop

/-!
# Runs around a loop

A run through a loop with its body, the condition of which counts to a number. The first pass
through the body always comes back to the loop. The second one does only when the body is a single
node: the others have been visited, and only the loop itself may lead to them again.
-/

namespace FlowEngine

namespace Circuit

variable (circuit : Circuit)

def lap : List String := circuit.loop.id :: circuit.body.map (·.id)

def laps (p : Nat) : List String := circuit.start.id :: (List.replicate p circuit.lap).flatten

theorem laps_succ (p : Nat) : circuit.laps (p + 1) = circuit.laps p ++ circuit.lap := by
  rw [laps, laps, List.replicate_succ', List.flatten_append, List.flatten_singleton,
    List.cons_append]

theorem mem_laps {id : String} {p : Nat} (h : id ∈ circuit.laps p) :
    id = circuit.start.id ∨ id = circuit.loop.id ∨ id ∈ circuit.body.map (·.id) := by
  rcases List.mem_cons.mp h with rfl | h
  · exact Or.inl rfl
  · obtain ⟨lap, hl, hi⟩ := List.mem_flatten.mp h
    rw [List.eq_of_mem_replicate hl] at hi
    exact Or.inr (List.mem_cons.mp hi)

/-- What the last node of the body produced on each of its visits. -/
def outputs (visits : List Visit) : List Value :=
  (visits.filter (·.node.id == circuit.last.id)).map fun visit =>
    Outcome.optionalObject (visit.outcome.successOutput.or visit.outcome.output)

theorem outputs_snoc_of_ne {node : Node} (outcome : Outcome) (visits : List Visit)
    (hn : node.id ≠ circuit.last.id) :
    circuit.outputs (visits ++ [⟨node, outcome⟩]) = circuit.outputs visits := by
  simp [outputs, hn]

theorem outputs_snoc_last (outcome : Outcome) (visits : List Visit) :
    circuit.outputs (visits ++ [⟨circuit.last, outcome⟩]) =
      circuit.outputs visits ++
        [Outcome.optionalObject (outcome.successOutput.or outcome.output)] := by
  simp [outputs]

end Circuit

/-- An engine in which a loop counts to a number, below its bound, and the other nodes around it are
served. -/
structure Engine.Tours (engine : Engine) (circuit : Circuit) (k : Nat) (most : Int) : Prop where
  start : engine.Serves circuit.start
  done : engine.Serves circuit.done
  body : ∀ node ∈ circuit.body, engine.Serves node
  loop : engine.registry.get circuit.loop.type (some circuit.loop.id) = .ok Step.Loop.execute
  policy : ∃ policy, RetryPolicy.ofConfig circuit.loop.config = .ok policy
  saveName : ∃ name, circuit.loop.saveName = .ok name
  condition : circuit.loop.setting "condition" = .text (Step.Loop.countsTo k)
  bound : Step.Loop.bound (circuit.loop.setting "maxIterations") = .ok most
  below : (k : Int) < most

theorem Tour.startOf_eq {graph : FlowGraph} {circuit : Circuit} (hr : graph.IsCircuit circuit) :
    Engine.startOf graph = circuit.start := by
  rw [Engine.startOf, hr.start?]
  rfl

theorem Engine.Tours.exists_startName {engine : Engine} {graph : FlowGraph} {circuit : Circuit}
    {k : Nat} {most : Int} (ht : engine.Tours circuit k most) (hr : graph.IsCircuit circuit) :
    ∃ name, (Engine.startOf graph).saveName = .ok name := by
  obtain ⟨-, -, name, -, -, hname, -⟩ := ht.start
  exact ⟨name, by rw [Tour.startOf_eq hr, hname]⟩

namespace Tour

variable {engine : Engine} {graph : FlowGraph} {circuit : Circuit} {k p : Nat} {most : Int}

/-- Before a visit of the loop, after some passes. What the visit will collect is counted in. -/
structure AtLoop (circuit : Circuit) (most : Int) (p : Nat) (visits : List Visit)
    (context : Context) : Prop where
  order : context.order = visits.map (·.node.id)
  path : visits.map (·.node.id) = circuit.laps p
  edges : context.loopEdges.get? circuit.loop.id = some true
  state : ∃ acc, context.enterLoop circuit.loop.id most = ⟨circuit.loop.id, p, acc, most⟩ ∧
    acc ++ Step.Loop.collected context ⟨circuit.loop.id, p, acc, most⟩ = circuit.outputs visits

structure InBody (circuit : Circuit) (most : Int) (p : Nat) (pre : List Node) (visits : List Visit)
    (context : Context) : Prop where
  order : context.order = visits.map (·.node.id)
  path : visits.map (·.node.id) = circuit.laps p ++ circuit.loop.id :: pre.map (·.id)
  edges : context.loopEdges.get? circuit.loop.id = some true
  state : context.loopStates.get? circuit.loop.id =
    some ⟨circuit.loop.id, (p + 1 : Nat), circuit.outputs visits, most⟩

structure Iterated (circuit : Circuit) (k : Nat) (most : Int) (walk : Walk) (context : Context) :
    Prop where
  failed : walk.failed = false
  order : context.order = walk.executed
  path : walk.executed = circuit.laps k ++ [circuit.loop.id, circuit.done.id]
  summary : context.nodes.get? circuit.loop.id =
    some (Step.Loop.left circuit.loop ⟨circuit.loop.id, k, circuit.outputs walk.visits, most⟩)

structure Stalled (circuit : Circuit) (second : Node) (walk : Walk) (context : Context) : Prop where
  failed : walk.failed = true
  ending : walk.ending = some .cycle
  order : context.order = walk.executed
  path : walk.executed = circuit.laps 1 ++ [circuit.loop.id, circuit.first.id]
  message : context.errorMessage = some (Turn.cycleText circuit.first second)

section Steps

variable (hr : graph.IsCircuit circuit) (ht : engine.Tours circuit k most)
  {visits : List Visit} {scene : Scene} {limit : Value} {left : Nat}

include hr ht

theorem gives_done (ho : scene.context.order = visits.map (·.node.id))
    (hp : visits.map (·.node.id) = circuit.laps k ++ [circuit.loop.id])
    (hs : scene.context.nodes.get? circuit.loop.id =
      some (Step.Loop.left circuit.loop ⟨circuit.loop.id, k, circuit.outputs visits, most⟩)) :
    (Engine.walkOn engine graph limit (left + 1) ⟨[circuit.done], visits, false, none⟩).Gives scene
      fun walk scene => Iterated circuit k most walk scene.context := by
  obtain ⟨-, -, hld, -⟩ := hr.ids
  have hlast : circuit.done.id ≠ circuit.last.id := hr.done_ne circuit.last_mem
  have hend : circuit.done.type.isTerminal = true := by rw [hr.done]; rfl
  have hstart : circuit.done.type ≠ .start := by rw [hr.done]; decide
  refine Engine.gives_walkOn (ht.done.gives_visit ?_)
  intro outcome context place hstatus _ hrec
  obtain ⟨hw, hc⟩ := Turn.after_end graph visits context hend hstatus
  simp only [hw, hc]
  refine Engine.gives_walkOn_over rfl ⟨rfl, ?_, ?_, ?_⟩
  · simp [Walk.executed, hrec.order, Engine.entered, ho]
  · simp [Walk.executed, hp]
  · simp only [hrec.nodes, if_neg hstart, Entries.get?_put, if_neg (Ne.symm hld), Engine.entered]
    rw [circuit.outputs_snoc_of_ne outcome visits hlast, hs]

/-- A visit of the loop leaves all its outputs in its state, and goes on below the number. -/
theorem gives_loop {post : Walk → Scene → Prop} (h : AtLoop circuit most p visits scene.context)
    (hp : p ≤ k)
    (hpost : ∀ (outcome : Outcome) (context : Context) (place : Place),
      outcome = (if p < k then Step.Loop.goneOn circuit.loop p else
        Step.Loop.left circuit.loop ⟨circuit.loop.id, p, circuit.outputs visits, most⟩) →
      context.order = visits.map (·.node.id) →
      context.loopEdges.get? circuit.loop.id = some true →
      context.loopStates.get? circuit.loop.id =
        some ⟨circuit.loop.id, (if p < k then p + 1 else p : Nat), circuit.outputs visits, most⟩ →
      context.nodes.get? circuit.loop.id = some outcome →
      let turn := Turn.after graph circuit.loop outcome ⟨[], visits, false, none⟩ context
      post turn.walk ⟨turn.context, place⟩) :
    (Engine.visit engine graph circuit.loop ⟨[], visits, false, none⟩).Gives
      (Engine.entered circuit.loop scene) post := by
  obtain ⟨acc, henter, htotal⟩ := h.state
  obtain ⟨policy, hpolicy⟩ := ht.policy
  obtain ⟨name, hname⟩ := ht.saveName
  have hbelow := ht.below
  have hstart : circuit.loop.type ≠ .start := by rw [hr.loop]; decide
  refine Engine.gives_visit ht.loop hname (Attempt.gives_run hpolicy (Doing.Gives.mono ?_
    (Step.Loop.gives_execute (by exact h.edges) ht.bound ht.condition (by exact henter)
      (by omega) ht.below hname)))
  rintro outcome scene' ⟨houtcome, loopStates, nex, hcontext, hstate⟩
  have htotal' : acc ++ Step.Loop.collected (Engine.entered circuit.loop scene).context
      ⟨circuit.loop.id, p, acc, most⟩ = circuit.outputs visits := htotal
  rw [htotal'] at houtcome hstate
  have hrec : Context.Records circuit.loop outcome scene'.context
    (Engine.recorded circuit.loop outcome scene'.context) := Engine.records_recorded _ _ rfl
  refine ⟨?_, hpost outcome _ scene'.place houtcome ?_ ?_ ?_ ?_⟩
  · rw [houtcome]
    split <;> rfl
  · rw [hrec.order, hcontext]
    exact h.order
  · rw [hrec.loopEdges, hcontext]
    exact h.edges
  · rw [hrec.loopStates, hcontext]
    exact hstate
  · rw [hrec.nodes, if_neg hstart]
    exact Entries.get?_put_self _ _ _

theorem gives_leave (h : AtLoop circuit most k visits scene.context) :
    (Engine.walkOn engine graph limit (left + 2) ⟨[circuit.loop], visits, false, none⟩).Gives scene
      fun walk scene => Iterated circuit k most walk scene.context := by
  obtain ⟨-, hsd, hld, -, -, hdb, -⟩ := hr.ids
  have hend : circuit.loop.type.isTerminal = false := by rw [hr.loop]; rfl
  have hlast : circuit.loop.id ≠ circuit.last.id := hr.loop_ne circuit.last_mem
  refine Engine.gives_walkOn (gives_loop hr ht h (Nat.le_refl k) ?_)
  intro outcome context place houtcome horder _ _ hnodes
  rw [if_neg (Nat.lt_irrefl k)] at houtcome
  have hnew : Walk.mayEnter (visits.map (·.node.id) ++ [circuit.loop.id]) outcome.status
      circuit.done = true := by
    rw [Walk.mayEnter_iff]
    left
    rw [h.path, List.mem_append, List.mem_singleton]
    rintro (hm | hm)
    · rcases circuit.mem_laps hm with e | e | hm
      · exact hsd e.symm
      · exact hld e.symm
      · exact hdb hm
    · exact hld hm.symm
  have hstatus : outcome.status = .success := by rw [houtcome]; rfl
  have hhalts : outcome.halts = false := by rw [houtcome]; rfl
  have hnext : graph.next circuit.loop.id outcome.status = [circuit.done] := by
    rw [hstatus]
    exact hr.next_success
  have hfine : outcome.status ≠ .failure := by rw [hstatus]; decide
  obtain ⟨hw, hc⟩ := Turn.after_next graph visits context hend hhalts hfine hnext hnew
  simp only [hw, hc]
  refine gives_done hr ht ?_ ?_ ?_
  · simp [horder]
  · simp [h.path]
  · rw [circuit.outputs_snoc_of_ne outcome visits hlast, hnodes, houtcome]

theorem gives_goOn {post : Walk → Scene → Prop} (h : AtLoop circuit most p visits scene.context)
    (hp : p < k)
    (hpost : ∀ visits scene, InBody circuit most p [] visits scene.context →
      (Engine.walkOn engine graph limit left ⟨[circuit.first], visits, false, none⟩).Gives scene
        post) :
    (Engine.walkOn engine graph limit (left + 1) ⟨[circuit.loop], visits, false, none⟩).Gives scene
      post := by
  have hend : circuit.loop.type.isTerminal = false := by rw [hr.loop]; rfl
  have hlast : circuit.loop.id ≠ circuit.last.id := hr.loop_ne circuit.last_mem
  refine Engine.gives_walkOn (gives_loop hr ht h (Nat.le_of_lt hp) ?_)
  intro outcome context place houtcome horder hedges hstate _
  rw [if_pos hp] at houtcome hstate
  have hstatus : outcome.status = .continuing := by rw [houtcome]; rfl
  have hhalts : outcome.halts = false := by rw [houtcome]; rfl
  have hnext : graph.next circuit.loop.id outcome.status = [circuit.first] := by
    rw [hstatus]
    exact hr.next_continuing
  have hnew : Walk.mayEnter (visits.map (·.node.id) ++ [circuit.loop.id]) outcome.status
      circuit.first = true := Walk.mayEnter_iff.mpr (Or.inr (Or.inl hstatus))
  have hfine : outcome.status ≠ .failure := by rw [hstatus]; decide
  obtain ⟨hw, hc⟩ := Turn.after_next graph visits context hend hhalts hfine hnext hnew
  simp only [hw, hc]
  refine hpost _ _ ⟨?_, ?_, hedges, ?_⟩
  · simp [horder]
  · simp [h.path]
  · rw [circuit.outputs_snoc_of_ne outcome visits hlast]
    exact hstate

theorem gives_inBody {post : Walk → Scene → Prop} {node : Node} {pre : List Node}
    (hb : node ∈ circuit.body) (h : InBody circuit most p pre visits scene.context)
    (hpost : ∀ (outcome : Outcome) (context : Context) (place : Place),
      outcome.status = .success → outcome.halts = false →
      context.order = visits.map (·.node.id) →
      context.loopEdges.get? circuit.loop.id = some true →
      context.loopStates.get? circuit.loop.id =
        some ⟨circuit.loop.id, (p + 1 : Nat), circuit.outputs visits, most⟩ →
      context.nodes.get? node.id = some outcome →
      let turn := Turn.after graph node outcome ⟨[], visits, false, none⟩ context
      post turn.walk ⟨turn.context, place⟩) :
    (Engine.visit engine graph node ⟨[], visits, false, none⟩).Gives (Engine.entered node scene)
      post := by
  refine (ht.body node hb).gives_visit ?_
  intro outcome context place hstatus hhalts hrec
  refine hpost outcome context place hstatus hhalts ?_ ?_ ?_ ?_
  · rw [hrec.order]
    exact h.order
  · rw [hrec.loopEdges]
    exact h.edges
  · rw [hrec.loopStates]
    exact h.state
  · rw [hrec.nodes, if_neg (hr.body node hb).1]
    exact Entries.get?_put_self _ _ _

/-- The last node of the body leads back to the loop, which has one more output to collect. -/
theorem gives_body_last {post : Walk → Scene → Prop} {pre : List Node}
    (hb : circuit.body = pre ++ [circuit.last]) (h : InBody circuit most p pre visits scene.context)
    (hpost : ∀ visits scene, AtLoop circuit most (p + 1) visits scene.context →
      (Engine.walkOn engine graph limit left ⟨[circuit.loop], visits, false, none⟩).Gives scene
        post) :
    (Engine.walkOn engine graph limit (left + 1) ⟨[circuit.last], visits, false, none⟩).Gives scene
      post := by
  have hm : circuit.last ∈ circuit.body := circuit.last_mem
  refine Engine.gives_walkOn (gives_inBody hr ht hm h ?_)
  intro outcome context place hstatus hhalts horder hedges hstate hnodes
  have hend := (hr.body circuit.last hm).2.2
  have hnext : graph.next circuit.last.id outcome.status = [circuit.loop] := hr.next_body hb
  have hnew : Walk.mayEnter (visits.map (·.node.id) ++ [circuit.last.id]) outcome.status
      circuit.loop = true := Walk.mayEnter_iff.mpr (Or.inr (Or.inr hr.loop))
  have hfine : outcome.status ≠ .failure := by rw [hstatus]; decide
  obtain ⟨hw, hc⟩ := Turn.after_next graph visits context hend hhalts hfine hnext hnew
  simp only [hw, hc]
  refine hpost _ _ ⟨?_, ?_, hedges, circuit.outputs visits, ?_, ?_⟩
  · simp [horder]
  · simp [h.path, circuit.laps_succ, Circuit.lap, hb]
  · simp [Context.enterLoop, hstate]
  · have hne : circuit.last.id ≠ circuit.loop.id := Ne.symm (hr.loop_ne hm)
    have hindex : ((p + 1 : Nat) : Int) ≠ 0 := by omega
    have hcollected : Step.Loop.collected
        { context with order := context.order ++ [circuit.last.id] }
        ⟨circuit.loop.id, (p + 1 : Nat), circuit.outputs visits, most⟩ =
          [Outcome.optionalObject (outcome.successOutput.or outcome.output)] :=
      Step.Loop.collected_of_index_ne List.getLast?_concat hne hindex hnodes
    rw [circuit.outputs_snoc_last]
    exact congrArg (circuit.outputs visits ++ ·) hcollected

/-- On the first pass a node of the body leads on to the next one, which was never visited. -/
theorem gives_body_next {post : Walk → Scene → Prop} {node next : Node} {pre rest : List Node}
    (hb : circuit.body = pre ++ node :: next :: rest)
    (h : InBody circuit most 0 pre visits scene.context)
    (hpost : ∀ visits scene, InBody circuit most 0 (pre ++ [node]) visits scene.context →
      (Engine.walkOn engine graph limit left ⟨[next], visits, false, none⟩).Gives scene post) :
    (Engine.walkOn engine graph limit (left + 1) ⟨[node], visits, false, none⟩).Gives scene
      post := by
  obtain ⟨-, -, -, -, -, -, hnd⟩ := hr.ids
  have hm : node ∈ circuit.body := by simp [hb]
  have hn : next ∈ circuit.body := by simp [hb]
  have hlast : node.id ≠ circuit.last.id := by
    have hg := circuit.body_getLast?
    rw [hb, List.append_cons, List.getLast?_append_of_ne_nil _ (List.cons_ne_nil _ _)] at hg
    rw [hb, List.map_append, List.map_cons] at hnd
    have hnotin := (List.nodup_cons.mp (List.nodup_append.mp hnd).2.1).1
    exact fun e => hnotin (e ▸ List.mem_map_of_mem (List.mem_of_getLast? hg))
  refine Engine.gives_walkOn (gives_inBody hr ht hm h ?_)
  intro outcome context place hstatus hhalts horder hedges hstate hnodes
  have hend := (hr.body node hm).2.2
  have hnext : graph.next node.id outcome.status = [next] := hr.next_body hb
  have hnew : Walk.mayEnter (visits.map (·.node.id) ++ [node.id]) outcome.status next = true := by
    have hstart : next.id ≠ circuit.start.id := Ne.symm (hr.start_ne hn)
    have hloop : next.id ≠ circuit.loop.id := Ne.symm (hr.loop_ne hn)
    have hpre : next.id ∉ (pre ++ [node]).map (·.id) := by
      rw [hb, List.append_cons, List.map_append, List.nodup_append] at hnd
      exact fun hm => hnd.2.2 _ hm _ List.mem_cons_self rfl
    rw [Walk.mayEnter_iff, h.path]
    left
    simpa [Circuit.laps, hstart, hloop] using hpre
  have hfine : outcome.status ≠ .failure := by rw [hstatus]; decide
  obtain ⟨hw, hc⟩ := Turn.after_next graph visits context hend hhalts hfine hnext hnew
  simp only [hw, hc]
  refine hpost _ _ ⟨?_, ?_, hedges, ?_⟩
  · simp [horder]
  · simp [h.path]
  · rw [circuit.outputs_snoc_of_ne outcome visits hlast]
    exact hstate

/-- A pass goes through the whole body and back to the loop when no node of the body was visited
before, or when there is only one. -/
theorem gives_body {post : Walk → Scene → Prop} {node : Node} {pre rest : List Node}
    (hfresh : p = 0 ∨ circuit.rest = []) (hb : circuit.body = pre ++ node :: rest)
    (h : InBody circuit most p pre visits scene.context)
    (hpost : ∀ visits scene, AtLoop circuit most (p + 1) visits scene.context →
      (Engine.walkOn engine graph limit left ⟨[circuit.loop], visits, false, none⟩).Gives scene
        post) :
    (Engine.walkOn engine graph limit (left + (node :: rest).length)
      ⟨[node], visits, false, none⟩).Gives scene post := by
  induction rest generalizing node pre visits scene with
  | nil =>
    obtain rfl : circuit.last = node := by
      have hg := circuit.body_getLast?
      rw [hb, List.getLast?_concat] at hg
      exact (Option.some.inj hg).symm
    exact gives_body_last hr ht hb h hpost
  | cons next rest ih =>
    obtain rfl : p = 0 := by
      refine hfresh.resolve_right fun hr' => ?_
      have hlength := congrArg List.length hb
      simp only [Circuit.body, hr', List.length_append, List.length_cons, List.length_nil]
        at hlength
      omega
    refine gives_body_next hr ht hb h fun visits scene hin => ?_
    exact ih (by simp [hb]) hin

/-- All passes succeed when there is at most one, or when the body is a single node. -/
theorem gives_iterated (hfresh : circuit.rest = [] ∨ k ≤ 1) {m : Nat} (hm : p + m = k)
    (h : AtLoop circuit most p visits scene.context) :
    (Engine.walkOn engine graph limit (left + m * (circuit.rest.length + 2) + 2)
      ⟨[circuit.loop], visits, false, none⟩).Gives scene
        fun walk scene => Iterated circuit k most walk scene.context := by
  induction m generalizing p visits scene with
  | zero =>
    obtain rfl : p = k := hm
    exact gives_leave hr ht h
  | succ m ih =>
    have hsteps : left + (m + 1) * (circuit.rest.length + 2) + 2 =
        left + m * (circuit.rest.length + 2) + 2 + (circuit.first :: circuit.rest).length + 1 := by
      rw [Nat.succ_mul, List.length_cons]
      omega
    have hfresh' : p = 0 ∨ circuit.rest = [] :=
      hfresh.elim Or.inr fun hk => Or.inl (by omega)
    rw [hsteps]
    refine gives_goOn hr ht h (by omega) fun visits scene hin => ?_
    refine gives_body hr ht hfresh' (List.nil_append _).symm hin fun visits scene hat => ?_
    exact ih (by omega) hat

/-- With a second node in the body, the second pass ends at the first one. -/
theorem gives_stalled {second : Node} {rest : List Node} (hrest : circuit.rest = second :: rest)
    (hk : 2 ≤ k) (h : AtLoop circuit most 0 visits scene.context) :
    (Engine.walkOn engine graph limit (left + circuit.rest.length + 4)
      ⟨[circuit.loop], visits, false, none⟩).Gives scene
        fun walk scene => Stalled circuit second walk scene.context := by
  have hsteps : left + circuit.rest.length + 4 =
      left + 2 + (circuit.first :: circuit.rest).length + 1 := by
    rw [List.length_cons]
    omega
  rw [hsteps]
  refine gives_goOn hr ht h (by omega) fun visits scene hin => ?_
  refine gives_body hr ht (Or.inl rfl) (List.nil_append _).symm hin fun visits scene hat => ?_
  refine gives_goOn hr ht hat (by omega) fun visits scene hin => ?_
  have hfirst : circuit.first ∈ circuit.body := List.mem_cons_self
  have hsecond : second ∈ circuit.body := by simp [Circuit.body, hrest]
  have hend := (hr.body circuit.first hfirst).2.2
  refine Engine.gives_walkOn (gives_inBody hr ht hfirst hin ?_)
  intro outcome context place hstatus hhalts horder _ _ _
  have hbody : circuit.body = [] ++ circuit.first :: second :: rest := by
    rw [Circuit.body, hrest, List.nil_append]
  have hnext : graph.next circuit.first.id outcome.status = [second] := hr.next_body hbody
  have hold : Walk.mayEnter (visits.map (·.node.id) ++ [circuit.first.id]) outcome.status second =
      false := by
    rw [Bool.eq_false_iff, Ne, Walk.mayEnter_iff, hstatus, hin.path]
    rintro (hm | hm | hm)
    · exact hm (by simp [Circuit.laps, Circuit.lap, hbody])
    · cases hm
    · exact (hr.body second hsecond).2.1 hm
  have hfine : outcome.status ≠ .failure := by rw [hstatus]; decide
  have herror : Walk.enqueue (visits.map (·.node.id) ++ [circuit.first.id]) outcome.status []
      (endsLast (graph.next circuit.first.id outcome.status)) = .error second := by
    rw [hnext, Turn.enqueue_singleton, hold]
    rfl
  obtain ⟨hw, hc⟩ := Turn.after_refused graph visits context hend hhalts hfine herror
  simp only [hw, hc]
  refine Engine.gives_walkOn_over rfl ⟨rfl, rfl, ?_, ?_, rfl⟩
  · simp [Walk.executed, Context.fail, horder]
  · simp [Walk.executed, hin.path]

theorem gives_start {post : Walk → Scene → Prop} {executionId : String} {payload : Entries Value}
    {now : Instant} {place : Place}
    (hpost : ∀ visits scene, AtLoop circuit most 0 visits scene.context →
      (Engine.walkOn engine graph limit left ⟨[circuit.loop], visits, false, none⟩).Gives scene
        post) :
    (Engine.walkOn engine graph limit (left + 1) (Walk.starting (Engine.startOf graph))).Gives
      ⟨Engine.opening graph executionId payload now, place⟩ post := by
  have hstart : Engine.startOf graph = circuit.start := startOf_eq hr
  have hend : circuit.start.type.isTerminal = false := by rw [hr.start]; rfl
  have hlast : circuit.start.id ≠ circuit.last.id := hr.start_ne circuit.last_mem
  rw [hstart, Walk.starting]
  refine Engine.gives_walkOn (ht.start.gives_visit ?_)
  intro outcome context place hstatus hhalts hrec
  have hnew : Walk.mayEnter (([] : List Visit).map (·.node.id) ++ [circuit.start.id]) outcome.status
      circuit.loop = true := Walk.mayEnter_iff.mpr (Or.inr (Or.inr hr.loop))
  have hfine : outcome.status ≠ .failure := by rw [hstatus]; decide
  obtain ⟨hw, hc⟩ := Turn.after_next graph [] context hend hhalts hfine hr.next_start hnew
  simp only [hw, hc]
  have horder : context.order = [] := hrec.order.trans (Engine.order_opening _ _ _ _)
  have hstates : context.loopStates = [] :=
    hrec.loopStates.trans (Engine.loopStates_opening _ _ _ _)
  obtain ⟨hedges, hbodies⟩ := Engine.loops_opening executionId payload now
    (hr.nodes.mem_iff.mpr (by simp [Circuit.nodes])) hr.loop
  have hindex : ((0 : Nat) : Int) = 0 := rfl
  have hcollected : Step.Loop.collected
      { context with order := context.order ++ [circuit.start.id] }
      ⟨circuit.loop.id, (0 : Nat), [], most⟩ = [] :=
    Step.Loop.collected_of_index_eq List.getLast?_concat hindex
      ((congrArg (Entries.get? · circuit.loop.id) hrec.loopBodies).trans hbodies)
      hr.start_not_mem_loopBody
  refine hpost _ _ ⟨?_, ?_, ?_, [], ?_, ?_⟩
  · simp [horder]
  · simp [Circuit.laps]
  · rw [← hr.hasContinueEdge, ← hedges]
    exact congrArg (Entries.get? · circuit.loop.id) hrec.loopEdges
  · simp [Context.enterLoop, hstates]
  · rw [circuit.outputs_snoc_of_ne outcome [] hlast]
    exact hcollected

end Steps

end Tour

end FlowEngine
