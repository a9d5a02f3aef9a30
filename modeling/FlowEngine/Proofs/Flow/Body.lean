import FlowEngine.Flow.Graph
import Mathlib.Data.List.Chain
import Mathlib.Data.List.Nodup
import Mathlib.Logic.Relation

/-!
# The body of a loop

The search for the body of a loop, round by round and without a bound, beside the paths that lead out
of the loop by its continue edges. In whatever circles the edges of a flow run, the search ends, and it
lists what such a path leads to before it comes back to the loop, each id once.
-/

namespace FlowEngine.FlowGraph

variable {graph : FlowGraph} {loop id next : String} {pending body : List String}
  {path : List Edge} {edge : Edge}

theorem mem_successors_iff : next ∈ graph.successors id ↔
    ∃ edge ∈ graph.edges, edge.source = id ∧ edge.target = next := by
  simp [successors, outgoing, and_assoc]

theorem mem_continueTargets_iff : next ∈ graph.continueTargets loop ↔
    ∃ edge ∈ graph.edges, (edge.source = loop ∧ edge.condition = .continuing) ∧
      edge.target = next := by
  simp [continueTargets, outgoing, and_assoc, and_left_comm]

/-- Edges one after the other, the first one a continue edge of a loop and none of them back to it. -/
structure BodyPath (graph : FlowGraph) (loop : String) (path : List Edge) (id : String) : Prop where
  edges : ∀ edge ∈ path, edge ∈ graph.edges
  joined : path.IsChain fun edge next => edge.target = next.source
  out : ∃ first, path.head? = some first ∧ first.source = loop ∧ first.condition = .continuing
  apart : ∀ edge ∈ path, edge.target ≠ loop
  last : path.getLast?.map (·.target) = some id

namespace BodyPath

theorem one (he : edge ∈ graph.edges) (hs : edge.source = loop) (hc : edge.condition = .continuing)
    (ht : edge.target ≠ loop) : graph.BodyPath loop [edge] edge.target where
  edges := by simpa using he
  joined := .singleton edge
  out := ⟨edge, rfl, hs, hc⟩
  apart := by simpa using ht
  last := rfl

theorem snoc (h : graph.BodyPath loop path id) (he : edge ∈ graph.edges) (hs : edge.source = id)
    (ht : edge.target ≠ loop) : graph.BodyPath loop (path ++ [edge]) edge.target where
  edges := by
    intro other ho
    rcases List.mem_append.mp ho with ho | ho
    · exact h.edges other ho
    · exact List.mem_singleton.mp ho ▸ he
  joined := by
    refine List.isChain_append.mpr ⟨h.joined, .singleton edge, ?_⟩
    intro before hb after ha
    cases ha
    have hlast := h.last
    rw [Option.mem_def.mp hb] at hlast
    exact (Option.some.inj hlast).trans hs.symm
  out := by
    obtain ⟨first, hf, hfirst⟩ := h.out
    exact ⟨first, by rw [List.head?_append, hf]; rfl, hfirst⟩
  apart := by
    intro other ho
    rcases List.mem_append.mp ho with ho | ho
    · exact h.apart other ho
    · exact List.mem_singleton.mp ho ▸ ht
  last := by simp

end BodyPath

theorem forall_target_of_joined {p : String → Prop} {first : Edge} {rest : List Edge}
    (hj : (first :: rest).IsChain fun edge next => edge.target = next.source)
    (hfirst : p first.target) (hon : ∀ edge ∈ rest, p edge.source → p edge.target) :
    ∀ edge ∈ first :: rest, p edge.target := by
  induction rest generalizing first with
  | nil =>
    intro edge he
    exact List.mem_singleton.mp he ▸ hfirst
  | cons second rest ih =>
    obtain ⟨hsame, hrest⟩ := List.isChain_cons_cons.mp hj
    have hsecond : p second.target := hon second List.mem_cons_self (hsame ▸ hfirst)
    intro edge he
    rcases List.mem_cons.mp he with rfl | he
    · exact hfirst
    · exact ih hrest hsecond (fun edge h => hon edge (List.mem_cons_of_mem second h)) edge he

theorem BodyPath.induct {p : String → Prop} (h : graph.BodyPath loop path id)
    (hout : ∀ next ∈ graph.continueTargets loop, next ≠ loop → p next)
    (hon : ∀ id, p id → ∀ next ∈ graph.successors id, next ≠ loop → p next) : p id := by
  obtain ⟨first, hf, hs, hc⟩ := h.out
  obtain ⟨last, hl, rfl⟩ := Option.map_eq_some_iff.mp h.last
  obtain ⟨rest, rfl⟩ := List.head?_eq_some_iff.mp hf
  refine forall_target_of_joined h.joined ?_ ?_ last (List.mem_of_getLast? hl)
  · exact hout first.target
      (mem_continueTargets_iff.mpr ⟨first, h.edges first List.mem_cons_self, ⟨hs, hc⟩, rfl⟩)
      (h.apart first List.mem_cons_self)
  · intro edge he hp
    have hm : edge ∈ first :: rest := List.mem_cons_of_mem first he
    exact hon edge.source hp edge.target (mem_successors_iff.mpr ⟨edge, h.edges edge hm, rfl, rfl⟩)
      (h.apart edge hm)

/-- The ids that a search has still to look at, and the body it has found so far. -/
structure Search where
  pending : List String
  body : List String

namespace Search

def starting (graph : FlowGraph) (loop : String) : Search := ⟨graph.continueTargets loop, []⟩

/-- An id needs no more looking for: it is the loop's own, it is pending, or it has been found. -/
def Knows (search : Search) (loop id : String) : Prop :=
  id = loop ∨ id ∈ search.pending ∨ id ∈ search.body

end Search

/-- One round of the search for the body of a loop: the first id that is pending is passed over or
entered. -/
inductive Round (graph : FlowGraph) (loop : String) : Search → Search → Prop where
  | pass (id : String) (pending body : List String) (h : id = loop ∨ id ∈ body) :
      Round graph loop ⟨id :: pending, body⟩ ⟨pending, body⟩
  | enter (id : String) (pending body : List String) (hne : id ≠ loop) (hnew : id ∉ body) :
      Round graph loop ⟨id :: pending, body⟩ ⟨pending ++ graph.successors id, body ++ [id]⟩

variable {search search' search'' : Search}

theorem Round.knows (h : graph.Round loop search search') (hk : search.Knows loop id) :
    search'.Knows loop id := by
  unfold Search.Knows at hk ⊢
  cases h with
  | pass entered pending body hid => grind
  | enter entered pending body hne hnew => grind

theorem Round.unique (h : graph.Round loop search search') (h' : graph.Round loop search search'') :
    search' = search'' := by
  cases h with
  | pass _ _ _ hid =>
    cases h' with
    | pass => rfl
    | enter _ _ _ hne hnew => exact (hid.elim hne hnew).elim
  | enter _ _ _ hne hnew =>
    cases h' with
    | pass _ _ _ hid => exact (hid.elim hne hnew).elim
    | enter => rfl

/-- What is true of a search after any number of rounds. -/
structure Search.Tracks (graph : FlowGraph) (loop : String) (search : Search) : Prop where
  nodup : search.body.Nodup
  apart : loop ∉ search.body
  reached : ∀ id, id ∈ search.pending ∨ id ∈ search.body → id ≠ loop →
    ∃ path, graph.BodyPath loop path id
  begun : ∀ id ∈ graph.continueTargets loop, search.Knows loop id
  closed : ∀ id ∈ search.body, ∀ next ∈ graph.successors id, search.Knows loop next

namespace Search

theorem tracks_starting (graph : FlowGraph) (loop : String) :
    (starting graph loop).Tracks graph loop where
  nodup := List.nodup_nil
  apart := List.not_mem_nil
  reached := by
    rintro id (hid | hid) hne
    · obtain ⟨edge, he, ⟨hs, hc⟩, rfl⟩ := mem_continueTargets_iff.mp hid
      exact ⟨[edge], .one he hs hc hne⟩
    · cases hid
  begun _ hid := Or.inr (Or.inl hid)
  closed _ hid := (List.not_mem_nil hid).elim

theorem Tracks.round (h : search.Tracks graph loop) (hr : graph.Round loop search search') :
    search'.Tracks graph loop := by
  have hbegun : ∀ id ∈ graph.continueTargets loop, search'.Knows loop id :=
    fun id hid => hr.knows (h.begun id hid)
  have hclosed : ∀ id ∈ search.body, ∀ next ∈ graph.successors id, search'.Knows loop next :=
    fun id hid next hn => hr.knows (h.closed id hid next hn)
  cases hr with
  | pass =>
    exact {
      nodup := h.nodup
      apart := h.apart
      reached := fun id hid => h.reached id (hid.imp_left (List.mem_cons_of_mem _))
      begun := hbegun
      closed := hclosed }
  | enter entered pending body hne hnew =>
    obtain ⟨path, hpath⟩ := h.reached entered (Or.inl List.mem_cons_self) hne
    refine ⟨?nodup, ?apart, ?reached, hbegun, ?closed⟩
    case nodup => exact List.nodup_append.mpr ⟨h.nodup, List.nodup_singleton _, by grind⟩
    case apart =>
      have hapart := h.apart
      grind
    case reached =>
      intro id hid hid'
      simp only [List.mem_append, List.mem_singleton] at hid
      rcases hid with (hid | hid) | hid | rfl
      · exact h.reached id (Or.inl (List.mem_cons_of_mem _ hid)) hid'
      · -- What has become pending is one edge further than the id that was entered.
        obtain ⟨edge, he, hs, rfl⟩ := mem_successors_iff.mp hid
        exact ⟨path ++ [edge], hpath.snoc he hs hid'⟩
      · exact h.reached id (Or.inr hid) hid'
      · exact ⟨path, hpath⟩
    case closed =>
      intro id hid next hn
      rcases List.mem_append.mp hid with hid | hid
      · exact hclosed id hid next hn
      · exact Or.inr (Or.inl (List.mem_append_right _ (List.mem_singleton.mp hid ▸ hn)))

theorem Tracks.rounds (h : search.Tracks graph loop)
    (hr : Relation.ReflTransGen (graph.Round loop) search search') : search'.Tracks graph loop := by
  induction hr with
  | refl => exact h
  | tail _ hlast ih => exact ih.round hlast

theorem Tracks.mem_body_iff (h : Tracks graph loop ⟨[], body⟩) :
    id ∈ body ↔ id ≠ loop ∧ ∃ path, graph.BodyPath loop path id := by
  have hknown : ∀ id, Knows ⟨[], body⟩ loop id → id ≠ loop → id ∈ body := by
    rintro id (hid | hid | hid) hne
    · exact absurd hid hne
    · cases hid
    · exact hid
  constructor
  · intro hid
    have hne : id ≠ loop := fun e => h.apart (e ▸ hid)
    exact ⟨hne, h.reached id (Or.inr hid) hne⟩
  · rintro ⟨-, path, hpath⟩
    refine hpath.induct (p := (· ∈ body)) ?_ ?_
    · exact fun next hn => hknown next (h.begun next hn)
    · exact fun id hid next hn => hknown next (h.closed id hid next hn)

end Search

/-- How many edges lead to an id that is not in the body yet. -/
def unentered (graph : FlowGraph) (body : List String) : Nat :=
  (graph.edges.filter fun edge => edge.target ∉ body).length

theorem unentered_snoc_lt (he : edge ∈ graph.edges) (hnew : edge.target ∉ body) :
    graph.unentered (body ++ [edge.target]) < graph.unentered body := by
  have hsplit : graph.edges.filter (fun other => other.target ∉ body ++ [edge.target]) =
      (graph.edges.filter fun other => other.target ∉ body).filter
        fun other => other.target ≠ edge.target := by
    rw [List.filter_filter]
    apply List.filter_congr
    intro other _
    simp [and_comm]
  rw [unentered, hsplit, unentered, List.length_filter_lt_length_iff_exists]
  exact ⟨edge, List.mem_filter.mpr ⟨he, by simpa using hnew⟩, by simp⟩

/-- A bound that counts the edges to ids outside the body is never met, and the search goes on until
nothing is pending. -/
theorem rounds_searchBody {steps : Nat} (hp : ∀ id ∈ pending, ∃ edge ∈ graph.edges, edge.target = id)
    (hs : graph.unentered body ≤ steps) :
    Relation.ReflTransGen (graph.Round loop) ⟨pending, body⟩
      ⟨[], graph.searchBody loop steps pending body⟩ := by
  fun_induction searchBody graph loop steps pending body with
  | case1 => exact .refl
  | case2 steps id pending body hseen ih =>
    have hpass : id = loop ∨ id ∈ body := by simpa using hseen
    exact .head (.pass id pending body hpass) (ih (fun id hid => hp id (List.mem_cons_of_mem _ hid)) hs)
  | case3 id pending body hseen =>
    obtain ⟨edge, he, rfl⟩ := hp id List.mem_cons_self
    have hnew : edge.target ∉ body := by simp_all
    have hless := unentered_snoc_lt he hnew
    omega
  | case4 id pending body hseen steps ih =>
    have hne : id ≠ loop := by simp_all
    have hnew : id ∉ body := by simp_all
    refine .head (.enter id pending body hne hnew) (ih ?_ ?_)
    · intro next hn
      rcases List.mem_append.mp hn with hn | hn
      · exact hp next (List.mem_cons_of_mem _ hn)
      · obtain ⟨edge, he, -, ht⟩ := mem_successors_iff.mp hn
        exact ⟨edge, he, ht⟩
    · obtain ⟨edge, he, rfl⟩ := hp id List.mem_cons_self
      have hless := unentered_snoc_lt he hnew
      omega

theorem rounds_loopBody (graph : FlowGraph) (loop : String) :
    Relation.ReflTransGen (graph.Round loop) (.starting graph loop) ⟨[], graph.loopBody loop⟩ := by
  refine rounds_searchBody ?_ (List.length_filter_le _ _)
  intro id hid
  obtain ⟨edge, he, -, ht⟩ := mem_continueTargets_iff.mp hid
  exact ⟨edge, he, ht⟩

/-- A search that has come to its end cannot have gone on for ever, as no round leaves a choice. -/
theorem acc_of_rounds (h : Relation.ReflTransGen (graph.Round loop) search ⟨[], body⟩) :
    Acc (fun later now => graph.Round loop now later) search := by
  induction h using Relation.ReflTransGen.head_induction_on with
  | refl => exact ⟨_, fun later hr => nomatch hr⟩
  | head hround _ ih => exact ⟨_, fun later hr => hround.unique hr ▸ ih⟩

/-- The search for the body of a loop ends, and lists exactly the ids that lie on the paths out of the
loop before they come back to it, each of them once. -/
theorem loopBody_lists_reached (graph : FlowGraph) (loop : String) :
    Acc (fun later now => graph.Round loop now later) (.starting graph loop) ∧
    Relation.ReflTransGen (graph.Round loop) (.starting graph loop) ⟨[], graph.loopBody loop⟩ ∧
    (graph.loopBody loop).Nodup ∧
    ∀ id, id ∈ graph.loopBody loop ↔ id ≠ loop ∧ ∃ path, graph.BodyPath loop path id := by
  have hrounds := rounds_loopBody graph loop
  have htracks := (Search.tracks_starting graph loop).rounds hrounds
  exact ⟨acc_of_rounds hrounds, hrounds, htracks.nodup, fun _ => htracks.mem_body_iff⟩

end FlowEngine.FlowGraph
