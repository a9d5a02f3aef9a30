import Mathlib.Logic.Hydra
import Mathlib.Tactic.Abel
import FlowEngine.Proofs.Dispatch.Together

/-!
# No order of steps goes on for ever

In a step one thread comes closer to its end, and the runs that it starts are enclosed by more runs than
itself. Since there are not more of those than the depth says, threads are exhausted in whatever order
they take their steps.
-/

namespace FlowEngine

open Exchange

namespace Dialogue

variable {α : Type}

inductive Later : Dialogue α → Dialogue α → Prop where
  | mk (request : Request) (next : request.Reply → Dialogue α) (reply : request.Reply) :
      Later (next reply) (.ask request next)

theorem wellFounded_later : WellFounded (Later (α := α)) := by
  constructor
  intro x
  induction x with
  | done a =>
    constructor
    rintro y ⟨⟩
  | ask request next ih =>
    constructor
    rintro y ⟨⟩
    exact ih _

end Dialogue

namespace Thread

/-- How many runs a thread can still enclose, and what is left of it. -/
def size (bound : Nat) (thread : Thread) : Nat × Dialogue Unit :=
  (bound - thread.origin.chain.length, thread.rest)

/-- Threads that enclose fewer runs are smaller, and so is what is left of a thread after a reply. -/
def Smaller : Nat × Dialogue Unit → Nat × Dialogue Unit → Prop :=
  Prod.Lex (· < ·) Dialogue.Later

theorem wellFounded_smaller : WellFounded Smaller :=
  WellFounded.prod_lex Nat.lt_wfRel.wf Dialogue.wellFounded_later

theorem smaller_reply (bound : Nat) {origin : Origin} {past past' : List Exchange}
    {request : Request} {next : request.Reply → Dialogue Unit} (reply : request.Reply) :
    Smaller (size bound ⟨origin, past', next reply⟩) (size bound ⟨origin, past, .ask request next⟩) :=
  Prod.Lex.right _ (.mk request next reply)

theorem smaller_opened {d : Dispatcher} {bound : Nat} {thread : Thread} {start : Start}
    (h : d.Beneath bound thread.origin.chain start) :
    Smaller (size bound (.opened d (.background start))) (size bound thread) := by
  apply Prod.Lex.left
  have hchain := h.chain.length_le
  have hlength := h.length
  have hinside : (Origin.background start).chain.length = start.chain.length + 1 := by
    simp [Origin.chain]
  simp only [opened, hinside]
  omega

end Thread

namespace Together

variable {σ : Type} {d : Dispatcher} {o : Outside σ} {s s' : Together σ} {site : Site σ} {most : Nat}

def sizes (bound : Nat) (s : Together σ) : Multiset (Nat × Dialogue Unit) :=
  s.threads.map (Thread.size bound)

section Depth

variable (hd : d.Ordinary) (hdepth : Limit.least ">=" d.maxDepth = .ok most)

include hd hdepth

theorem Sound.cutExpand (h : Sound d site s) (hs : Step d o s s') :
    Relation.CutExpand Thread.Smaller (s'.sizes (max 1 most)) (s.sizes (max 1 most)) := by
  cases hs with
  | @turn i origin past request next hi =>
    obtain ⟨hlength, hget⟩ := List.getElem?_eq_some_iff.mp hi
    have hbefore : s.threads = s.threads.take i ++
        ⟨origin, past, .ask request next⟩ :: s.threads.drop (i + 1) := by
      rw [← hget, ← List.drop_eq_getElem_cons hlength, List.take_append_drop]
    have hafter : (s.turned d o i origin past request next).threads =
        s.threads.take i ++ s.moved o origin past request next :: s.threads.drop (i + 1) ++
          (Exchange.starts [s.asked o request]).map fun start => .opened d (.background start) := by
      rw [threads_turned h.starts, List.set_eq_take_append_cons_drop, if_pos hlength]
      rfl
    generalize s.threads.take i = before at hbefore hafter
    generalize s.threads.drop (i + 1) = after at hbefore hafter
    refine ⟨Thread.size (max 1 most) (s.moved o origin past request next) ::ₘ
      ((Exchange.starts [s.asked o request]).map fun start =>
        Thread.size (max 1 most) (.opened d (.background start)) :
          List (Nat × Dialogue Unit)),
      Thread.size (max 1 most) ⟨origin, past, .ask request next⟩, ?_, ?_⟩
    · intro size hsize
      rcases Multiset.mem_cons.mp hsize with rfl | hsize
      · exact Thread.smaller_reply _ _
      · obtain ⟨start, hstart, rfl⟩ := List.mem_map.mp (Multiset.mem_coe.mp hsize)
        apply Thread.smaller_opened
        exact h.beneath_asked hd hdepth hi start hstart
    · simp only [sizes, hbefore, hafter, List.map_append, List.map_cons, List.map_map,
        ← Multiset.coe_add, ← Multiset.cons_coe, ← Multiset.singleton_add, Function.comp_def]
      abel

/-- No order of steps goes on for ever. -/
theorem Sound.acc (h : Sound d site s) : Acc (fun later earlier => Step d o earlier later) s := by
  have hwf := Thread.wellFounded_smaller.cutExpand.apply (s.sizes (max 1 most))
  generalize hsizes : s.sizes (max 1 most) = sizes at hwf
  induction hwf generalizing s with
  | intro sizes _ ih =>
    constructor
    intro s' hs
    subst hsizes
    exact ih _ (h.cutExpand hd hdepth hs) (h.step hd hdepth hs) rfl

end Depth

end Together

end FlowEngine
