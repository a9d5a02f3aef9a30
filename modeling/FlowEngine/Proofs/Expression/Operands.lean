import FlowEngine.Proofs.Retry.Readable

/-!
# Operands that have a double

Arithmetic is done in doubles, and only an integer beyond all doubles has none. A value that stands
for no number has one that is none, so a difference, product or quotient with it is the empty text.
-/

namespace FlowEngine.Value

variable {op : Operator} {a b v : Value}

/-- Both operands are computed with. A sum only computes with two numbers, and else joins texts. -/
def Computes (op : Operator) (a b : Value) : Prop :=
  op = .plus → a.isNumber = true ∧ b.isNumber = true

def IsUncounted (v : Value) : Prop := v.asDouble = .ok .nan

theorem asDouble_cases (v : Value) :
    v.NearDouble ∧ (∃ d, v.asDouble = .ok d) ∨
      ¬ v.NearDouble ∧ v.asDouble = .error .integerTooLarge := by
  cases v with
  | int n =>
    have hdouble : asDouble (.int n) = Numeric.toDouble (.int n) := rfl
    rw [hdouble, Numeric.toDouble]
    obtain ⟨hnear, d, hd⟩ | ⟨hfar, hd⟩ := ofInt?_cases n
    · rw [hd]
      exact Or.inl ⟨hnear, d, rfl⟩
    · rw [hd]
      exact Or.inr ⟨hfar, rfl⟩
  | _ => exact Or.inl ⟨nearDouble_of_ne_int (by simp), _, rfl⟩

theorem toDouble_of_numeric? {x : Numeric} (h : v.numeric? = some x) : x.toDouble = v.asDouble := by
  cases v with
  | int n => cases h; rfl
  | double d => cases h; rfl
  | _ => cases h

theorem evaluate_of_computes (hc : Computes op a b) :
    ∃ f : Double → Double → Value, evaluate op a b =
      a.asDouble >>= fun x => b.asDouble >>= fun y => .ok (f x y) := by
  by_cases hp : op = .plus
  · subst hp
    obtain ⟨x, hx⟩ := Option.isSome_iff_exists.mp (hc rfl).1
    obtain ⟨y, hy⟩ := Option.isSome_iff_exists.mp (hc rfl).2
    refine ⟨fun x y => ofDouble (Double.add x y), ?_⟩
    rw [← toDouble_of_numeric? hx, ← toDouble_of_numeric? hy]
    simp only [evaluate, hx, hy]
  · refine ⟨fun x y => if x.isNan || y.isNan then .text "" else combine op x y, ?_⟩
    cases op with
    | plus => exact absurd rfl hp
    | _ =>
      simp only [evaluate]
      -- The left operand is the first to become a double, so its fault is the first too.
      cases a.asDouble with
      | error fault => rfl
      | ok x =>
        cases b.asDouble with
        | error fault => rfl
        | ok y =>
          simp only [bind, Except.bind]
          split <;> rfl

theorem evaluate_of_not_computes (hc : ¬ Computes op a b) :
    evaluate op a b = .ok (.text (a.inline ++ b.inline)) := by
  have hp : op = .plus := by
    by_contra hp
    exact hc fun h => absurd h hp
  subst hp
  cases ha : a.numeric? with
  | none => simp [evaluate, ha]
  | some x =>
    cases hb : b.numeric? with
    | none => simp [evaluate, ha, hb]
    | some y => exact absurd (fun _ => ⟨by simp [isNumber, ha], by simp [isNumber, hb]⟩) hc

/-- What is computed with has to have a double; nothing else is a fault of arithmetic. -/
theorem evaluate_cases (op : Operator) (a b : Value) :
    (Computes op a b → a.NearDouble ∧ b.NearDouble) ∧ (∃ v, evaluate op a b = .ok v) ∨
      ¬ (Computes op a b → a.NearDouble ∧ b.NearDouble) ∧
        evaluate op a b = .error .integerTooLarge := by
  by_cases hc : Computes op a b
  · obtain ⟨f, hf⟩ := evaluate_of_computes hc
    simp only [hc, true_implies, hf]
    rcases asDouble_cases a with ⟨ha, x, hx⟩ | ⟨ha, hx⟩
    · rcases asDouble_cases b with ⟨hb, y, hy⟩ | ⟨hb, hy⟩
      · exact Or.inl ⟨⟨ha, hb⟩, f x y, by rw [hx, hy]; rfl⟩
      · exact Or.inr ⟨fun h => hb h.2, by rw [hx, hy]; rfl⟩
    · exact Or.inr ⟨fun h => ha h.1, by rw [hx]; rfl⟩
  · exact Or.inl ⟨fun h => absurd h hc, _, evaluate_of_not_computes hc⟩

theorem NearDouble.asDouble (h : v.NearDouble) : ∃ d, v.asDouble = .ok d := by
  rcases asDouble_cases v with ⟨-, hd⟩ | ⟨hn, -⟩
  · exact hd
  · exact absurd h hn

theorem evaluate_uncounted (hp : op ≠ .plus) (ha : a.NearDouble) (hb : b.NearDouble)
    (hu : a.IsUncounted ∨ b.IsUncounted) : evaluate op a b = .ok (.text "") := by
  obtain ⟨x, hx⟩ := ha.asDouble
  obtain ⟨y, hy⟩ := hb.asDouble
  have hnan : (x.isNan || y.isNan) = true := by
    rcases hu with h | h
    · have hsame : x = .nan := Except.ok.inj (hx.symm.trans h)
      simp [hsame, Double.isNan]
    · have hsame : y = .nan := Except.ok.inj (hy.symm.trans h)
      simp [hsame, Double.isNan]
  cases op with
  | plus => exact absurd rfl hp
  | _ => simp [evaluate, hx, hy, hnan, bind, Except.bind]

end FlowEngine.Value
