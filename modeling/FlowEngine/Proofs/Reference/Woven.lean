import FlowEngine.Proofs.Reference.Substitution

/-!
# Literal text with references in between

Text in which no reference begins stays as it is, wherever it stands in a template. A template made of
such text and of references in between resolves to the same text with the string form of each value in
between. A string form is not read again, so braces that come from data stay what they are.
-/

namespace FlowEngine

namespace Template

/-- Text in which no reference begins, and none with what follows it: two braces do not open next to
each other, and none opens at the end. -/
structure IsLiteral (s : List Char) : Prop where
  apart : ¬ ['\x7b', '\x7b'] <:+: s
  closed : s.getLast? ≠ some '\x7b'

/-- A first text, and then by turns something in between and a further text. -/
def woven (first : List Char) (rest : List (List Char × List Char)) : List Char :=
  first ++ rest.flatMap fun (between, literal) => between ++ literal

variable {s t first : List Char} {rest : List (List Char × List Char)} {c : Char}

theorem IsLiteral.tail (h : IsLiteral (c :: s)) : IsLiteral s where
  apart hs := h.apart (hs.trans (List.suffix_cons c s).isInfix)
  closed hs := by
    cases s with
    | nil => cases hs
    | cons d s => exact h.closed (by rw [List.getLast?_cons_cons, hs])

theorem ne_braced (h : ¬ ['\x7b', '\x7b'] <+: s) (body after : List Char) :
    s ≠ braced body ++ after := by
  rintro rfl
  rw [braced_append] at h
  exact h (List.prefix_append ['\x7b', '\x7b'] _)

theorem pieces_apart (h : ¬ ['\x7b', '\x7b'] <:+: s) : pieces s = s.map .char := by
  induction s with
  | nil => rw [pieces]; rfl
  | cons c s ih =>
    rw [pieces_char fun body after _ => ne_braced (fun hp => h hp.isInfix) body after,
      ih fun hs => h (hs.trans (List.suffix_cons c s).isInfix), List.map_cons]

/-- At a place of literal text no two braces open, also if the next text begins there with one. -/
theorem IsLiteral.not_prefix (h : IsLiteral (c :: s)) : ¬ ['\x7b', '\x7b'] <+: c :: (s ++ t) := by
  intro hp
  obtain ⟨rfl, hnext⟩ := List.cons_prefix_cons.mp hp
  cases s with
  | nil => exact h.closed rfl
  | cons d s =>
    obtain ⟨rfl, -⟩ := List.cons_prefix_cons.mp hnext
    exact h.apart (List.prefix_append ['\x7b', '\x7b'] s).isInfix

theorem pieces_literal_append (h : IsLiteral s) : pieces (s ++ t) = s.map .char ++ pieces t := by
  induction s with
  | nil => rfl
  | cons c s ih =>
    rw [List.cons_append, pieces_char fun body after _ => ne_braced h.not_prefix body after,
      ih h.tail, List.map_cons, List.cons_append]

/-- What can be put together to a template: literals, and bodies of references before all but the
first of them. -/
structure IsCut (first : List Char) (rest : List (List Char × List Char)) : Prop where
  first : IsLiteral first
  rest : ∀ part ∈ rest, IsBody part.1 ∧ IsLiteral part.2

def joined (first : List Char) (rest : List (List Char × List Char)) : List Char :=
  woven first (rest.map fun (body, literal) => (braced body, literal))

theorem pieces_references (h : ∀ part ∈ rest, IsBody part.1 ∧ IsLiteral part.2) :
    pieces (joined [] rest) =
      rest.flatMap fun (body, literal) => .reference body :: literal.map .char := by
  induction rest with
  | nil => rw [joined, woven, List.map_nil, List.flatMap_nil, List.append_nil, pieces]; rfl
  | cons part rest ih =>
    obtain ⟨body, literal⟩ := part
    obtain ⟨hbody, hliteral⟩ := h (body, literal) List.mem_cons_self
    have hsplit : joined [] ((body, literal) :: rest) =
        braced body ++ (literal ++ joined [] rest) := by
      simp [joined, woven]
    rw [hsplit, pieces_braced hbody, pieces_literal_append hliteral,
      ih fun part hp => h part (List.mem_cons_of_mem _ hp)]
    simp

theorem IsCut.pieces (h : IsCut first rest) :
    Template.pieces (joined first rest) = first.map .char ++
      rest.flatMap fun (body, literal) => .reference body :: literal.map .char := by
  have hsplit : joined first rest = first ++ joined [] rest := by simp [joined, woven]
  rw [hsplit, pieces_literal_append h.first, pieces_references h.rest]

end Template

namespace Scope

open Template

variable (scope : Scope) {first : List Char} {rest : List (List Char × List Char)}

theorem piecesText_append (front back : List Piece) :
    scope.piecesText (front ++ back) =
      (do .ok ((← scope.piecesText front) ++ (← scope.piecesText back))) := by
  induction front with
  | nil => cases h : scope.piecesText back <;> simp [piecesText, h, bind, Except.bind]
  | cons p front ih =>
    rw [List.cons_append, piecesText, piecesText, ih]
    cases scope.piece p <;> cases scope.piecesText front <;> cases scope.piecesText back <;>
      simp [bind, Except.bind]

def form (part : List Char × List Char) : Except Fault (List Char × List Char) :=
  (scope.reference part.1).map fun v => (v.inline.toList, part.2)

theorem piecesText_references :
    scope.piecesText (rest.flatMap fun (body, literal) => .reference body :: literal.map .char) =
      (rest.mapM scope.form).map (woven []) := by
  induction rest with
  | nil => rfl
  | cons part rest ih =>
    obtain ⟨body, literal⟩ := part
    rw [List.flatMap_cons, piecesText_append, ih, piecesText, piecesText_map_char, List.mapM_cons]
    cases hb : scope.reference body <;> cases hr : rest.mapM scope.form <;>
      simp [piece, form, hb, woven, bind, Except.bind, Except.map, pure, Except.pure]

/-- A template resolves to its literals with the string forms of its references in between, whatever
these hold. The first reference whose value ends in a fault ends all in it. -/
theorem resolve_joined (scope : Scope) (first : List Char) (rest : List (List Char × List Char))
    (h : IsCut first rest) :
    scope.resolve (String.ofList (joined first rest)) =
      (rest.mapM scope.form).map fun forms => String.ofList (woven first forms) := by
  rw [resolve, String.toList_ofList, h.pieces, piecesText_append, piecesText_map_char,
    piecesText_references]
  cases rest.mapM scope.form <;> simp [bind, Except.bind, Except.map, woven]

end Scope

namespace Inert

/-- A scope in which the text of one variable looks like a reference to the other. -/
def scope : Scope :=
  ⟨{ Context.create "f" "e" ⟨0, 0, 0, 0, 0, 0, 0, none⟩ with
      vars := [("x", .text "\x7b\x7bvariables.y\x7d\x7d"), ("y", .text "1")] }, none⟩

theorem isLiteral {s : List Char} (h : '\x7b' ∉ s) : Template.IsLiteral s where
  apart hs := h (hs.subset List.mem_cons_self)
  closed hs := h (List.mem_of_getLast? hs)

def parts : List (List Char × List Char) :=
  [("variables.x".toList, ['b']), (" variables.y ".toList, ['c'])]

theorem isCut : Template.IsCut ['a'] parts where
  first := isLiteral (by decide)
  rest part hp := by
    obtain rfl | hp := List.mem_cons.mp hp
    · exact ⟨⟨by decide, by decide⟩, isLiteral (by decide)⟩
    · obtain rfl := List.mem_singleton.mp hp
      exact ⟨⟨by decide, by decide⟩, isLiteral (by decide)⟩

/-- A text that looks like a reference stays as it is, and the next reference is still read. -/
theorem resolve_inert :
    scope.resolve (String.ofList (Template.joined ['a'] parts)) =
      .ok "a\x7b\x7bvariables.y\x7d\x7db1c" := by
  rw [Scope.resolve_joined scope ['a'] parts isCut]
  decide

end Inert

end FlowEngine
