import FlowEngine.Text.Blank

/-!
# Templates

A template is text with references in double braces. A reference is the longest run without closing
brace after two opening ones, when it is not empty and two closing braces follow.
-/

namespace FlowEngine.Template

inductive Piece where
  | char (c : Char)
  | reference (body : List Char)
  deriving DecidableEq, Repr

/-- The body of a reference after its opening braces, and what follows the closing ones. -/
def referenceAt? (s : List Char) : Option (List Char × List Char) :=
  match s.dropWhile (· != '\x7d') with
  | '\x7d' :: '\x7d' :: after =>
    let body := s.takeWhile (· != '\x7d')
    if body.isEmpty then none else some (body, after)
  | _ => none

theorem length_of_referenceAt? {s body after : List Char}
    (h : referenceAt? s = some (body, after)) : after.length < s.length := by
  have hs : s.takeWhile (· != '\x7d') ++ s.dropWhile (· != '\x7d') = s :=
    List.takeWhile_append_dropWhile
  simp only [referenceAt?] at h
  split at h
  · rename_i rest hd
    split at h
    · simp at h
    · simp only [Option.some.injEq, Prod.mk.injEq] at h
      obtain ⟨_, rfl⟩ := h
      rw [hd] at hs
      have := congrArg List.length hs
      simp only [List.length_append, List.length_cons] at this
      omega
  · simp at h

def pieces : List Char → List Piece
  | [] => []
  | '\x7b' :: '\x7b' :: rest =>
    match h : referenceAt? rest with
    | some (body, after) =>
      have := length_of_referenceAt? h
      .reference body :: pieces after
    | none => .char '\x7b' :: pieces ('\x7b' :: rest)
  | c :: rest => .char c :: pieces rest
  termination_by s => s.length

end FlowEngine.Template
