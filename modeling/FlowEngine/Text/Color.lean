import FlowEngine.Text.Digit

/-!
# Color codes

A color code is an escape character, an opening bracket, digits and semicolons, and the letter m.
Codes are removed in one pass from the left.
-/

namespace FlowEngine.Text

def escapeCharacter : Char := '\x1b'

def isColorParameter (c : Char) : Bool := c.isDigit || c == ';'

def afterColorCode? : List Char → Option (List Char)
  | '\x1b' :: '[' :: rest =>
    match rest.dropWhile isColorParameter with
    | 'm' :: after => some after
    | _ => none
  | _ => none

theorem length_of_afterColorCode? {s after : List Char} (h : afterColorCode? s = some after) :
    after.length < s.length := by
  unfold afterColorCode? at h
  split at h
  · rename_i rest
    split at h
    · rename_i after' hd
      simp only [Option.some.injEq] at h
      subst h
      have := congrArg List.length (List.takeWhile_append_dropWhile (p := isColorParameter) (l := rest))
      rw [hd] at this
      simp only [List.length_append, List.length_cons] at this ⊢
      omega
    · simp at h
  · simp at h

def stripColorChars (s : List Char) : List Char :=
  match s with
  | [] => []
  | c :: rest =>
    match h : afterColorCode? (c :: rest) with
    | some after =>
      have := length_of_afterColorCode? h
      stripColorChars after
    | none => c :: stripColorChars rest
  termination_by s.length
  decreasing_by
    · exact this
    · exact Nat.lt_succ_self rest.length

def stripColor (s : String) : String := String.ofList (stripColorChars s.toList)

end FlowEngine.Text
