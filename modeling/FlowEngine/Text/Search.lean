/-!
# Searching and cutting text

The first place of a pattern, and the parts between separators. Joining the parts with the separator
gives the text back.
-/

namespace FlowEngine.Text

/-- The text before and after the first place of a pattern. -/
def splitFirst? (pattern : List Char) : List Char → Option (List Char × List Char)
  | [] => if pattern.isEmpty then some ([], []) else none
  | c :: rest =>
    if pattern.isPrefixOf (c :: rest) then some ([], (c :: rest).drop pattern.length)
    else (splitFirst? pattern rest).map fun (before, after) => (c :: before, after)

def containsText (s pattern : String) : Bool := (splitFirst? pattern.toList s.toList).isSome

/-- The parts of a text between the places of a separator; a text without it is one part. -/
def splitAt (separator : Char) : List Char → List (List Char)
  | [] => [[]]
  | c :: rest =>
    if c == separator then [] :: splitAt separator rest
    else
      match splitAt separator rest with
      | [] => [[c]]
      | part :: parts => (c :: part) :: parts

def dottedParts (s : String) : List String := (splitAt '.' s.toList).map String.ofList

theorem splitAt_ne_nil (separator : Char) (s : List Char) : splitAt separator s ≠ [] := by
  cases s with
  | nil => simp [splitAt]
  | cons c rest =>
    simp only [splitAt]
    split
    · simp
    · split <;> simp

/-- Removes a text from the front of another, which is left alone when it does not start with it. -/
def dropFront (front s : String) : String :=
  if front.toList.isPrefixOf s.toList then String.ofList (s.toList.drop front.toList.length) else s

def startsWith (s front : String) : Bool := front.toList.isPrefixOf s.toList

def endsWith (s back : String) : Bool := back.toList.isSuffixOf s.toList

def takeFront (count : Nat) (s : String) : String := String.ofList (s.toList.take count)

def takeBack (count : Nat) (s : String) : String :=
  String.ofList (s.toList.drop (s.toList.length - count))

def join (separator : String) (parts : List String) : String := separator.intercalate parts

end FlowEngine.Text
