/-!
# Temporary files

Files that are made for a script and removed after it. Each goes by a number that no file had before
it, so removing a file leaves all others as they were.
-/

namespace FlowEngine.Script

/-- The files there are, and how many there have been. -/
structure Scratch where
  /-- The texts of the files by number. -/
  files : List (Nat × String)
  made : Nat
  lt_made : ∀ file ∈ files, file.1 < made

namespace Scratch

def empty : Scratch := ⟨[], 0, by simp⟩

def create (scratch : Scratch) (text : String) : Nat × Scratch :=
  (scratch.made, ⟨scratch.files ++ [(scratch.made, text)], scratch.made + 1, by
    intro file hfile
    rcases List.mem_append.1 hfile with hold | hnew
    · have := scratch.lt_made file hold
      omega
    · rw [List.mem_singleton.1 hnew]
      exact Nat.lt_succ_self _⟩)

def remove (scratch : Scratch) (number : Nat) : Scratch :=
  ⟨scratch.files.filter (·.1 != number), scratch.made, fun file hfile =>
    scratch.lt_made file (List.mem_filter.1 hfile).1⟩

/-- The text of a file; empty when there is no such file. -/
def text (scratch : Scratch) (number : Nat) : String :=
  ((scratch.files.find? (·.1 == number)).map (·.2)).getD ""

end Scratch

end FlowEngine.Script
