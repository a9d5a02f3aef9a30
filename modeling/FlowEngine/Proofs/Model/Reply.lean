import FlowEngine.Model.Reply
import FlowEngine.Proofs.Json.Overlong
import FlowEngine.Proofs.Json.Printed
import FlowEngine.Proofs.Text.Lines

/-!
# Values in replies

What is taken off a reply, white space and code fences, holds no mark that begins a list or an object
where it stands in front, and none that ends one where it stands behind. So a list or an object in a
reply stays whole, and it is the one that is read if nothing in front of it begins another.
-/

namespace FlowEngine.Reply

variable {s t u body : List Char} {v : Value}

theorem isOpening_iff {c : Char} : isOpening c = true ↔ c ∈ Json.openings := by
  simp [isOpening, Json.openings, or_comm]

section Strips

/-- What is left of a text when what is taken off begins nothing in front and ends nothing behind. -/
def Strips (s t : List Char) : Prop :=
  ∃ front back, s = front ++ (t ++ back) ∧ (∀ c ∈ front, c ∉ Json.openings) ∧
    ∀ c ∈ back, c ∉ Json.closings

theorem Strips.refl (s : List Char) : Strips s s := ⟨[], [], by simp, nofun, nofun⟩

theorem Strips.front {front : List Char} (h : ∀ c ∈ front, c ∉ Json.openings) (s : List Char) :
    Strips (front ++ s) s :=
  ⟨front, [], by simp, h, nofun⟩

theorem Strips.back {back : List Char} (h : ∀ c ∈ back, c ∉ Json.closings) (s : List Char) :
    Strips (s ++ back) s :=
  ⟨[], back, rfl, nofun, h⟩

theorem Strips.trans (h : Strips s t) (h' : Strips t u) : Strips s u := by
  obtain ⟨front, back, rfl, hfront, hback⟩ := h
  obtain ⟨front', back', rfl, hfront', hback'⟩ := h'
  refine ⟨front ++ front', back' ++ back, by simp, ?_, ?_⟩
  · exact List.forall_mem_append.mpr ⟨hfront, hfront'⟩
  · exact List.forall_mem_append.mpr ⟨hback', hback⟩

theorem not_mem_of_isBlank {c : Char} (h : Text.isBlank c = true) :
    c ∉ Json.openings ∧ c ∉ Json.closings := by
  have hmarks : ∀ c ∈ Json.openings ++ Json.closings, Text.isBlank c = false := by
    simp [Json.openings, Json.closings, Text.isBlank, Text.isBlankCode]
  rw [← not_or, ← List.mem_append]
  intro hc
  rw [hmarks c hc] at h
  cases h

theorem not_mem_of_isAlpha {c : Char} (h : c.isAlpha = true) : c ∉ Json.openings := by
  have hmarks : ∀ c ∈ Json.openings, c.isAlpha = false :=
    List.forall_mem_cons.mpr ⟨rfl, List.forall_mem_singleton.mpr rfl⟩
  intro hc
  rw [hmarks c hc] at h
  cases h

theorem strips_dropWhile {p : Char → Bool} (h : ∀ c, p c = true → c ∉ Json.openings)
    (s : List Char) : Strips s (s.dropWhile p) := by
  have hfront : ∀ c ∈ s.takeWhile p, c ∉ Json.openings := fun c hc => h c (List.mem_takeWhile_imp hc)
  have hstrips := Strips.front hfront (s.dropWhile p)
  rwa [List.takeWhile_append_dropWhile] at hstrips

theorem strips_trimChars (s : List Char) : Strips s (Text.trimChars s) := by
  have hfront : Strips s (Text.trimFront s) :=
    strips_dropWhile (fun _ hc => (not_mem_of_isBlank hc).1) s
  obtain ⟨w, heq, hw⟩ := Text.trimBack_append (Text.trimFront s)
  have hback := Strips.back (fun c hc => (not_mem_of_isBlank (hw c hc)).2)
    (Text.trimBack (Text.trimFront s))
  rw [← heq] at hback
  exact hfront.trans hback

theorem strips_dropOpening (s : List Char) : Strips s (dropOpening s) := by
  unfold dropOpening
  split
  · rename_i hfence
    have hs : fence ++ s.drop 3 = s :=
      List.prefix_iff_eq_append.mp (List.isPrefixOf_iff_prefix.mp hfence)
    have hmarks : ∀ c ∈ fence, c ∉ Json.openings := by simp [fence, Json.openings]
    have hfront : Strips s (s.drop 3) := by
      have hstrips := Strips.front hmarks (s.drop 3)
      rwa [hs] at hstrips
    have hname := hfront.trans (strips_dropWhile (fun _ => not_mem_of_isAlpha) (s.drop 3))
    split
    · rename_i rest heq
      rw [heq] at hname
      have hlineEnd : ∀ c ∈ ['\n'], c ∉ Json.openings := by simp [Json.openings]
      exact hname.trans (Strips.front hlineEnd rest)
    · exact hname
  · exact .refl s

theorem strips_dropClosing (s : List Char) : Strips s (dropClosing s) := by
  unfold dropClosing
  split
  · rename_i hfence
    have hs : s.take (s.length - 3) ++ fence = s :=
      List.suffix_iff_eq_append.mp (List.isSuffixOf_iff_suffix.mp hfence)
    have hmarks : ∀ c ∈ fence, c ∉ Json.closings := by simp [fence, Json.closings]
    have hstrips := Strips.back hmarks (s.take (s.length - 3))
    rwa [hs] at hstrips
  · exact .refl s

theorem strips_unfenced (s : List Char) : Strips s (unfenced s) := by
  unfold unfenced
  split
  · exact ((strips_dropOpening s).trans (strips_dropClosing _)).trans (strips_trimChars _)
  · exact .refl s

end Strips

section Opened

def opened (s : List Char) : List Char := s.dropWhile (!isOpening ·)

theorem opened_append {front : List Char} (h : ∀ c ∈ front, c ∉ Json.openings) (s : List Char) :
    opened (front ++ s) = opened s := by
  refine List.dropWhile_append_of_pos fun c hc => ?_
  have hc : ¬ isOpening c = true := fun hopen => h c hc (isOpening_iff.mp hopen)
  simpa using hc

theorem opened_cons {c : Char} (hc : c ∈ Json.openings) (s : List Char) :
    opened (c :: s) = c :: s :=
  List.dropWhile_cons_of_neg (by simpa using isOpening_iff.mpr hc)

/-- What ends with a mark that ends a list or an object does not reach into what has no such mark. -/
theorem prefix_of_prefix_append {back : List Char} (h : ∀ c ∈ back, c ∉ Json.closings)
    (hend : ∃ init, ∃ c ∈ Json.closings, body = init ++ [c]) (hs : body <+: s ++ back) :
    body <+: s := by
  obtain hshort | ⟨more, rfl⟩ := List.prefix_or_prefix_of_prefix hs (List.prefix_append s back)
  · exact hshort
  · -- Else the mark that ends the body would stand in what is taken off behind.
    obtain ⟨init, c, hc, heq⟩ := hend
    obtain rfl | ⟨init', d, rfl⟩ := List.eq_nil_or_concat' more
    · simp
    · have hlast : d = c := by
        rw [← List.append_assoc] at heq
        exact (List.append_singleton_inj.mp heq).2
      have hback : d ∈ back := ((List.prefix_append_right_inj s).mp hs).subset (by simp)
      exact absurd (hlast ▸ hc) (h d hback)

/-- What begins the first list or object of a text still does when what stands around is taken off. -/
theorem Strips.opened (h : Strips s t) (hend : ∃ init, ∃ c ∈ Json.closings, body = init ++ [c])
    (hs : body <+: opened s) : body <+: opened t := by
  obtain ⟨front, back, rfl, hfront, hback⟩ := h
  rw [opened_append hfront, Reply.opened, List.dropWhile_append] at hs
  split at hs
  · rename_i hempty
    rw [Reply.opened, List.isEmpty_iff.mp hempty]
    exact prefix_of_prefix_append (fun c hc => hback c ((List.dropWhile_sublist _).mem hc)) hend hs
  · exact prefix_of_prefix_append hback hend hs

end Opened

section Extract

variable {raw : Option String}

def reading : Except Json.ReadError (Value × List Char) → Except Fault (Option Value)
  | .ok (v, _) => .ok (some v)
  | .error .malformed => .ok none
  | .error (.tooManyDigits count) => .error (.tooManyDigits count)

theorem extract_of_opened {text : String} {c : Char} {rest : List Char}
    (h : opened (unfenced (Text.trimChars text.toList)) = c :: rest) :
    extract (some text) = reading (Json.readFront .lenient (c :: rest)) := by
  rw [Reply.opened] at h
  unfold extract
  simp only [h]
  rfl

/-- The first list or object of a reply is read, whatever stands around it. -/
theorem extract_of_denotes (h : Json.Denotes body (.value v)) (hv : v.IsCollection)
    {front : List Char} (hfront : ∀ c ∈ front, c ∉ Json.openings) (back : List Char) :
    extract (some (String.ofList (front ++ (body ++ back)))) = .ok (some v) := by
  obtain ⟨a, ha, inner, c, hc, rfl⟩ := h.enclosed hv
  have hopened : a :: (inner ++ [c]) <+: opened (front ++ (a :: (inner ++ [c]) ++ back)) := by
    rw [opened_append hfront, List.cons_append, opened_cons ha]
    exact List.prefix_append _ back
  have hstrips := (strips_trimChars (front ++ (a :: (inner ++ [c]) ++ back))).trans
    (strips_unfenced _)
  obtain ⟨rest, hrest⟩ := hstrips.opened ⟨a :: inner, c, hc, rfl⟩ hopened
  have hopen : opened (unfenced (Text.trimChars
      (String.ofList (front ++ (a :: (inner ++ [c]) ++ back))).toList)) =
        a :: (inner ++ [c] ++ rest) := by
    rw [String.toList_ofList]
    exact hrest.symm
  rw [extract_of_opened hopen]
  exact congrArg reading (h.readFront hv rest)

theorem isCollection_of_extract (h : extract raw = .ok (some v)) : v.IsCollection := by
  obtain _ | raw := raw
  · cases h
  · cases hs : opened (unfenced (Text.trimChars raw.toList)) with
    | nil =>
      rw [Reply.opened] at hs
      simp [extract, hs] at h
    | cons c rest =>
      have hc : c ∈ Json.openings := by
        have hhead := List.head?_dropWhile_not (!isOpening ·) (unfenced (Text.trimChars raw.toList))
        rw [Reply.opened] at hs
        rw [hs] at hhead
        exact isOpening_iff.mp (by simpa using hhead)
      rw [extract_of_opened hs] at h
      cases hread : Json.readFront .lenient (c :: rest) with
      | error e => cases e <;> (rw [hread] at h; cases h)
      | ok read =>
        rw [hread] at h
        cases h
        exact Json.isCollection_of_readFront hc hread

/-- A text in which no integer of too many digits is met when it is read. -/
def Readable (text : String) : Prop := ∃ found, extract (some text) = .ok found

theorem readable_of_not_hasLongRow {text : String} (h : ¬ Json.HasLongRow text.toList) :
    Readable text := by
  obtain ⟨front, back, hs, -⟩ := (strips_trimChars text.toList).trans (strips_unfenced _)
  cases hopen : opened (unfenced (Text.trimChars text.toList)) with
  | nil =>
    rw [Reply.opened] at hopen
    exact ⟨none, by simp [extract, hopen]⟩
  | cons c rest =>
    rw [Readable, extract_of_opened hopen]
    have hread : Json.ReadsFront .outside (c :: rest) (Json.readFront .lenient (c :: rest)) :=
      Json.readsFront_readFront rfl (c :: rest)
    match hfront : Json.readFront .lenient (c :: rest) with
    | .ok (v, _) => exact ⟨some v, rfl⟩
    | .error .malformed => exact ⟨none, rfl⟩
    | .error (.tooManyDigits count) =>
      rw [hfront] at hread
      obtain ⟨row, hrow, hdigits, hlong⟩ := hread
      have hsuffix : c :: rest <:+ unfenced (Text.trimChars text.toList) :=
        hopen ▸ List.dropWhile_suffix _
      have hinfix : unfenced (Text.trimChars text.toList) <:+: text.toList :=
        ⟨front, back, (List.append_assoc _ _ _).trans hs.symm⟩
      exact absurd ⟨row, (hrow.trans hsuffix.isInfix).trans hinfix, hdigits, hlong⟩ h

/-- A list or an object that is printed in a reply is what is read, if none begins in front of it.
Nothing else than lists and objects is ever read. -/
theorem extract_embedded :
    (∀ (v : Value) (front back : String), v.Printable → v.IsCollection →
      (∀ c ∈ front.toList, c ≠ '\x7b' ∧ c ≠ '[') →
      extract (some (front ++ Json.print v ++ back)) = .ok (some v)) ∧
    ∀ (raw : Option String) (v : Value), extract raw = .ok (some v) → v.IsCollection := by
  refine ⟨fun v front back hv hcollection hfront => ?_, fun raw v => isCollection_of_extract⟩
  have hopenings : ∀ c ∈ front.toList, c ∉ Json.openings := by
    intro c hc
    simpa [Json.openings, and_comm] using hfront c hc
  have htext : front ++ Json.print v ++ back =
      String.ofList (front.toList ++ (Json.chars v ++ back.toList)) := by
    simp [Json.print, ← String.toList_inj]
  rw [htext]
  exact extract_of_denotes (Json.denotes_chars hv) hcollection hopenings back.toList

/-- A fence and marks inside a text of the value, and another value behind it. -/
theorem extract_embedded_fenced :
    Value.Printable (.list [.int (-12), .text "]\x7d```"]) ∧
      extract (some ("```json\n" ++ Json.print (.list [.int (-12), .text "]\x7d```"]) ++
        "\n[1]\n```")) = .ok (some (.list [.int (-12), .text "]\x7d```"])) ∧
      Value.IsCollection (.list [.int (-12), .text "]\x7d```"]) := by
  have hv : Value.Printable (.list [.int (-12), .text "]\x7d```"]) := by
    refine .list (List.forall_mem_cons.mpr ⟨.int ?_, List.forall_mem_singleton.mpr (.text _)⟩)
    exact Nat.lt_of_lt_of_le (by decide : 12 < 10 ^ 2) (Nat.pow_le_pow_right (by decide) (by decide))
  have hread := extract_embedded.1 _ "```json\n" "\n[1]\n```" hv (.list _) (by simp)
  exact ⟨hv, hread, extract_embedded.2 _ _ hread⟩

end Extract

end FlowEngine.Reply
