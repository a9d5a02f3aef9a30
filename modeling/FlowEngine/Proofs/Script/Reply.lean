import FlowEngine.Proofs.Service.Tagged

/-!
# The reply of a script

A child tells how its script ended in the last line that it prints, which is one line of JSON text.
Three characters that may stand raw in its texts end a line for the reader all the same. Without them
the reply is read back. With one of them what is read begins inside of quotes, and is never taken for
a success.
-/

namespace FlowEngine

namespace Json

variable {s : List Char} {m : Meaning} {c : Char}

/-- Between values only two characters end a line. -/
theorem isSpace_eq_false_of_isLineEnd (h : Text.isLineEnd c = true) (hn : c ≠ '\n')
    (hr : c ≠ '\r') : isSpace c = false := by
  cases hs : isSpace c with
  | false => rfl
  | true =>
    simp only [isSpace, Bool.or_eq_true, beq_iff_eq] at hs
    obtain ((rfl | rfl) | rfl) | rfl := hs
    · exact absurd h (by decide)
    · exact absurd h (by decide)
    · exact absurd rfl hn
    · exact absurd rfl hr

/-- The characters beside line feed and carriage return that end a line in a text of a value: next
line, line separator and paragraph separator. -/
def separators : List Char := ['\u0085', '\u2028', '\u2029']

theorem IsText.isLineEnd_iff {v : Value} (h : IsText s v) (hraw : ∀ c ∈ s, c ≠ '\n' ∧ c ≠ '\r')
    (hc : c ∈ s) : Text.isLineEnd c = true ↔ c ∈ separators := by
  constructor
  · intro he
    have hspace := isSpace_eq_false_of_isLineEnd he (hraw c hc).1 (hraw c hc).2
    have hprinted : 32 ≤ c.toNat := (h.isPrinted c hc).resolve_right (by simp [hspace])
    have hcode : c.toNat = 0x85 ∨ c.toNat = 0x2028 ∨ c.toNat = 0x2029 := by
      simp only [Text.isLineEnd, Bool.or_eq_true, Bool.and_eq_true, decide_eq_true_eq,
        beq_iff_eq] at he
      omega
    rw [← Char.ofNat_toNat c]
    obtain hn | hn | hn := hcode <;> rw [hn] <;> decide
  · intro hm
    simp only [separators, List.mem_cons, List.not_mem_nil, or_false] at hm
    obtain rfl | rfl | rfl := hm <;> decide

theorem Denotes.getLast?_fields (h : Denotes s m) :
    ∀ fs, m = .fields fs → s.getLast? = some '\x7d' := by
  induction h with
  | lastField h hw ih => simp
  | moreFields h hw hw' h' ih ih' =>
    intro _ _
    have hlast := ih' _ rfl
    simp [List.getLast?_append, List.getLast?_cons, hlast]
  | _ => rintro _ ⟨⟩

theorem Denotes.braces {fields : Entries Value} (h : Denotes s (.value (.object fields))) :
    s.head? = some '\x7b' ∧ s.getLast? = some '\x7d' := by
  cases h with
  | emptyObject hw => simp [List.getLast?_append, List.getLast?_cons]
  | object hw h =>
    have hlast := h.getLast?_fields _ rfl
    simp [List.getLast?_append, List.getLast?_cons, hlast]

end Json

namespace Script

open Text

/-- What a child has printed when it ends: lines, and then a text, which may be ended as a line as
well. -/
def Prints (t : List Char) (output : List Nat) : Prop :=
  ∃ before after, output = before ++ (octets t ++ after) ∧ (∀ b, before.getLast? = some b → b = 10) ∧
    ∀ b ∈ after, b = 10

theorem Prints.decoded {t : List Char} {output : List Nat} (h : Prints t output) :
    ∃ pre post, decodeUtf8From output none = pre ++ (t ++ post) ∧ EndsLine pre ∧
      ∀ c ∈ post, isBlank c = true := by
  obtain ⟨before, after, rfl, hbefore, hafter⟩ := h
  have hpost : decodeUtf8From after none = after.map Char.ofNat :=
    decodeUtf8From_ascii fun b hb => by rw [hafter b hb]; decide
  have hblank : ∀ c ∈ after.map Char.ofNat, isBlank c = true := by
    intro c hc
    obtain ⟨b, hb, rfl⟩ := List.mem_map.mp hc
    rw [hafter b hb]
    decide
  rcases List.eq_nil_or_concat' before with rfl | ⟨front, b, rfl⟩
  · refine ⟨[], after.map Char.ofNat, ?_, endsLine_nil, hblank⟩
    rw [List.nil_append, decodeUtf8From_octets, hpost, List.nil_append]
  · obtain rfl := hbefore b (by simp)
    have hnothing : Awaits none := trivial
    obtain ⟨s, hs⟩ := decodeUtf8From_line hnothing front
    refine ⟨s ++ ['\n'], after.map Char.ofNat, ?_, endsLine_concat (by decide), hblank⟩
    rw [List.append_assoc, List.singleton_append, hs, decodeUtf8From_octets, hpost]
    simp

theorem lastLine_append {front line : List Char} (hf : EndsLine front) (hne : line ≠ [])
    (hline : ∀ c ∈ line, isLineEnd c = false) :
    lastLine (String.ofList (front ++ line)) = String.ofList line := by
  rw [lastLine, String.toList_ofList]
  by_cases hnil : front = []
  · rw [hnil, List.nil_append, splitLines_of_forall hne hline]
    rfl
  · obtain ⟨lines, -, hlines⟩ := exists_splitLines_append hnil hf hne hline
    rw [hlines, List.getLast?_concat]
    rfl

section Reply

variable {t w body front : List Char} {output : List Nat} {errors : String} {fields : Entries Value}

theorem ne_nil_of_denotes (h : Json.Denotes body (.value (.object fields))) : body ≠ [] := by
  rintro rfl
  cases h.braces.1

/-- What is kept of the output of a child ends with the object of its reply, and only white space of
the reply is lost. -/
theorem Prints.exists_textOf (h : Prints t output) (ht : Json.IsText t (.object fields)) :
    ∃ front w body, textOf output = String.ofList (front ++ (w ++ body)) ∧ EndsLine front ∧
      Json.IsSpaces w ∧ Json.Denotes body (.value (.object fields)) ∧ (∀ c ∈ w ++ body, c ∈ t) ∧
      ∀ c ∈ t, c ∈ body ∨ Json.isSpace c = true := by
  obtain ⟨before, body, behind, rfl, hbefore, hbehind, hbody⟩ := ht
  obtain ⟨pre, post, hdecoded, hpre, hpost⟩ := h.decoded
  obtain ⟨front, w, hfront, hends, hw⟩ := exists_trimFront_append (w := before) hpre
  obtain ⟨hfirst, hlast⟩ := hbody.braces
  have htrim : trimChars ((pre ++ before) ++ body) = trimFront (pre ++ before) ++ body := by
    refine trimChars_append (ne_nil_of_denotes hbody) ?_ ?_ _
    · intro c hc
      rw [hfirst] at hc
      cases hc
      decide
    · intro c hc
      rw [hlast] at hc
      cases hc
      decide
  have hblank : ∀ c ∈ behind ++ post, isBlank c = true := by
    intro c hc
    obtain hc | hc := List.mem_append.mp hc
    · exact Json.isBlank_of_isSpace (hbehind c hc)
    · exact hpost c hc
  refine ⟨front, w, body, ?_, hends, fun c hc => hbefore c (hw.subset hc), hbody, ?_, ?_⟩
  · have hall : pre ++ (before ++ (body ++ behind) ++ post) =
        ((pre ++ before) ++ body) ++ (behind ++ post) := by simp
    rw [textOf, decodeUtf8, hdecoded, trim, String.toList_ofList, hall,
      trimChars_append_blank hblank, htrim, hfront, List.append_assoc]
  · intro c hc
    obtain hc | hc := List.mem_append.mp hc
    · exact List.mem_append_left _ (hw.subset hc)
    · exact List.mem_append_right _ (List.mem_append_left _ hc)
  · intro c hc
    obtain hc | hc := List.mem_append.mp hc
    · exact .inr (hbefore c hc)
    · exact (List.mem_append.mp hc).imp id (hbehind c)

theorem read_line (hf : EndsLine front) (hw : Json.IsSpaces w)
    (hbody : Json.Denotes body (.value (.object fields)))
    (hline : ∀ c ∈ w ++ body, isLineEnd c = false) :
    read (String.ofList (front ++ (w ++ body))) errors = .ok (told (.object fields)) := by
  have hne : w ++ body ≠ [] := by simp [ne_nil_of_denotes hbody]
  have hempty : (String.ofList (front ++ (w ++ body))).isEmpty = false := by
    simpa using fun _ => hne
  have htext : Json.IsText (w ++ body) (.object fields) :=
    ⟨w, body, [], by rw [List.append_nil], hw, fun _ h => absurd h (by simp), hbody⟩
  rw [read, hempty, lastLine_append hf hne hline, htext.read]
  rfl

theorem exists_read_of_finished {output : String} {v : Value}
    (h : read output errors = .ok (.finished v)) : ∃ w, Json.read (lastLine output) = .ok w := by
  unfold read at h
  split at h
  · cases h
  · split at h
    · rename_i w hw
      exact ⟨w, hw⟩
    · cases h
    · cases h

/-- Behind a line end in one of its texts a reply is no text of a value. -/
theorem read_cut (hbody : Json.Denotes body (.value (.object fields)))
    (hend : ∃ c ∈ body, isLineEnd c = true)
    (hraw : ∀ c ∈ body, isLineEnd c = true → Json.isSpace c = false) (v : Value) :
    read (String.ofList (front ++ body)) errors ≠ .ok (.finished v) := by
  intro h
  obtain ⟨value, hvalue⟩ := exists_read_of_finished h
  -- The last line is what follows the last line end of the reply, and that one is inside of quotes.
  obtain ⟨a, c, b, rfl, hc, hb⟩ := exists_last_lineEnd hend
  have hne : b ≠ [] := by
    rintro rfl
    have hlast := hbody.braces.2
    rw [List.getLast?_concat] at hlast
    cases hlast
    exact absurd hc (by decide)
  have hlast : lastLine (String.ofList (front ++ (a ++ c :: b))) = String.ofList b := by
    have hsplit : front ++ (a ++ c :: b) = (front ++ a ++ [c]) ++ b := by simp
    rw [hsplit, lastLine_append (endsLine_concat hc) hne hb]
  have hout := Json.outside_of_read hvalue
  rw [hlast, String.toList_ofList] at hout
  exact Json.Quoting.after_behind_lineEnd hbody.after hc (hraw c (by simp) hc) hout

theorem Prints.read_whole (h : Prints t output) (ht : Json.IsText t (.object fields))
    (hline : ∀ c ∈ t, isLineEnd c = false) :
    read (textOf output) errors = .ok (told (.object fields)) := by
  obtain ⟨front, w, body, htext, hfront, hw, hbody, hmem, -⟩ := h.exists_textOf ht
  rw [htext]
  exact read_line hfront hw hbody fun c hc => hline c (hmem c hc)

/-- A reply with line ends, none of them between values, is not taken for a success. -/
theorem Prints.read_ne_finished (h : Prints t output) (ht : Json.IsText t (.object fields))
    (hraw : ∀ c ∈ t, c ≠ '\n' ∧ c ≠ '\r') (hend : ∃ c ∈ t, isLineEnd c = true) (v : Value) :
    read (textOf output) errors ≠ .ok (.finished v) := by
  obtain ⟨front, w, body, htext, -, -, hbody, hmem, hback⟩ := h.exists_textOf ht
  have hspace {c : Char} (hc : c ∈ t) (he : isLineEnd c = true) : Json.isSpace c = false :=
    Json.isSpace_eq_false_of_isLineEnd he (hraw c hc).1 (hraw c hc).2
  rw [htext, ← List.append_assoc]
  refine read_cut hbody ?_ (fun c hc he => hspace (hmem c (List.mem_append_right _ hc)) he) v
  obtain ⟨c, hc, he⟩ := hend
  have hbetween := hspace hc he
  exact ⟨c, (hback c hc).resolve_right (by simp [hbetween]), he⟩

end Reply

/-- A child that begins and ends in time, whatever it has printed before in lines and whatever it has
said of errors, replies with an object of a success and an output. If the reply holds no separator, the
script is finished with this output. Otherwise it is not finished, with this output or any other. -/
theorem run_reply {σ : Type} (runner : Runner) (children : Children σ) (code : String)
    (input : Value) (bench : Bench σ) {language : Option String} {child : Child} {begun : Bench σ}
    {output errors : List Nat} {turns : Nat} {t : List Char} {fields : Entries Value} {v : Value}
    (hbegins : runner.Begins children language code input bench child begun)
    (hends : (children.spawn child begun.scratch begun.outside).1 = .ended output errors)
    (hintime : runner.limited (.ended output errors) = .ok (.ended output errors, turns))
    (hprints : Prints t output) (htext : Json.IsText t (.object fields))
    (hraw : ∀ c ∈ t, c ≠ '\n' ∧ c ≠ '\r')
    (hsuccess : Entries.get? fields "success" = some (.bool true))
    (houtput : Entries.get? fields "output" = some v) :
    let result := (runner.run children language code input bench).1.result
    ((∀ c ∈ t, c ∉ Json.separators) → result = .ok (.finished v)) ∧
      ((∃ c ∈ t, c ∈ Json.separators) → ∀ w, result ≠ .ok (.finished w)) := by
  intro result
  have hresult : result = read (textOf output) (textOf errors) :=
    result_run hbegins hends hintime
  have htold : told (.object fields) = .finished v := by
    rw [told, if_pos hsuccess, houtput]
    rfl
  have hiff {c : Char} (hc : c ∈ t) : isLineEnd c = true ↔ c ∈ Json.separators :=
    htext.isLineEnd_iff hraw hc
  rw [hresult]
  constructor
  · intro hnone
    have hline : ∀ c ∈ t, isLineEnd c = false := fun c hc =>
      Bool.eq_false_iff.mpr fun he => hnone c hc ((hiff hc).mp he)
    rw [hprints.read_whole htext hline, htold]
  · rintro ⟨c, hc, hseparator⟩
    exact hprints.read_ne_finished htext hraw ⟨c, hc, (hiff hc).mpr hseparator⟩

section Text

variable {s t : List Char}

def replyOf (s : List Char) : List Char :=
  ['\x7b', '"', 's', 'u', 'c', 'c', 'e', 's', 's', '"', ':', 't', 'r', 'u', 'e', ',', '"', 'o', 'u',
    't', 'p', 'u', 't', '"', ':', '"'] ++ (s ++ ['"', '\x7d'])

theorem spells_raw (h : s.all (fun c => 32 ≤ c.toNat ∧ c ≠ '"' ∧ c ≠ '\\') = true) :
    Json.Spells s s := by
  have hraw := List.all_iff_forall_prop.mp h
  clear h
  induction s with
  | nil => exact .nil
  | cons c s ih =>
    obtain ⟨⟨hc, hq, hb⟩, hrest⟩ := List.forall_mem_cons.mp hraw
    exact .raw c hc hq hb (ih hrest)

theorem isText_replyOf (h : Json.Spells s t) :
    Json.IsText (replyOf s)
      (.object [("success", .bool true), ("output", .text (String.ofList t))]) := by
  have hspaces : Json.IsSpaces [] := nofun
  have hsuccess := Json.Denotes.field (spells_raw (s := ['s', 'u', 'c', 'c', 'e', 's', 's'])
    (by decide)) hspaces hspaces .yes
  have houtput := Json.Denotes.field (spells_raw (s := ['o', 'u', 't', 'p', 'u', 't'])
    (by decide)) hspaces hspaces (.text h)
  have hobject := Json.Denotes.object hspaces
    (.moreFields hsuccess hspaces hspaces (.lastField houtput hspaces))
  have hfields (v w : Value) :
      Entries.ofPairs [("success", v), ("output", w)] = [("success", v), ("output", w)] := rfl
  exact ⟨[], replyOf s, [], by simp, hspaces, hspaces, by simpa [replyOf, hfields] using hobject⟩

end Text

def printed (s : List Char) : List Nat :=
  octets ['h', 'e', 'l', 'l', 'o', '\n'] ++ (octets (replyOf s) ++ [])

theorem prints_printed (s : List Char) : Prints (replyOf s) (printed s) :=
  ⟨_, [], rfl, by decide, nofun⟩

theorem ofName?_javascript : Language.ofName? ((some "javascript").getD "") = some .javascript := by
  decide

/-- A text of two letters is read back from a script, and so it is not with a raw line separator
between the letters. -/
theorem run_reply_letters :
    (Runner.default.run (.writing (printed ['a', 'b'])) (some "javascript") "" .null
      ⟨(), .empty⟩).1.result = .ok (.finished (.text (String.ofList ['a', 'b']))) ∧
    ∀ w, (Runner.default.run (.writing (printed ['a', '\u2028', 'b'])) (some "javascript") "" .null
      ⟨(), .empty⟩).1.result ≠ .ok (.finished w) := by
  constructor
  · obtain ⟨child, begun, hbegins⟩ := begins_writing (printed ['a', 'b']) ofName?_javascript ""
    have hreply := run_reply .default (.writing (printed ['a', 'b'])) "" .null ⟨(), .empty⟩ hbegins
      rfl (limited_default _ _) (prints_printed _) (isText_replyOf (spells_raw (by decide)))
      (List.all_iff_forall_prop.mp (by decide)) rfl rfl
    exact hreply.1 (List.all_iff_forall_prop.mp (by decide))
  · obtain ⟨child, begun, hbegins⟩ :=
      begins_writing (printed ['a', '\u2028', 'b']) ofName?_javascript ""
    have hreply := run_reply .default (.writing (printed ['a', '\u2028', 'b'])) "" .null
      ⟨(), .empty⟩ hbegins rfl (limited_default _ _) (prints_printed _)
      (isText_replyOf (spells_raw (by decide))) (List.all_iff_forall_prop.mp (by decide)) rfl rfl
    exact hreply.2 (List.any_iff_exists_prop.mp (by decide))

/-- Not every reply on one line is read back: a raw line separator in a text is in the way. -/
theorem run_reply_separator :
    ¬∀ (t : List Char) (v : Value) (output : List Nat), Prints t output →
      Json.IsText t (.object [("success", .bool true), ("output", v)]) →
      (∀ c ∈ t, c ≠ '\n' ∧ c ≠ '\r') →
      (Runner.default.run (.writing output) (some "javascript") "" .null ⟨(), .empty⟩).1.result =
        .ok (.finished v) := by
  intro h
  have htext := isText_replyOf (s := ['a', '\u2028', 'b']) (spells_raw (by decide))
  have hraw : ∀ c ∈ replyOf ['a', '\u2028', 'b'], c ≠ '\n' ∧ c ≠ '\r' :=
    List.all_iff_forall_prop.mp (by decide)
  have hread := h _ _ _ (prints_printed _) htext hraw
  obtain ⟨child, begun, hbegins⟩ :=
    begins_writing (printed ['a', '\u2028', 'b']) ofName?_javascript ""
  rw [result_run hbegins rfl (limited_default _ _)] at hread
  have hend : ∃ c ∈ replyOf ['a', '\u2028', 'b'], isLineEnd c = true :=
    List.any_iff_exists_prop.mp (by decide)
  exact (prints_printed _).read_ne_finished htext hraw hend _ hread

end Script

end FlowEngine
