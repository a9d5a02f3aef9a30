import Mathlib.Tactic.SplitIfs
import FlowEngine.Text.Utf8

/-!
# Octets of characters

The octets of a text are decoded to the text again, whatever follows them. A line feed ends what is
being decoded, whatever stands in front of it.
-/

namespace FlowEngine.Text

/-- The first of two or more octets says how many more there are, and which of them may come first. -/
theorem leadOctet?_two {b : Nat} (hl : 0xC2 ≤ b) (hh : b ≤ 0xDF) :
    leadOctet? b = some (1, 0x80, 0xBF, b - 0xC0) := by
  simp [leadOctet?, hl, hh]

theorem leadOctet?_three {b : Nat} (hl : 0xE0 ≤ b) (hh : b ≤ 0xEF) :
    leadOctet? b = some (2, if b = 0xE0 then 0xA0 else 0x80, if b = 0xED then 0x9F else 0xBF,
      b - 0xE0) := by
  have hn : ¬ b ≤ 0xDF := by omega
  unfold leadOctet?
  by_cases h0 : b = 0xE0
  · simp [h0]
  · by_cases hd : b = 0xED
    · simp [hd]
    · simp [hn, h0, hd, hh, show 0xE1 ≤ b by omega]

theorem leadOctet?_four {b : Nat} (hl : 0xF0 ≤ b) (hh : b ≤ 0xF4) :
    leadOctet? b = some (3, if b = 0xF0 then 0x90 else 0x80, if b = 0xF4 then 0x8F else 0xBF,
      b - 0xF0) := by
  have hn : ¬ b ≤ 0xDF := by omega
  have hm : ¬ b ≤ 0xEF := by omega
  unfold leadOctet?
  by_cases h0 : b = 0xF0
  · simp [h0]
  · by_cases hf : b = 0xF4
    · simp [hf]
    · simp [hn, hm, h0, hf, show b ≠ 0xE0 by omega, show b ≠ 0xED by omega,
        show 0xF1 ≤ b by omega, show b ≤ 0xF3 by omega]

theorem le_of_leadOctet? {b missing low high bits : Nat}
    (h : leadOctet? b = some (missing, low, high, bits)) : 0x80 ≤ low := by
  unfold leadOctet? at h
  split_ifs at h <;> cases h <;> decide

variable {rest : List Nat}

theorem decodeUtf8From_lead {b : Nat} {lead : Nat × Nat × Nat × Nat} (hb : 0x80 ≤ b)
    (hl : leadOctet? b = some lead) :
    decodeUtf8From (b :: rest) none = decodeUtf8From rest (some lead) := by
  rw [decodeUtf8From, if_neg (Nat.not_lt.mpr hb), hl]

theorem decodeUtf8From_more {b missing low high bits : Nat} (hl : low ≤ b) (hh : b ≤ high)
    (hm : 1 < missing) :
    decodeUtf8From (b :: rest) (some (missing, low, high, bits)) =
      decodeUtf8From rest (some (missing - 1, 0x80, 0xBF, bits * 64 + (b - 0x80))) := by
  rw [decodeUtf8From, if_pos (by simp [hl, hh])]
  dsimp only
  rw [if_neg (Nat.not_le.mpr hm)]

theorem decodeUtf8From_last {b low high bits : Nat} (hl : low ≤ b) (hh : b ≤ high) :
    decodeUtf8From (b :: rest) (some (1, low, high, bits)) =
      Char.ofNat (bits * 64 + (b - 0x80)) :: decodeUtf8From rest none := by
  rw [decodeUtf8From, if_pos (by simp [hl, hh])]
  rfl

theorem decodeUtf8From_char (c : Char) :
    decodeUtf8From ((String.utf8EncodeChar c).map UInt8.toNat ++ rest) none =
      c :: decodeUtf8From rest none := by
  have hv : c.val.toNat = c.toNat := rfl
  have hof : Char.ofNat c.toNat = c := Char.ofNat_toNat c
  have hvalid : c.toNat < 0xD800 ∨ 0xDFFF < c.toNat ∧ c.toNat < 0x110000 := c.valid
  generalize hn : c.toNat = n at hv hof hvalid
  have hoctet {m : Nat} (hm : m < 256) : (UInt8.ofNat m).toNat = m := by
    simp [Nat.mod_eq_of_lt hm]
  rw [String.utf8EncodeChar]
  simp only [hv]
  split_ifs with h1 h2 h3
  · simp only [List.map_cons, List.map_nil, List.cons_append, List.nil_append,
      hoctet (show n < 256 by omega)]
    rw [decodeUtf8From, if_pos (by omega), hof]
  · simp only [List.map_cons, List.map_nil, List.cons_append, List.nil_append,
      hoctet (show n / 64 % 0x20 + 0xc0 < 256 by omega),
      hoctet (show n % 0x40 + 0x80 < 256 by omega)]
    have hbits : (n / 64 % 0x20 + 0xc0 - 0xC0) * 64 + (n % 0x40 + 0x80 - 0x80) = n := by omega
    rw [decodeUtf8From_lead (by omega) (leadOctet?_two (by omega) (by omega)),
      decodeUtf8From_last (by omega) (by omega), hbits, hof]
  · simp only [List.map_cons, List.map_nil, List.cons_append, List.nil_append,
      hoctet (show n / 4096 % 0x10 + 0xe0 < 256 by omega),
      hoctet (show n / 64 % 0x40 + 0x80 < 256 by omega),
      hoctet (show n % 0x40 + 0x80 < 256 by omega)]
    have hbits : ((n / 4096 % 0x10 + 0xe0 - 0xE0) * 64 + (n / 64 % 0x40 + 0x80 - 0x80)) * 64 +
        (n % 0x40 + 0x80 - 0x80) = n := by omega
    rw [decodeUtf8From_lead (by omega) (leadOctet?_three (by omega) (by omega)),
      decodeUtf8From_more (by split_ifs <;> omega) (by split_ifs <;> omega) (by decide),
      decodeUtf8From_last (by omega) (by omega), hbits, hof]
  · simp only [List.map_cons, List.map_nil, List.cons_append, List.nil_append,
      hoctet (show n / 262144 % 0x08 + 0xf0 < 256 by omega),
      hoctet (show n / 4096 % 0x40 + 0x80 < 256 by omega),
      hoctet (show n / 64 % 0x40 + 0x80 < 256 by omega),
      hoctet (show n % 0x40 + 0x80 < 256 by omega)]
    have hbits : (((n / 262144 % 0x08 + 0xf0 - 0xF0) * 64 + (n / 4096 % 0x40 + 0x80 - 0x80)) * 64 +
        (n / 64 % 0x40 + 0x80 - 0x80)) * 64 + (n % 0x40 + 0x80 - 0x80) = n := by omega
    rw [decodeUtf8From_lead (by omega) (leadOctet?_four (by omega) (by omega)),
      decodeUtf8From_more (by split_ifs <;> omega) (by split_ifs <;> omega) (by decide),
      decodeUtf8From_more (by omega) (by omega) (by decide),
      decodeUtf8From_last (by omega) (by omega), hbits, hof]

def octets (s : List Char) : List Nat := (s.flatMap String.utf8EncodeChar).map UInt8.toNat

theorem decodeUtf8From_octets (s : List Char) :
    decodeUtf8From (octets s ++ rest) none = s ++ decodeUtf8From rest none := by
  induction s with
  | nil => rfl
  | cons c s ih =>
    rw [octets, List.flatMap_cons, List.map_append, List.append_assoc, decodeUtf8From_char,
      ← octets, ih, List.cons_append]

theorem decodeUtf8From_ascii {octets : List Nat} (h : ∀ b ∈ octets, b < 0x80) :
    decodeUtf8From octets none = octets.map Char.ofNat := by
  induction octets with
  | nil => rfl
  | cons b rest ih =>
    rw [decodeUtf8From, if_pos (h b List.mem_cons_self),
      ih fun b hb => h b (List.mem_cons_of_mem _ hb)]
    rfl

/-- What is being decoded awaits octets of 0x80 and more. -/
def Awaits : Option (Nat × Nat × Nat × Nat) → Prop
  | none => True
  | some (_, low, _, _) => 0x80 ≤ low

/-- An octet adds some characters to what is decoded, and what is awaited then are octets of 0x80 and
more again. -/
theorem exists_decodeUtf8From_cons {state : Option (Nat × Nat × Nat × Nat)} (h : Awaits state)
    (b : Nat) : ∃ (s : List Char) (state' : Option (Nat × Nat × Nat × Nat)), Awaits state' ∧
      ∀ rest, decodeUtf8From (b :: rest) state = s ++ decodeUtf8From rest state' := by
  obtain _ | ⟨missing, low, high, bits⟩ := state
  all_goals simp only [decodeUtf8From]
  · split_ifs with hb
    · exact ⟨[_], none, trivial, fun _ => rfl⟩
    · cases hl : leadOctet? b with
      | none => exact ⟨[_], none, trivial, fun _ => rfl⟩
      | some lead => exact ⟨[], some lead, le_of_leadOctet? hl, fun _ => rfl⟩
  · split_ifs with hin hm hb
    · exact ⟨[_], none, trivial, fun _ => rfl⟩
    · exact ⟨[], some (missing - 1, 0x80, 0xBF, bits * 64 + (b - 0x80)), Nat.le_refl 0x80,
        fun _ => rfl⟩
    · exact ⟨[_, _], none, trivial, fun _ => rfl⟩
    · cases hl : leadOctet? b with
      | none => exact ⟨[_, _], none, trivial, fun _ => rfl⟩
      | some lead => exact ⟨[_], some lead, le_of_leadOctet? hl, fun _ => rfl⟩

/-- Whatever is being decoded is over at a line feed. -/
theorem decodeUtf8From_line {state : Option (Nat × Nat × Nat × Nat)} (h : Awaits state)
    (front : List Nat) :
    ∃ s : List Char, ∀ rest, decodeUtf8From (front ++ 10 :: rest) state =
      s ++ '\n' :: decodeUtf8From rest none := by
  induction front generalizing state with
  | nil =>
    obtain _ | ⟨missing, low, high, bits⟩ := state
    · exact ⟨[], fun _ => rfl⟩
    · have hlow : ¬ low ≤ 10 := fun hle => absurd (Nat.le_trans h hle) (by decide)
      refine ⟨['\ufffd'], fun rest => ?_⟩
      rw [List.nil_append, decodeUtf8From, if_neg (by simp [hlow]), if_pos (by decide)]
      rfl
  | cons b front ih =>
    obtain ⟨s, state', h', hs⟩ := exists_decodeUtf8From_cons h b
    obtain ⟨s', hs'⟩ := ih h'
    refine ⟨s ++ s', fun rest => ?_⟩
    rw [List.cons_append, hs, hs', List.append_assoc]

end FlowEngine.Text
