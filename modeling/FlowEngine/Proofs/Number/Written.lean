import Mathlib.Data.List.TakeWhile
import FlowEngine.Number.Numeral
import FlowEngine.Number.Shortest
import FlowEngine.Proofs.Number.Range
import FlowEngine.Proofs.Number.Rounding
import FlowEngine.Proofs.Text.Pieces

/-!
# Numbers written in digits

A natural number written in decimal digits is read back as the double of that number, however many
digits there are.

An integer literal is a row of decimal digits of any script, with or without a minus sign in front. As
a numeral it is read as the double to which the integer is rounded.
-/

namespace FlowEngine

namespace Numeral

variable {s : List Char}

theorem plainChar_of_isDigit {c : Char} (h : c.isDigit = true) : plainChar c = c := by
  simp only [Char.isDigit, Bool.and_eq_true, decide_eq_true_eq, ge_iff_le] at h
  have h1 : 48 ≤ c.toNat := h.1
  have h2 : c.toNat ≤ 57 := h.2
  have hv : Text.digitValue? c = some (c.toNat - 48) := by
    simp [Text.digitValue?, h1, h2, show c.toNat < 128 by omega]
  rw [plainChar, hv]
  have hsum : 48 + (c.toNat - 48) = c.toNat := by omega
  simp only [hsum, Char.ofNat_toNat]

theorem natOfDigits_dropZeros (s : List Char) :
    natOfDigits (s.dropWhile (· == '0')) = natOfDigits s := by
  induction s with
  | nil => rfl
  | cons c s ih =>
    by_cases h : c = '0'
    · subst h
      rw [List.dropWhile_cons_of_pos rfl, ih]
      rfl
    · rw [List.dropWhile_cons_of_neg (by simpa using h)]

theorem ten_pow_le_natOfDigits {c : Char} (hc : c.isDigit = true) (hz : c ≠ '0')
    (s : List Char) : 10 ^ s.length ≤ natOfDigits (c :: s) := by
  simp only [Char.isDigit, Bool.and_eq_true, decide_eq_true_eq, ge_iff_le] at hc
  have hlow : 48 ≤ c.toNat := hc.1
  have hne : c.toNat ≠ 48 := fun h => hz (Char.toNat_inj.mp h)
  rw [natOfDigits, List.foldl_cons, foldl_digits]
  calc
    10 ^ s.length ≤ (10 * 0 + (c.toNat - 48)) * 10 ^ s.length := Nat.le_mul_of_pos_left _ (by omega)
    _ ≤ _ := Nat.le_add_right _ _

theorem toLower_of_isDigit {c : Char} (h : c.isDigit = true) : c.toLower = c := by
  simp only [Char.isDigit, Bool.and_eq_true, decide_eq_true_eq, ge_iff_le] at h
  have h2 : c.toNat ≤ 57 := h.2
  refine dif_neg fun hc => ?_
  have h3 : 65 ≤ c.toNat := hc.1
  omega

section Digits

variable (hd : ∀ c ∈ s, c.isDigit = true)

include hd

theorem map_plainChar_digits : s.map plainChar = s := by
  rw [List.map_congr_left fun c hc => plainChar_of_isDigit (hd c hc), List.map_id']

theorem spanSign_digits : spanSign s = (false, s) := by
  unfold spanSign
  split
  · exact absurd (hd '-' List.mem_cons_self) (by decide)
  · exact absurd (hd '+' List.mem_cons_self) (by decide)
  · rfl

/-- Digits are none of the words for numbers, since those have letters. -/
theorem word_digits_ne {word : String} {c : Char} (hc : c ∈ word.toList)
    (hn : c.isDigit = false) : (String.ofList (s.map Char.toLower) == word) = false := by
  rw [List.map_congr_left fun c hc => toLower_of_isDigit (hd c hc), List.map_id',
    beq_eq_false_iff_ne]
  rintro rfl
  rw [String.toList_ofList] at hc
  rw [hd c hc] at hn
  cases hn

theorem spanDigits_append {rest : List Char} (hn : ∀ c, rest.head? = some c → c.isDigit = false) :
    spanDigits (s ++ rest) = (s, rest) := by
  have hrest : rest.takeWhile Char.isDigit = [] ∧ rest.dropWhile Char.isDigit = rest := by
    cases rest with
    | nil => exact ⟨rfl, rfl⟩
    | cons c rest =>
      have hc : ¬ c.isDigit = true := by simp [hn c rfl]
      exact ⟨List.takeWhile_cons_of_neg hc, List.dropWhile_cons_of_neg hc⟩
  rw [spanDigits, List.takeWhile_append_of_pos hd, List.dropWhile_append_of_pos hd, hrest.1,
    hrest.2, List.append_nil]

theorem spanDigits_digits : spanDigits s = (s, []) := by
  have hspan : spanDigits (s ++ []) = (s, []) := spanDigits_append hd (by simp)
  rwa [List.append_nil] at hspan

/-- A row of digits as a decimal is the number that they write; of one with too many digits that is
beyond all doubles. -/
theorem ofDecimal_digits (negative : Bool) :
    Double.ofDecimal negative (natOfDigits s) (s.dropWhile (· == '0')).length 0 =
      Double.ofRatio negative (natOfDigits s) 1 := by
  by_cases h0 : natOfDigits s = 0
  · rw [Double.ofDecimal, if_pos h0, Double.ofRatio, if_pos h0]
  rw [Double.ofDecimal, if_neg h0]
  by_cases hlong : (s.dropWhile (· == '0')).length > 400
  · obtain ⟨c, rest, hs⟩ : ∃ c rest, s.dropWhile (· == '0') = c :: rest :=
      List.exists_cons_of_length_pos (Nat.zero_lt_of_lt hlong)
    have hc : c ∈ s.dropWhile (· == '0') := hs ▸ List.mem_cons_self
    have hzero : c ≠ '0' := by
      have hhead := List.head_dropWhile_not (· == '0') (List.ne_nil_of_mem hc)
      simpa [hs] using hhead
    have hlarge : Double.bound ≤ natOfDigits s :=
      calc
        Double.bound ≤ 10 ^ rest.length := Double.bound_le_ten_pow (by
          rw [hs, List.length_cons] at hlong
          omega)
        _ ≤ natOfDigits (c :: rest) :=
          ten_pow_le_natOfDigits (hd c ((List.dropWhile_sublist _).subset hc)) hzero rest
        _ = natOfDigits s := by rw [← hs, natOfDigits_dropZeros]
    rw [if_pos (by omega), Double.ofRatio_of_bound_le hlarge]
  · rw [if_neg (by omega), if_neg (by omega), if_neg (by omega)]
    simp

theorem magnitude?_digits (hs : s ≠ []) (negative : Bool) :
    magnitude? negative s = some (Double.ofRatio negative (natOfDigits s) 1) := by
  have hne : s.isEmpty = false := by simpa using hs
  simp only [magnitude?, spanDigits_digits hd, hne, exponent?, List.append_nil, Bool.false_and,
    Bool.false_eq_true, if_false, Option.map_some, Option.some.injEq, List.length_nil, natOfRow_eq,
    natOfDigits_dropZeros]
  exact ofDecimal_digits hd negative

theorem double?_of_spanSign (hs : s ≠ []) {t : List Char} {negative : Bool} (ht : '_' ∉ t)
    (hsign : spanSign (t.map plainChar) = (negative, s)) :
    double? t = some (Double.ofRatio negative (natOfDigits s) 1) := by
  have hunder : t.contains '_' = false := by
    rw [List.contains_eq_mem, decide_eq_false_iff_not]
    exact ht
  rw [double?, hunder]
  simp only [Bool.false_eq_true, if_false, hsign]
  rw [word_digits_ne hd (c := 'i') (by decide) (by decide),
    word_digits_ne hd (c := 'i') (by decide) (by decide),
    word_digits_ne hd (c := 'n') (by decide) (by decide)]
  exact magnitude?_digits hd hs negative

theorem double?_digits (hs : s ≠ []) : double? s = some (Double.ofNat (natOfDigits s)) := by
  refine double?_of_spanSign hd hs (fun hm => absurd (hd '_' hm) (by decide)) ?_
  rw [map_plainChar_digits hd, spanSign_digits hd]

end Digits

theorem ofText?_toString (n : Nat) : ofText? (toString n) = some (Double.ofNat n) := by
  have hs : (toString n).toList = Nat.toDigits 10 n := by simp
  have hd : ∀ c ∈ Nat.toDigits 10 n, c.isDigit = true :=
    fun c => Nat.isDigit_of_mem_toDigits (by decide) (by decide)
  have hblank : ∀ c ∈ Nat.toDigits 10 n, Text.isBlank c = false :=
    fun c hc => Text.not_isBlank_of_isDigit (hd c hc)
  have hv : natOfDigits (Nat.toDigits 10 n) = n := Nat.ofDigitChars_ten_toDigits
  rw [ofText?, hs, Text.trimChars_eq_self (fun c hc => hblank c (List.mem_of_head? hc))
    (fun c hc => hblank c (List.mem_of_getLast? hc)),
    double?_digits hd Nat.toDigits_ne_nil, hv]

end Numeral

namespace Text

theorem digitValue?_lt {c : Char} {d : Nat} (h : digitValue? c = some d) : d < 10 := by
  unfold digitValue? at h
  dsimp only at h
  split at h
  · split at h
    · rename_i hrange
      simp only [Bool.and_eq_true, decide_eq_true_eq] at hrange
      cases h
      omega
    · cases h
  · obtain ⟨first, hfirst, rfl⟩ := Option.map_eq_some_iff.mp h
    have hrange := List.find?_some hfirst
    simp only [Bool.and_eq_true, decide_eq_true_eq] at hrange
    omega

theorem not_isBlank_of_digit {c : Char} (h : isDigit c = true) : isBlank c = false := by
  obtain ⟨d, hd⟩ := Option.isSome_iff_exists.mp h
  unfold digitValue? at hd
  dsimp only at hd
  split at hd
  · split at hd
    · rename_i hrange
      simp only [Bool.and_eq_true, decide_eq_true_eq] at hrange
      simp only [isBlank, isBlankCode, Bool.or_eq_false_iff, Bool.and_eq_false_iff,
        decide_eq_false_iff_not, beq_eq_false_iff_ne]
      omega
    · cases hd
  · have hall : ∀ first ∈ digitZeros, ∀ k < 10, isBlankCode (first + k) = false := by decide
    obtain ⟨first, hfirst, -⟩ := Option.map_eq_some_iff.mp hd
    have hrange := List.find?_some hfirst
    simp only [Bool.and_eq_true, decide_eq_true_eq] at hrange
    have hblank := hall first (List.mem_of_find?_eq_some hfirst) (c.toNat - first) (by omega)
    rwa [Nat.add_sub_cancel' hrange.1] at hblank

theorem digits?_of_forall {row : List Char} (h : ∀ c ∈ row, isDigit c = true) :
    digits? row = some (row.filterMap digitValue?) := by
  induction row with
  | nil => rfl
  | cons c row ih =>
    obtain ⟨d, hd⟩ := Option.isSome_iff_exists.mp (h c List.mem_cons_self)
    have hrow := ih fun e he => h e (List.mem_cons_of_mem c he)
    rw [digits?] at hrow ⊢
    rw [List.mapM_cons, hd, hrow, List.filterMap_cons_some hd]
    rfl

theorem isDigit_of_digits? {row : List Char} {values : List Nat} (h : digits? row = some values) :
    ∀ c ∈ row, isDigit c = true := by
  induction row generalizing values with
  | nil => simp
  | cons c row ih =>
    rw [digits?, List.mapM_cons] at h
    obtain ⟨d, hd, h⟩ := Option.bind_eq_some_iff.mp h
    obtain ⟨rest, hrest, -⟩ := Option.bind_eq_some_iff.mp h
    exact List.forall_mem_cons.mpr ⟨Option.isSome_iff_exists.mpr ⟨d, hd⟩, ih hrest⟩

end Text

namespace Numeral

theorem plainChar_of_digitValue? {c : Char} {d : Nat} (h : Text.digitValue? c = some d) :
    (plainChar c).isDigit = true ∧ (plainChar c).toNat - 48 = d := by
  have hall : ∀ d < 10, (Char.ofNat (48 + d)).isDigit = true ∧
      (Char.ofNat (48 + d)).toNat - 48 = d := by decide
  rw [plainChar, h]
  exact hall d (Text.digitValue?_lt h)

theorem natOfDigits_map_plainChar {row : List Char} (h : ∀ c ∈ row, Text.isDigit c = true) :
    natOfDigits (row.map plainChar) = Text.digitsValue (row.filterMap Text.digitValue?) := by
  rw [natOfDigits, Text.digitsValue]
  generalize 0 = total
  induction row generalizing total with
  | nil => rfl
  | cons c row ih =>
    obtain ⟨d, hd⟩ := Option.isSome_iff_exists.mp (h c List.mem_cons_self)
    rw [List.map_cons, List.foldl_cons, List.filterMap_cons_some hd, List.foldl_cons,
      (plainChar_of_digitValue? hd).2]
    exact ih (fun e he => h e (List.mem_cons_of_mem c he)) _

end Numeral

/-- An integer as it is written: digits of any script, with or without a minus sign in front. -/
structure Literal where
  negative : Bool
  row : List Char
  nonempty : row ≠ []
  digits : ∀ c ∈ row, Text.isDigit c = true

namespace Literal

open Numeral

def text (l : Literal) : String := String.ofList (Double.signChars l.negative ++ l.row)

def magnitude (l : Literal) : Nat := Text.digitsValue (l.row.filterMap Text.digitValue?)

def value (l : Literal) : Int := Double.signed l.negative l.magnitude

variable (l : Literal)

theorem isDigit_plain : ∀ c ∈ l.row.map plainChar, c.isDigit = true := by
  intro c hc
  obtain ⟨d, hd, rfl⟩ := List.mem_map.mp hc
  obtain ⟨n, hn⟩ := Option.isSome_iff_exists.mp (l.digits d hd)
  exact (plainChar_of_digitValue? hn).1

theorem mem_text {c : Char} (h : c ∈ Double.signChars l.negative ++ l.row) :
    c = '-' ∨ Text.isDigit c = true := by
  rcases List.mem_append.mp h with h | h
  · unfold Double.signChars at h
    split at h
    · exact .inl (List.mem_singleton.mp h)
    · cases h
  · exact .inr (l.digits c h)

theorem trimChars_text :
    Text.trimChars l.text.toList = Double.signChars l.negative ++ l.row := by
  have hvisible (c : Char) (hc : c ∈ Double.signChars l.negative ++ l.row) :
      Text.isBlank c = false := by
    rcases l.mem_text hc with rfl | hd
    · decide
    · exact Text.not_isBlank_of_digit hd
  rw [text, String.toList_ofList]
  exact Text.trimChars_eq_self (fun c hc => hvisible c (List.mem_of_head? hc))
    (fun c hc => hvisible c (List.mem_of_getLast? hc))

theorem spanSign_text : spanSign ((Double.signChars l.negative ++ l.row).map plainChar) =
    (l.negative, l.row.map plainChar) := by
  have hminus : plainChar '-' = '-' := by decide
  rw [List.map_append]
  cases l.negative with
  | false => exact spanSign_digits l.isDigit_plain
  | true => simp [Double.signChars, hminus, spanSign]

/-- An integer is read as the double that it is rounded to. -/
theorem ofText?_text : ofText? l.text = some (Double.ofRatio l.negative l.magnitude 1) := by
  have hunder : '_' ∉ Double.signChars l.negative ++ l.row := by
    intro hm
    rcases l.mem_text hm with h | h
    · exact absurd h (by decide)
    · exact absurd h (by decide)
  rw [ofText?, trimChars_text, double?_of_spanSign l.isDigit_plain (by simpa using l.nonempty)
    hunder l.spanSign_text, natOfDigits_map_plainChar l.digits, magnitude]

end Literal

end FlowEngine
