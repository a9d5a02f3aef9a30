import FlowEngine.Proofs.Json.Grammar
import FlowEngine.Proofs.Number.Written

/-!
# Reading what the grammar says

A text that denotes a value is read as that value, whatever follows it. The leaves come first, and then
the steps of the reader, of which as many are enough as the text has characters. An integer of too many
digits is refused for them.
-/

namespace FlowEngine.Json

section Units

variable {s t : List Char} {n m : Nat} {us : List Nat}

theorem joinUnits_cons (hh : isHighUnit n = false) (hl : isLowUnit n = false) :
    joinUnits (n :: us) = Char.ofNat n :: joinUnits us := by
  cases us with
  | nil => simp [joinUnits, hh, hl]
  | cons m us => simp [joinUnits, hh, hl]

theorem joinUnits_pair (hh : isHighUnit n = true) (hl : isLowUnit m = true) :
    joinUnits (n :: m :: us) =
      Char.ofNat (0x10000 + (n - 0xD800) * 0x400 + (m - 0xDC00)) :: joinUnits us := by
  simp [joinUnits, hh, hl]

theorem joinUnits_char (c : Char) : joinUnits (c.toNat :: us) = c :: joinUnits us := by
  have hvalid : c.toNat < 0xD800 ∨ 0xDFFF < c.toNat ∧ c.toNat < 0x110000 := c.valid
  rw [joinUnits_cons, Char.ofNat_toNat]
  · simp only [isHighUnit, Bool.and_eq_false_iff, decide_eq_false_iff_not]
    omega
  · simp only [isLowUnit, Bool.and_eq_false_iff, decide_eq_false_iff_not]
    omega

theorem units_raw {c : Char} (hc : 32 ≤ c.toNat) (hq : c ≠ '"') (hb : c ≠ '\\') (s : List Char) :
    units (c :: s) = (units s).map fun (more, rest) => (c.toNat :: more, rest) := by
  rw [units.eq_def]
  split
  · rename_i h
    cases h
  · rename_i h
    exact absurd (List.cons.inj h).1 hq
  · rename_i h
    exact absurd (List.cons.inj h).1 hb
  · rename_i h
    exact absurd (List.cons.inj h).1 hb
  · rename_i h
    obtain ⟨rfl, rfl⟩ := List.cons.inj h
    rw [if_neg (by simp [hb, hc])]

theorem units_escape {c d : Char} (hc : (c, d) ∈ escapes) (s : List Char) :
    units ('\\' :: c :: s) = (units s).map fun (more, rest) => (d.toNat :: more, rest) := by
  have hvalue : ∀ entry ∈ escapes, escapeValue? entry.1 = some entry.2.toNat := by decide
  have hu : c ≠ 'u' := by
    rintro rfl
    exact absurd (hvalue _ hc) (by simp [escapeValue?])
  rw [units.eq_def]
  split
  · rename_i h
    cases h
  · rename_i h
    exact absurd (List.cons.inj h).1 (by decide)
  · rename_i h
    exact absurd (List.cons.inj (List.cons.inj h).2).1 hu
  · rename_i h
    obtain ⟨rfl, rfl⟩ := List.cons.inj (List.cons.inj h).2
    rw [hvalue _ hc]
  · rename_i hescape h
    obtain ⟨rfl, rfl⟩ := List.cons.inj h
    exact (hescape _ _ rfl rfl).elim

theorem units_unit {a b c d : Char} (hn : hex4? a b c d = some n) (s : List Char) :
    units ('\\' :: 'u' :: a :: b :: c :: d :: s) =
      (units s).map fun (more, rest) => (n :: more, rest) := by
  rw [units, hn]

theorem Spells.units (h : Spells s t) (rest : List Char) :
    ∃ us, units (s ++ '"' :: rest) = .ok (us, rest) ∧ joinUnits us = t := by
  induction h with
  | nil => exact ⟨[], rfl, rfl⟩
  | raw c hc hq hb h ih =>
    obtain ⟨us, hu, rfl⟩ := ih
    exact ⟨c.toNat :: us, by rw [List.cons_append, units_raw hc hq hb, hu]; rfl,
      joinUnits_char c⟩
  | escape c d hc h ih =>
    obtain ⟨us, hu, rfl⟩ := ih
    exact ⟨d.toNat :: us, by rw [List.cons_append, List.cons_append, units_escape hc, hu]; rfl,
      joinUnits_char d⟩
  | unit hn hh hl h ih =>
    obtain ⟨us, hu, rfl⟩ := ih
    refine ⟨_ :: us, ?_, joinUnits_cons hh hl⟩
    simp only [List.cons_append]
    rw [units_unit hn, hu]
    rfl
  | pair hn hm hh hl h ih =>
    obtain ⟨us, hu, rfl⟩ := ih
    refine ⟨_ :: _ :: us, ?_, joinUnits_pair hh hl⟩
    simp only [List.cons_append]
    rw [units_unit hn, units_unit hm, hu]
    rfl

theorem Spells.textBody (h : Spells s t) (rest : List Char) :
    textBody .lenient (s ++ '"' :: rest) = .ok (String.ofList t, rest) := by
  obtain ⟨us, hu, rfl⟩ := h.units rest
  rw [Json.textBody, hu]
  simp [Rules.lenient]

end Units

section Numbers

variable {whole fraction exponent rest : List Char}

/-- What may follow a number: nothing that would be part of it. -/
def Follows (rest : List Char) : Prop :=
  ∀ c, rest.head? = some c → c.isDigit = false ∧ c ∉ ['.', 'e', 'E']

theorem IsExponent.follows (he : IsExponent exponent) (hr : Follows rest) :
    ∀ c, (exponent ++ rest).head? = some c → c.isDigit = false ∧ c ≠ '.' := by
  cases he with
  | absent => exact fun c hc => ⟨(hr c hc).1, fun h => (hr c hc).2 (by simp [h])⟩
  | present hl hs hne hd =>
    rintro c ⟨⟩
    obtain rfl | rfl := hl <;> decide

theorem IsFraction.follows (hf : IsFraction fraction) (he : IsExponent exponent)
    (hr : Follows rest) :
    ∀ c, (fraction ++ (exponent ++ rest)).head? = some c → c.isDigit = false := by
  cases hf with
  | absent => exact fun c hc => (he.follows hr c hc).1
  | present hne hd =>
    rintro c ⟨⟩
    decide

theorem IsWhole.wholePart (hw : IsWhole whole)
    (hn : ∀ c, rest.head? = some c → c.isDigit = false) :
    wholePart (whole ++ rest) = some (whole, rest) := by
  have hspan := Numeral.spanDigits_append hw.digits hn
  obtain ⟨c, digits, rfl⟩ := List.exists_cons_of_ne_nil hw.ne_nil
  by_cases hc : c = '0'
  · subst hc
    obtain rfl : digits = [] := (List.cons.inj (hw.leading rfl)).2
    rfl
  · unfold Json.wholePart
    split
    · rename_i h
      exact absurd (List.cons.inj h).1 hc
    · rw [hspan]
      rfl

theorem IsFraction.fractionPart (hf : IsFraction fraction)
    (hn : ∀ c, rest.head? = some c → c.isDigit = false ∧ c ≠ '.') :
    fractionPart (fraction ++ rest) = (fraction.tail, rest) := by
  cases hf with
  | absent =>
    unfold Json.fractionPart
    split
    · rename_i h
      exact absurd rfl (hn '.' (by rw [← List.nil_append rest, h]; rfl)).2
    · rfl
  | present hne hd =>
    have hspan := Numeral.spanDigits_append hd fun c hc => (hn c hc).1
    rw [List.cons_append, Json.fractionPart, hspan]
    simp [hne]

theorem spanSign_digit {c : Char} (hc : c.isDigit = true) (s : List Char) :
    Numeral.spanSign (c :: s) = (false, c :: s) := by
  unfold Numeral.spanSign
  split
  · rename_i h
    obtain ⟨rfl, -⟩ := List.cons.inj h
    cases hc
  · rename_i h
    obtain ⟨rfl, -⟩ := List.cons.inj h
    cases hc
  · rfl

theorem spanSign_append {sign digits : List Char} (hs : sign = [] ∨ sign = ['+'] ∨ sign = ['-'])
    (hne : digits ≠ []) (hd : ∀ c ∈ digits, c.isDigit = true) (more : List Char) :
    (Numeral.spanSign (sign ++ (digits ++ more))).2 = digits ++ more := by
  obtain ⟨c, digits, rfl⟩ := List.exists_cons_of_ne_nil hne
  obtain rfl | rfl | rfl := hs
  · exact congrArg Prod.snd (spanSign_digit (hd c List.mem_cons_self) (digits ++ more))
  · rfl
  · rfl

theorem IsExponent.exists_exponent? (he : IsExponent exponent) :
    ∃ e, Numeral.exponent? exponent = some e := by
  cases he with
  | absent => exact ⟨0, rfl⟩
  | present hl hs hne hd =>
    rename_i letter sign digits
    have hletter : (letter == 'e' || letter == 'E') = true := by
      obtain rfl | rfl := hl <;> rfl
    have hempty : digits.isEmpty = false := by simpa using hne
    have hsign := spanSign_append hs hne hd []
    rw [List.append_nil] at hsign
    simp only [Numeral.exponent?, hletter, if_true, hsign, Numeral.spanDigits_digits hd, hempty,
      Bool.false_or, List.isEmpty_nil, Bool.not_true, Bool.false_eq_true, if_false]
    exact ⟨_, rfl⟩

theorem take_length_sub (front back : List Char) :
    (front ++ back).take ((front ++ back).length - back.length) = front := by
  rw [List.length_append, Nat.add_sub_cancel, List.take_left]

theorem IsExponent.exponentPart (he : IsExponent exponent) {e : Int}
    (hv : Numeral.exponent? exponent = some e) (hr : Follows rest) :
    exponentPart (exponent ++ rest) = (if exponent = [] then none else some e, rest) := by
  cases he with
  | absent =>
    cases rest with
    | nil => rfl
    | cons c rest =>
      have hc := (hr c rfl).2
      simp only [List.mem_cons, List.not_mem_nil, or_false, not_or] at hc
      simp [Json.exponentPart, hc.2.1, hc.2.2]
  | present hl hs hne hd =>
    rename_i letter sign digits
    have hletter : (letter == 'e' || letter == 'E') = true := by
      obtain rfl | rfl := hl <;> rfl
    have hempty : digits.isEmpty = false := by simpa using hne
    have hspan := Numeral.spanDigits_append hd fun c hc => (hr c hc).1
    have htake := take_length_sub (letter :: (sign ++ digits)) rest
    rw [List.cons_append, List.append_assoc] at htake ⊢
    rw [Json.exponentPart]
    simp only [hletter, if_true, spanSign_append hs hne hd rest, hspan, hempty,
      Bool.false_eq_true, if_false, htake, hv]
    simp

def decimalValue (negative : Bool) (whole part : List Char) (e : Int) : Double :=
  let digits := (whole ++ part).dropWhile (· == '0')
  Double.ofDecimal negative (Numeral.natOfRow digits) digits.length (e - part.length)

theorem follows_nil : Follows [] := by
  rintro c ⟨⟩

theorem magnitude?_number (negative : Bool) (hw : IsWhole whole) (hf : IsFraction fraction)
    (he : IsExponent exponent) :
    Numeral.magnitude? negative (whole ++ (fraction ++ exponent)) =
      (Numeral.exponent? exponent).map (decimalValue negative whole (fraction.tail)) := by
  have hback := he.follows follows_nil
  rw [List.append_nil] at hback
  have hmid := hf.follows he follows_nil
  rw [List.append_nil] at hmid
  have hempty : whole.isEmpty = false := by simpa using hw.ne_nil
  rw [Numeral.magnitude?, Numeral.spanDigits_append hw.digits hmid]
  cases hf with
  | absent =>
    simp only [List.nil_append, List.tail_nil]
    split
    · exact absurd rfl (hback '.' rfl).2
    · simp only [hempty, Bool.false_and, Bool.false_eq_true, if_false]
      refine congrArg (Option.map · _) (funext fun e => ?_)
      simp [decimalValue]
  | present hne hd =>
    simp only [List.cons_append, List.tail_cons, Numeral.spanDigits_append hd fun c hc => (hback c hc).1,
      hempty, Bool.false_and, Bool.false_eq_true, if_false]
    rfl

theorem IsNumeric.plainChar {c : Char} (h : IsNumeric c) : Numeral.plainChar c = c := by
  rcases h with h | h
  · exact Numeral.plainChar_of_isDigit h
  · have hmarks : ∀ c ∈ ['.', 'e', 'E', '+', '-'], Numeral.plainChar c = c :=
      List.all_iff_forall_prop.mp (by decide)
    exact hmarks c h

theorem word_digit_ne {c : Char} {s : List Char} (hc : c.isDigit = true) {word : String}
    (hw : word.toList.head?.any Char.isDigit = false) :
    (String.ofList ((c :: s).map Char.toLower) == word) = false := by
  rw [beq_eq_false_iff_ne]
  rintro rfl
  rw [String.toList_ofList, List.map_cons, List.head?_cons, Option.any_some,
    Numeral.toLower_of_isDigit hc, hc] at hw
  cases hw

/-- A number is a numeral without any peculiarities. -/
theorem double?_number (negative : Bool) (hw : IsWhole whole) (hf : IsFraction fraction)
    (he : IsExponent exponent) :
    Numeral.double? (signed negative (whole ++ (fraction ++ exponent))) =
      Numeral.magnitude? negative (whole ++ (fraction ++ exponent)) := by
  have hnumeric := isNumeric_number hw hf he
  obtain ⟨c, more, hmore⟩ := List.exists_cons_of_ne_nil hw.ne_nil
  have hc : c.isDigit = true := hw.digits c (hmore ▸ List.mem_cons_self)
  rw [hmore, List.cons_append] at hnumeric ⊢
  generalize more ++ (fraction ++ exponent) = rest at hnumeric ⊢
  have hall : ∀ d ∈ signed negative (c :: rest), IsNumeric d := by
    intro d hd
    cases negative with
    | false => exact hnumeric d hd
    | true =>
      rcases List.mem_cons.mp hd with rfl | hd
      · exact .inr (by decide)
      · exact hnumeric d hd
  have hmap : (signed negative (c :: rest)).map Numeral.plainChar = signed negative (c :: rest) := by
    rw [List.map_congr_left fun d hd => (hall d hd).plainChar, List.map_id']
  have hunder : (signed negative (c :: rest)).contains '_' = false := by
    rw [List.contains_eq_mem, decide_eq_false_iff_not]
    exact fun hm => absurd (hall '_' hm) (by simp [IsNumeric])
  have hsign : Numeral.spanSign (signed negative (c :: rest)) = (negative, c :: rest) := by
    cases negative with
    | false => exact spanSign_digit hc rest
    | true => rfl
  rw [Numeral.double?, hunder]
  simp only [Bool.false_eq_true, if_false, hmap, hsign]
  rw [word_digit_ne hc (by decide), word_digit_ne hc (by decide), word_digit_ne hc (by decide)]
  rfl

theorem IsFraction.tail_eq_nil (hf : IsFraction fraction) : fraction.tail = [] ↔ fraction = [] := by
  cases hf with
  | absent => simp
  | present hne hd => simp [hne]

theorem number_whole (negative : Bool) (hw : IsWhole whole) (hr : Follows rest) :
    number .lenient negative (whole ++ rest) =
      if digitLimit < whole.length then .error (.tooManyDigits whole.length)
      else .ok (.int (if negative then -(Numeral.natOfDigits whole : Int)
        else Numeral.natOfDigits whole), rest) := by
  have hpart := IsFraction.absent.fractionPart (IsExponent.absent.follows hr)
  have hexp := IsExponent.absent.exponentPart (e := 0) rfl hr
  simp only [List.nil_append] at hpart hexp
  rw [number, hw.wholePart fun c hc => (hr c hc).1]
  simp [hpart, hexp, isOverlong, Rules.lenient]

theorem number_decimal (negative : Bool) (hw : IsWhole whole) (hf : IsFraction fraction)
    (he : IsExponent exponent) (hne : fraction ++ exponent ≠ []) {d : Double}
    (hd : Numeral.double? (signed negative (whole ++ (fraction ++ exponent))) = some d)
    (hr : Follows rest) :
    number .lenient negative (whole ++ (fraction ++ (exponent ++ rest))) =
      .ok (.double d, rest) := by
  rw [double?_number negative hw hf he, magnitude?_number negative hw hf he] at hd
  have hpart := hf.fractionPart (he.follows hr)
  obtain ⟨e, hvalue⟩ := he.exists_exponent?
  have hexp := he.exponentPart hvalue hr
  rw [hvalue, Option.map_some, Option.some.injEq] at hd
  have hinteger : (fraction.tail.isEmpty && (if exponent = [] then none else some e).isNone) =
      false := by
    by_cases hx : exponent = []
    · have hf' : fraction ≠ [] := by simpa [hx] using hne
      simp [hx, hf.tail_eq_nil, hf']
    · simp [hx]
  have hsize : (if exponent = [] then none else some e).getD 0 = e := by
    by_cases hx : exponent = []
    · subst hx
      simpa [Numeral.exponent?] using hvalue
    · simp [hx]
  rw [number, hw.wholePart (hf.follows he hr)]
  simp only [hpart, hexp, hinteger, hsize]
  rw [← hd]
  rfl

end Numbers

section Scalars

variable {s rest : List Char} {v : Value} {rules : Rules}

theorem wordValue?_signed {c : Char} (hc : c.isDigit = true) (negative : Bool) (s : List Char) :
    wordValue? (signed negative (c :: s)) = none := by
  have hne {d : Char} (hd : d.isDigit = false) : d ≠ c := (Text.ne_of_isDigit hc hd).symm
  have hminus : '-' ≠ c := hne (by decide)
  cases negative with
  | false =>
    simp [wordValue?, words, word?, signed, hne (d := 'n') (by decide), hne (d := 't') (by decide),
      hne (d := 'f') (by decide), hne (d := 'N') (by decide), hne (d := 'I') (by decide), hminus]
  | true => simp [wordValue?, words, word?, signed, hne (d := 'I') (by decide)]

theorem scalar_signed {whole : List Char} (negative : Bool) (hw : IsWhole whole)
    (rest : List Char) :
    scalar rules (signed negative (whole ++ rest)) = number rules negative (whole ++ rest) := by
  obtain ⟨c, more, rfl⟩ := List.exists_cons_of_ne_nil hw.ne_nil
  have hc : c.isDigit = true := hw.digits c List.mem_cons_self
  unfold scalar
  rw [List.cons_append, wordValue?_signed hc]
  cases negative with
  | true => rfl
  | false =>
    simp only [signed, Bool.false_eq_true, if_false]
    split
    · rename_i h
      obtain ⟨rfl, -⟩ := List.cons.inj h
      cases hc
    · rfl

/-- What does not begin with a quote or with a bracket is a word or a number. -/
theorem value_scalar {c : Char} (hc : c ∉ ['"', '[', '\x7b']) (steps room : Nat) (s : List Char) :
    value rules (steps + 1) room (c :: s) = scalar rules (c :: s) := by
  simp only [List.mem_cons, List.not_mem_nil, or_false, not_or] at hc
  unfold value
  split
  · rename_i h
    exact absurd (List.cons.inj h).1 hc.1
  · rename_i h
    exact absurd (List.cons.inj h).1 hc.2.1
  · rename_i h
    exact absurd (List.cons.inj h).1 hc.2.2
  · rfl

theorem value_signed {whole : List Char} (negative : Bool) (hw : IsWhole whole)
    (steps room : Nat) (rest : List Char) :
    value rules (steps + 1) room (signed negative (whole ++ rest)) =
      number rules negative (whole ++ rest) := by
  rw [← scalar_signed negative hw]
  obtain ⟨c, more, rfl⟩ := List.exists_cons_of_ne_nil hw.ne_nil
  have hc : c.isDigit = true := hw.digits c List.mem_cons_self
  cases negative with
  | true => exact value_scalar (by decide) steps room _
  | false =>
    refine value_scalar (fun hm => ?_) steps room _
    have hmarks : ∀ d ∈ ['"', '[', '\x7b'], d.isDigit = false :=
      List.all_iff_forall_prop.mp (by decide)
    rw [hmarks c hm] at hc
    cases hc

theorem words_eq : words =
    [(['n', 'u', 'l', 'l'], .null), (['t', 'r', 'u', 'e'], .bool true),
      (['f', 'a', 'l', 's', 'e'], .bool false), (['N', 'a', 'N'], .double .nan),
      (['I', 'n', 'f', 'i', 'n', 'i', 't', 'y'], .double (.infinite false)),
      (['-', 'I', 'n', 'f', 'i', 'n', 'i', 't', 'y'], .double (.infinite true))] := by
  decide

theorem value_word {word : List Char} (hw : (word, v) ∈ words) (steps room : Nat)
    (rest : List Char) : value rules (steps + 1) room (word ++ rest) = .ok (v, rest) := by
  rw [words_eq] at hw
  simp only [List.mem_cons, Prod.mk.injEq, List.not_mem_nil, or_false] at hw
  have hread : wordValue? (word ++ rest) = some (v, rest) := by
    rw [wordValue?, words_eq]
    obtain ⟨rfl, rfl⟩ | ⟨rfl, rfl⟩ | ⟨rfl, rfl⟩ | ⟨rfl, rfl⟩ | ⟨rfl, rfl⟩ | ⟨rfl, rfl⟩ := hw <;>
      simp [word?]
  have hscalar : scalar rules (word ++ rest) = .ok (v, rest) := by
    unfold scalar
    rw [hread]
  rw [← hscalar]
  obtain ⟨rfl, rfl⟩ | ⟨rfl, rfl⟩ | ⟨rfl, rfl⟩ | ⟨rfl, rfl⟩ | ⟨rfl, rfl⟩ | ⟨rfl, rfl⟩ := hw <;>
    exact value_scalar (by decide) steps room _

end Scalars

section Steps

variable {rules : Rules} {steps room : Nat} {s rest rest' more more' : List Char} {c : Char}
  {key : String} {v : Value}

theorem value_emptyList (hs : skipSpace s = ']' :: rest) :
    value rules (steps + 1) room ('[' :: s) = .ok (.list [], rest) := by
  unfold value
  simp only [hs]

theorem value_list (hs : skipSpace s = c :: rest) (hc : c ≠ ']') :
    value rules (steps + 1) (room + 1) ('[' :: s) =
      (items rules steps room (c :: rest)).map fun (vs, rest) => (.list vs, rest) := by
  unfold value
  simp only [hs]
  split
  · rename_i h
    exact absurd (List.cons.inj h).1 hc
  · rename_i h _
    cases h
  · rename_i h _
    cases h
    rfl

theorem value_emptyObject (hs : skipSpace s = '\x7d' :: rest) :
    value rules (steps + 1) room ('\x7b' :: s) = .ok (.object [], rest) := by
  unfold value
  simp only [hs]

theorem value_object (hs : skipSpace s = c :: rest) (hc : c ≠ '\x7d') :
    value rules (steps + 1) (room + 1) ('\x7b' :: s) =
      (fields rules steps room (c :: rest)).map fun (fs, rest) =>
        (.object (Entries.ofPairs fs), rest) := by
  unfold value
  simp only [hs]
  split
  · rename_i h
    exact absurd (List.cons.inj h).1 hc
  · rename_i h _
    cases h
  · rename_i h _
    cases h
    rfl

theorem items_last (hv : value rules steps room s = .ok (v, rest))
    (hs : skipSpace rest = ']' :: more) :
    items rules (steps + 1) room s = .ok ([v], more) := by
  rw [items, hv]
  simp only [hs]

theorem items_more (hv : value rules steps room s = .ok (v, rest))
    (hs : skipSpace rest = ',' :: more) :
    items rules (steps + 1) room s =
      (items rules steps room (skipSpace more)).map fun (vs, rest) => (v :: vs, rest) := by
  rw [items, hv]
  simp only [hs]

theorem fields_last (hk : textBody rules s = .ok (key, rest)) (hs : skipSpace rest = ':' :: more)
    (hv : value rules steps room (skipSpace more) = .ok (v, rest'))
    (hs' : skipSpace rest' = '\x7d' :: more') :
    fields rules (steps + 1) room ('"' :: s) = .ok ([(key, v)], more') := by
  rw [fields, hk]
  simp only [hs, hv, hs']

theorem fields_more (hk : textBody rules s = .ok (key, rest)) (hs : skipSpace rest = ':' :: more)
    (hv : value rules steps room (skipSpace more) = .ok (v, rest'))
    (hs' : skipSpace rest' = ',' :: more') :
    fields rules (steps + 1) room ('"' :: s) =
      (fields rules steps room (skipSpace more')).map fun (fs, rest) =>
        ((key, v) :: fs, rest) := by
  rw [fields, hk]
  simp only [hs, hv, hs']

end Steps

section Reads

variable {s w rest : List Char} {c : Char} {m : Meaning} {v : Value}

theorem IsSpaces.skipSpace_append (hw : IsSpaces w) (s : List Char) :
    skipSpace (w ++ s) = skipSpace s :=
  List.dropWhile_append_of_pos hw

theorem skipSpace_cons (hc : isSpace c = false) (s : List Char) : skipSpace (c :: s) = c :: s :=
  List.dropWhile_cons_of_neg (by simp [hc])

theorem IsSpaces.skipSpace_mark (hw : IsSpaces w) (hc : isSpace c = false) (s : List Char) :
    skipSpace (w ++ c :: s) = c :: s := by
  rw [hw.skipSpace_append, skipSpace_cons hc]

theorem IsSpaces.follows (hw : IsSpaces w) (hr : Follows rest) : Follows (w ++ rest) := by
  cases w with
  | nil => exact hr
  | cons c w =>
    rintro _ ⟨⟩
    have hc := hw c List.mem_cons_self
    simp only [isSpace, Bool.or_eq_true, beq_iff_eq] at hc
    obtain ((rfl | rfl) | rfl) | rfl := hc <;> decide

theorem follows_mark (hc : c ∈ [',', ']', '\x7d']) (s : List Char) : Follows (c :: s) := by
  rintro _ ⟨⟩
  have hmarks : ∀ c ∈ [',', ']', '\x7d'], c.isDigit = false ∧ c ∉ ['.', 'e', 'E'] :=
    List.all_iff_forall_prop.mp (by decide)
  exact hmarks c hc

theorem signed_append (negative : Bool) (s rest : List Char) :
    signed negative s ++ rest = signed negative (s ++ rest) := by
  cases negative <;> rfl

theorem starts_signed {whole : List Char} (negative : Bool) (hw : IsWhole whole)
    (rest : List Char) :
    ∃ c more, signed negative (whole ++ rest) = c :: more ∧ isSpace c = false ∧
      c ∉ [']', '\x7d'] := by
  cases negative with
  | true => exact ⟨'-', _, rfl, by decide, by decide⟩
  | false =>
    obtain ⟨c, more, rfl⟩ := List.exists_cons_of_ne_nil hw.ne_nil
    have hc : c.isDigit = true := hw.digits c List.mem_cons_self
    have hlist : c ≠ ']' := Text.ne_of_isDigit hc (by decide)
    have hobject : c ≠ '\x7d' := Text.ne_of_isDigit hc (by decide)
    exact ⟨c, more ++ rest, rfl, not_isSpace_of_isDigit hc, by simp [hlist, hobject]⟩

/-- What denotes something begins with a character that is no white space and ends nothing. -/
theorem Denotes.starts (h : Denotes s m) :
    ∃ c more, s = c :: more ∧ isSpace c = false ∧ c ∉ [']', '\x7d'] := by
  have hgrow {s : List Char} (rest : List Char)
      (ih : ∃ c more, s = c :: more ∧ isSpace c = false ∧ c ∉ [']', '\x7d']) :
      ∃ c more, s ++ rest = c :: more ∧ isSpace c = false ∧ c ∉ [']', '\x7d'] := by
    obtain ⟨c, more, rfl, hc⟩ := ih
    exact ⟨c, more ++ rest, rfl, hc⟩
  induction h with
  | null => exact ⟨_, _, rfl, by decide, by decide⟩
  | yes => exact ⟨_, _, rfl, by decide, by decide⟩
  | no => exact ⟨_, _, rfl, by decide, by decide⟩
  | nan => exact ⟨_, _, rfl, by decide, by decide⟩
  | infinity negative =>
    cases negative with
    | true => exact ⟨'-', _, rfl, by decide, by decide⟩
    | false => exact ⟨'I', _, rfl, by decide, by decide⟩
  | integer negative hw hl => simpa using starts_signed negative hw []
  | decimal negative hw hf he hne hd => exact starts_signed negative hw _
  | text h => exact ⟨_, _, rfl, by decide, by decide⟩
  | emptyList hw => exact ⟨_, _, rfl, by decide, by decide⟩
  | list hw h ih => exact ⟨_, _, rfl, by decide, by decide⟩
  | emptyObject hw => exact ⟨_, _, rfl, by decide, by decide⟩
  | object hw h ih => exact ⟨_, _, rfl, by decide, by decide⟩
  | lastItem h hw ih => exact hgrow _ ih
  | item h hw hw' h' ih ih' => exact hgrow _ ih
  | field hk hw hw' h ih => exact ⟨_, _, rfl, by decide, by decide⟩
  | lastField h hw ih => exact hgrow _ ih
  | moreFields h hw hw' h' ih ih' => exact hgrow _ ih

theorem Denotes.length_pos (h : Denotes s m) : 0 < s.length := by
  obtain ⟨c, more, rfl, -⟩ := h.starts
  exact Nat.succ_pos _

theorem Denotes.skipSpace (h : Denotes s m) (hw : IsSpaces w) (rest : List Char) :
    skipSpace (w ++ (s ++ rest)) = s ++ rest := by
  obtain ⟨c, more, rfl, hc, -⟩ := h.starts
  exact hw.skipSpace_mark hc (more ++ rest)

/-- The front of a text is read as what it means, and what follows it is left. As many steps and as much
room are enough as it has characters. -/
def Reads (s : List Char) : Meaning → Prop
  | .value v => ∀ steps room rest, s.length ≤ steps → s.length ≤ room → Follows rest →
      value .lenient steps room (s ++ rest) = .ok (v, rest)
  | .items vs => ∀ steps room rest, s.length ≤ steps → s.length ≤ room →
      items .lenient steps room (s ++ rest) = .ok (vs, rest)
  | .field name v => ∀ steps room rest, s.length ≤ steps → s.length ≤ room → Follows rest →
      (∀ more, Json.skipSpace rest = '\x7d' :: more →
        fields .lenient (steps + 1) room (s ++ rest) = .ok ([(name, v)], more)) ∧
      ∀ more, Json.skipSpace rest = ',' :: more →
        fields .lenient (steps + 1) room (s ++ rest) =
          (fields .lenient steps room (Json.skipSpace more)).map fun (fs, rest) =>
            ((name, v) :: fs, rest)
  | .fields fs => ∀ steps room rest, s.length ≤ steps → s.length ≤ room →
      fields .lenient steps room (s ++ rest) = .ok (fs, rest)

theorem reads_word {word : List Char} (hw : (word, v) ∈ words) : Reads word (.value v) := by
  intro steps room rest hsteps _ _
  have hne : ∀ entry ∈ words, entry.1.length ≠ 0 := by decide
  obtain ⟨steps, rfl⟩ := Nat.exists_eq_succ_of_ne_zero (Nat.ne_of_gt
    (Nat.lt_of_lt_of_le (Nat.pos_of_ne_zero (hne _ hw)) hsteps))
  exact value_word hw steps room rest

theorem Denotes.reads (h : Denotes s m) : Reads s m := by
  induction h with
  | null => exact reads_word (by decide)
  | yes => exact reads_word (by decide)
  | no => exact reads_word (by decide)
  | nan => exact reads_word (by decide)
  | infinity negative => cases negative <;> exact reads_word (by decide)
  | integer negative hw hl =>
    rintro (_ | steps) room rest hsteps - hr
    · exact absurd (Denotes.integer negative hw hl).length_pos (Nat.not_lt.mpr hsteps)
    rw [signed_append, value_signed negative hw, number_whole negative hw hr,
      if_neg (Nat.not_lt.mpr hl)]
  | decimal negative hw hf he hne hd =>
    rintro (_ | steps) room rest hsteps - hr
    · exact absurd (Denotes.decimal negative hw hf he hne hd).length_pos (Nat.not_lt.mpr hsteps)
    rw [signed_append, List.append_assoc, List.append_assoc, value_signed negative hw,
      number_decimal negative hw hf he hne hd hr]
  | text h =>
    rintro (_ | steps) room rest hsteps - -
    · cases hsteps
    rw [List.cons_append, List.append_assoc, value, List.singleton_append, h.textBody]
    rfl
  | emptyList hw =>
    rintro (_ | steps) room rest hsteps - -
    · cases hsteps
    rw [List.cons_append, List.append_assoc, List.singleton_append,
      value_emptyList (hw.skipSpace_mark (by decide) rest)]
  | list hw h ih =>
    rintro (_ | steps) (_ | room) rest hsteps hroom -
    · cases hsteps
    · cases hsteps
    · cases hroom
    simp only [List.length_cons, List.length_append, Nat.add_le_add_iff_right] at hsteps hroom
    obtain ⟨c, more, rfl, hc, hmark⟩ := h.starts
    have hitems := ih steps room rest (by omega) (by omega)
    rw [List.cons_append, List.append_assoc, List.cons_append,
      value_list (hw.skipSpace_mark hc _) (by rintro rfl; simp at hmark), ← List.cons_append,
      hitems]
    rfl
  | emptyObject hw =>
    rintro (_ | steps) room rest hsteps - -
    · cases hsteps
    rw [List.cons_append, List.append_assoc, List.singleton_append,
      value_emptyObject (hw.skipSpace_mark (by decide) rest)]
  | object hw h ih =>
    rintro (_ | steps) (_ | room) rest hsteps hroom -
    · cases hsteps
    · cases hsteps
    · cases hroom
    simp only [List.length_cons, List.length_append, Nat.add_le_add_iff_right] at hsteps hroom
    obtain ⟨c, more, rfl, hc, hmark⟩ := h.starts
    have hfields := ih steps room rest (by omega) (by omega)
    rw [List.cons_append, List.append_assoc, List.cons_append,
      value_object (hw.skipSpace_mark hc _) (by rintro rfl; simp at hmark), ← List.cons_append,
      hfields]
    rfl
  | lastItem h hw ih =>
    rintro (_ | steps) room rest hsteps hroom
    · simp at hsteps
    simp only [List.length_append, List.length_singleton] at hsteps hroom
    rw [List.append_assoc, List.append_assoc, List.singleton_append]
    exact items_last (ih steps room _ (by omega) (by omega) (hw.follows (follows_mark (by decide) _)))
      (hw.skipSpace_mark (by decide) rest)
  | item h hw hw' h' ih ih' =>
    rintro (_ | steps) room rest hsteps hroom
    · simp at hsteps
    simp only [List.length_append, List.length_cons] at hsteps hroom
    rw [List.append_assoc, List.append_assoc, List.cons_append, List.append_assoc,
      items_more (ih steps room _ (by omega) (by omega) (hw.follows (follows_mark (by decide) _)))
        (hw.skipSpace_mark (by decide) _), h'.skipSpace hw', ih' steps room rest (by omega) (by omega)]
    rfl
  | field hk hw hw' h ih =>
    intro steps room rest hsteps hroom hr
    simp only [List.length_append, List.length_cons] at hsteps hroom
    simp only [List.cons_append, List.append_assoc]
    have hvalue := ih steps room rest (by omega) (by omega) hr
    rw [← h.skipSpace hw' rest] at hvalue
    exact ⟨fun more => fields_last (hk.textBody _) (hw.skipSpace_mark (by decide) _) hvalue,
      fun more => fields_more (hk.textBody _) (hw.skipSpace_mark (by decide) _) hvalue⟩
  | lastField h hw ih =>
    rintro (_ | steps) room rest hsteps hroom
    · simp at hsteps
    simp only [List.length_append, List.length_singleton] at hsteps hroom
    rw [List.append_assoc, List.append_assoc, List.singleton_append]
    exact (ih steps room _ (by omega) (by omega) (hw.follows (follows_mark (by decide) _))).1 rest
      (hw.skipSpace_mark (by decide) rest)
  | moreFields h hw hw' h' ih ih' =>
    rintro (_ | steps) room rest hsteps hroom
    · simp at hsteps
    simp only [List.length_append, List.length_cons] at hsteps hroom
    rw [List.append_assoc, List.append_assoc, List.cons_append, List.append_assoc,
      (ih steps room _ (by omega) (by omega) (hw.follows (follows_mark (by decide) _))).2 _
        (hw.skipSpace_mark (by decide) _), h'.skipSpace hw', ih' steps room rest (by omega) (by omega)]
    rfl

theorem IsText.read (h : IsText s v) : read (String.ofList s) = .ok v := by
  obtain ⟨w, body, w', rfl, hw, hw', hbody⟩ := h
  have hfront : readFront .lenient (body ++ w') = .ok (v, w') := by
    refine hbody.reads _ _ w' ?_ ?_ (by simpa using hw'.follows follows_nil)
    · rw [List.length_append]
      omega
    · simp only [Rules.lenient, Option.getD_none, List.length_append]
      omega
  have hend : Json.skipSpace w' = [] := by
    rw [← List.append_nil w', hw'.skipSpace_append]
    rfl
  rw [Json.read, readWith, String.toList_ofList, hbody.skipSpace hw, hfront]
  simp only [hend]
  rfl

end Reads

end FlowEngine.Json
