import Mathlib
import FlowEngine.Data.Instant

/-!
# Instants in documents

The text of an instant in a document is read back as that instant, if its offset from UTC is one of
whole minutes: the seconds of an offset are not written.
-/

namespace FlowEngine.Instant

/-- A date of the calendar and a time of day, with an offset below a day. -/
structure Exists (t : Instant) : Prop where
  year : t.year ≤ 9999
  kept : t.isKept = true
  date : isDate t.year t.month t.day = true
  hour : t.hour < 24
  minute : t.minute < 60
  second : t.second < 60
  micro : t.micro < 1000000
  offset : ∀ seconds, t.offset = some seconds → seconds.natAbs < 86400

def HasWholeMinutes (t : Instant) : Prop := ∀ seconds, t.offset = some seconds → seconds % 60 = 0

variable {width n : Nat} {rest : List Char}

theorem toList_padded (width n : Nat) :
    (padded width n).toList =
      List.replicate (width - (Nat.toDigits 10 n).length) '0' ++ Nat.toDigits 10 n := by
  simp [padded]

theorem isDigit_of_mem_padded {c : Char} (h : c ∈ (padded width n).toList) : c.isDigit = true := by
  rw [toList_padded] at h
  obtain h | h := List.mem_append.mp h
  · rw [(List.mem_replicate.mp h).2]
    rfl
  · exact Nat.isDigit_of_mem_toDigits (by decide) (by decide) h

theorem length_padded (hw : 0 < width) (hn : n < 10 ^ width) :
    (padded width n).toList.length = width := by
  have := (Nat.length_toDigits_le_iff (b := 10) (by decide) hw).mpr hn
  rw [toList_padded, List.length_append, List.length_replicate]
  omega

theorem natOfDigits_padded (width n : Nat) : Numeral.natOfDigits (padded width n).toList = n := by
  have hzeros (k : Nat) (s : List Char) :
      Numeral.natOfDigits (List.replicate k '0' ++ s) = Numeral.natOfDigits s := by
    induction k with
    | zero => rfl
    | succ k ih => exact ih
  rw [toList_padded, hzeros]
  exact Nat.ofDigitChars_ten_toDigits

theorem take_padded (hw : 0 < width) (hn : n < 10 ^ width) (rest : List Char) :
    ((padded width n).toList ++ rest).take width = (padded width n).toList := by
  have hl := length_padded hw hn
  rw [List.take_append_of_le_length hl.ge, List.take_of_length_le hl.le]

theorem numberAt_padded (hw : 0 < width) (hn : n < 10 ^ width) :
    numberAt width ((padded width n).toList ++ rest) = some (n, rest) := by
  have hl := length_padded hw hn
  have hdrop : ((padded width n).toList ++ rest).drop width = rest := by
    rw [List.drop_append_of_le_length hl.ge, List.drop_of_length_le hl.le]
    rfl
  have hdigits : (padded width n).toList.takeWhile Char.isDigit = (padded width n).toList :=
    List.takeWhile_eq_self_iff.mpr fun c hc => isDigit_of_mem_padded hc
  simp only [numberAt, take_padded hw hn, hdigits, hdrop, hl, natOfDigits_padded, Nat.lt_irrefl,
    if_false]

theorem numberAt_two (hn : n < 60) (rest : List Char) :
    numberAt 2 ((padded 2 n).toList ++ rest) = some (n, rest) :=
  numberAt_padded (by decide) (by omega)

theorem skip_cons (c : Char) : skip c (c :: rest) = some rest := by
  simp [skip]

theorem daysInMonth_le (year month : Nat) : daysInMonth year month ≤ 31 := by
  unfold daysInMonth
  split
  · split <;> decide
  · split <;> decide

theorem isDate_lt {year month day : Nat} (h : isDate year month day = true) :
    month < 10 ^ 2 ∧ day < 10 ^ 2 := by
  have hdays := daysInMonth_le year month
  simp only [isDate, Bool.and_eq_true, decide_eq_true_eq] at h
  omega

theorem dateAt_dateText {t : Instant} (h : t.Exists) (rest : List Char) :
    dateAt (t.dateText.toList ++ rest) = some ((t.year, t.month, t.day), rest) := by
  obtain ⟨hmonth, hday⟩ := isDate_lt h.date
  have hyear : t.year < 10 ^ 4 := by have := h.year; omega
  have hdash : "-".toList = ['-'] := rfl
  simp only [dateText, String.toList_append, hdash, List.append_assoc, List.cons_append,
    List.nil_append]
  simp only [dateAt, numberAt_padded (by decide : 0 < 4) hyear, skip_cons,
    numberAt_padded (by decide : 0 < 2) hmonth, numberAt_padded (by decide : 0 < 2) hday, h.date,
    Option.bind_eq_bind, Option.bind_some, if_true]

/-- What can follow the time of day: no digit, and nothing that begins a fraction. -/
def Ends (rest : List Char) : Prop :=
  ∀ c, rest.head? = some c → c.isDigit = false ∧ c ≠ '.' ∧ c ≠ ','

theorem fractionAt_of_ends (h : Ends rest) : fractionAt rest = some (0, rest) := by
  unfold fractionAt
  split
  · exact absurd rfl (h '.' rfl).2.1
  · exact absurd rfl (h ',' rfl).2.2
  · rfl

theorem fractionAt_padded (hn : n < 10 ^ 6) (h : Ends rest) :
    fractionAt ('.' :: ((padded 6 n).toList ++ rest)) = some (n, rest) := by
  have hl : (padded 6 n).toList.length = 6 := length_padded (by decide) hn
  have hall : ∀ c ∈ (padded 6 n).toList, c.isDigit = true := fun c hc => isDigit_of_mem_padded hc
  have hnone : ∀ c, rest.head? = some c → ¬ c.isDigit = true := fun c hc => by simp [(h c hc).1]
  have htake : ((padded 6 n).toList ++ rest).takeWhile Char.isDigit = (padded 6 n).toList := by
    rw [List.takeWhile_append_of_pos hall]
    cases rest with
    | nil => simp
    | cons c rest => simp [List.takeWhile_cons_of_neg (hnone c rfl)]
  have hdrop : ((padded 6 n).toList ++ rest).dropWhile Char.isDigit = rest := by
    rw [List.dropWhile_append_of_pos hall]
    cases rest with
    | nil => rfl
    | cons c rest => rw [List.dropWhile_cons_of_neg (hnone c rfl)]
  have hsix := take_padded (by decide) hn (List.replicate 6 '0')
  have hne : (padded 6 n).toList.isEmpty = false := by
    cases hs : (padded 6 n).toList with
    | nil => simp [hs] at hl
    | cons c s => rfl
  simp only [fractionAt, htake, hdrop, hne, hsix, natOfDigits_padded, Bool.false_eq_true, if_false]

theorem timeAt_clockText {t : Instant} (h : t.Exists) (hrest : Ends rest) :
    timeAt (t.clockText.toList ++ rest) = some ((t.hour, t.minute, t.second, t.micro), rest) := by
  have hfraction : fractionAt
      ((if t.micro = 0 then "" else "." ++ padded 6 t.micro).toList ++ rest) =
        some (t.micro, rest) := by
    split
    · rename_i hzero
      rw [hzero]
      exact fractionAt_of_ends hrest
    · have hpoint : ".".toList = ['.'] := rfl
      rw [String.toList_append, hpoint]
      exact fractionAt_padded h.micro hrest
  have hcolon : ":".toList = [':'] := rfl
  have hhour := h.hour
  simp only [clockText, String.toList_append, hcolon, List.append_assoc, List.cons_append,
    List.nil_append]
  simp only [timeAt, numberAt_two (by omega : t.hour < 60), skip_cons, numberAt_two h.minute,
    numberAt_two h.second, hfraction, h.hour, h.minute, h.second, Option.bind_eq_bind,
    Option.bind_some, decide_true, Bool.and_self, if_true]

theorem documentZone?_signed {c : Char} {sign : Int} (hc : signOf? c = some sign)
    {hours minutes : Nat} (hhours : hours < 24) (hminutes : minutes < 60) :
    documentZone? (c :: ((padded 2 hours).toList ++ ':' :: (padded 2 minutes).toList)) =
      some (some (sign * (hours * 3600 + minutes * 60))) := by
  have hminute := numberAt_two hminutes []
  rw [List.append_nil] at hminute
  unfold documentZone?
  split
  · rename_i heq
    cases heq
  · simp_all
  · simp_all
  · rename_i heq
    cases heq
    simp only [hc, numberAt_two (by omega : hours < 60), skip_cons, hminute, Option.bind_eq_bind,
      Option.bind_some, Option.getD_some, List.isEmpty_nil, if_true, offsetOf?, hhours, hminutes]
    simp

theorem documentZone?_documentZone {t : Instant} (h : t.Exists) (hm : t.HasWholeMinutes) :
    documentZone? t.documentZone.toList = some t.offset := by
  unfold documentZone
  cases ho : t.offset with
  | none => rfl
  | some seconds =>
    have hday := h.offset seconds ho
    have hwhole := hm seconds ho
    by_cases hzero : seconds = 0
    · rw [hzero]
      rfl
    · have hcolon : ":".toList = [':'] := rfl
      have hminus : "-".toList = ['-'] := rfl
      have hplus : "+".toList = ['+'] := rfl
      simp only [hzero, if_false, String.toList_append, hcolon, List.append_assoc,
        List.cons_append, List.nil_append]
      by_cases hneg : seconds < 0
      · rw [if_pos hneg, hminus, List.singleton_append,
          documentZone?_signed rfl (by omega) (by omega)]
        congr 2
        omega
      · rw [if_neg hneg, hplus, List.singleton_append,
          documentZone?_signed rfl (by omega) (by omega)]
        congr 2
        omega

theorem ends_documentZone (t : Instant) : Ends t.documentZone.toList := by
  have hend {c : Char} (hc : c = 'Z' ∨ c = '-' ∨ c = '+') (rest : List Char) :
      Ends (c :: rest) := by
    rintro _ ⟨⟩
    obtain rfl | rfl | rfl := hc <;> decide
  unfold documentZone
  cases t.offset with
  | none => exact fun c hc => nomatch hc
  | some seconds =>
    dsimp only
    split
    · exact hend (.inl rfl) []
    · simp only [String.toList_append, List.append_assoc]
      split
      · exact hend (.inr (.inl rfl)) _
      · exact hend (.inr (.inr rfl)) _

theorem ofDocumentText?_documentText {t : Instant} (h : t.Exists) (hm : t.HasWholeMinutes) :
    ofDocumentText? t.documentText = some t := by
  have hT : "T".toList = ['T'] := rfl
  have hzone := documentZone?_documentZone h hm
  have hdate := dateAt_dateText h ('T' :: (t.clockText.toList ++ t.documentZone.toList))
  have htime := timeAt_clockText h (ends_documentZone t)
  have hread : dateTime? ['T', 't', ' ', '_'] documentZone? t.documentText.toList = some t := by
    simp only [documentText, String.toList_append, hT, List.append_assoc, List.cons_append,
      List.nil_append]
    simp only [dateTime?, hdate, htime, hzone, Option.bind_eq_bind, Option.bind_some]
    simp
  rw [ofDocumentText?, hread]
  rfl

end FlowEngine.Instant
