import Mathlib.Algebra.Group.Nat.Defs
import Turnstile.Time.Reader
import Turnstile.Proofs.Text.Decimal

/-! A moment is read from the text it is written as. Each field is written as digits before a mark
that is none, so a reader takes just the field; the fraction is exact because only zeros are left
off. A point of time that is no moment shares its text with one, which is what is read. -/

namespace Turnstile

namespace Timestamp

variable {t : Timestamp} {width n : Nat}

/-! ## Writing -/

theorem toList_padded : (padded width n).toList =
    List.replicate (width - (Nat.toDigits 10 n).length) '0' ++ Nat.toDigits 10 n := by
  rw [padded, String.toList_ofList]

theorem isDigit_padded : ∀ c ∈ (padded width n).toList, c.isDigit = true := by
  intro c hc
  rw [toList_padded, List.mem_append] at hc
  rcases hc with hc | hc
  · rw [List.eq_of_mem_replicate hc]
    rfl
  · exact Decimal.isDigit_toDigits hc

theorem padded_ne_nil (width n : Nat) : (padded width n).toList ≠ [] := by
  rw [toList_padded]
  exact List.append_ne_nil_of_right_ne_nil _ Nat.toDigits_ne_nil

theorem length_padded (hwidth : 0 < width) (h : n < 10 ^ width) :
    (padded width n).toList.length = width := by
  have hlength := (Nat.length_toDigits_le_iff (b := 10) (by omega) hwidth).mpr h
  rw [toList_padded, List.length_append, List.length_replicate]
  omega

theorem value_padded : Decimal.value (padded width n).toList = n := by
  rw [toList_padded, Decimal.value_zeros_toDigits]

theorem toList_toUniversal (t : Timestamp) : t.toUniversal.toList =
    (yearText t.date.year).toList ++ '-' :: ((padded 2 t.date.month).toList ++
      '-' :: ((padded 2 t.date.day).toList ++ 'T' :: ((padded 2 (t.second / 3600)).toList ++
        ':' :: ((padded 2 (t.second / 60 % 60)).toList ++
          ':' :: ((padded 2 (t.second % 60 + t.nano / 1000000000)).toList ++
            ((fractionText (t.nano % 1000000000)).toList ++ ['Z'])))))) := by
  simp [toUniversal, render, String.toList_append]

/-! ## The moment that a text names -/

/-- A point that is no moment stands in a leap second inside a minute. -/
theorem bounds_of_not_isMoment (h : ¬ t.isMoment = true) :
    t.second < 86400 ∧ t.second % 60 ≠ 59 ∧ 1000000000 ≤ t.nano ∧ t.nano < 2000000000 := by
  have hvalid := t.valid
  simp only [isMoment, Bool.or_eq_true, decide_eq_true_eq, beq_iff_eq, not_or] at h
  simp only [isClock, Bool.and_eq_true, decide_eq_true_eq] at hvalid
  omega

/-- The moment that the text of a point names. A leap second inside a minute is written as the second
after it. -/
def toMoment (t : Timestamp) : Moment :=
  if h : t.isMoment = true then ⟨t, h⟩
  else
    have hbounds := bounds_of_not_isMoment h
    ⟨⟨t.date, t.second + 1, t.nano - 1000000000, by simp [isClock]; omega⟩,
      by simp [isMoment]; omega⟩

theorem toMoment_eq_iff : t.toMoment = t ↔ t.isMoment = true := by
  refine ⟨fun h => h ▸ t.toMoment.placed, fun h => ?_⟩
  rw [toMoment, dif_pos h]

@[simp] theorem toMoment_coe (m : Moment) : (m : Timestamp).toMoment = m := by
  rw [toMoment, dif_pos m.placed]

theorem toUniversal_toMoment (t : Timestamp) : t.toMoment.toUniversal = t.toUniversal := by
  by_cases h : t.isMoment = true
  · rw [toMoment_eq_iff.mpr h]
  · have hbounds := bounds_of_not_isMoment h
    have hhour : (t.second + 1) / 3600 = t.second / 3600 := by omega
    have hminute : (t.second + 1) / 60 % 60 = t.second / 60 % 60 := by omega
    have hsecond : (t.second + 1) % 60 + (t.nano - 1000000000) / 1000000000 =
        t.second % 60 + t.nano / 1000000000 := by omega
    have hnano : (t.nano - 1000000000) % 1000000000 = t.nano % 1000000000 := by omega
    simp only [toMoment, dif_neg h, toUniversal, render, hhour, hminute, hsecond, hnano]

end Timestamp

namespace Moment

open Timestamp

variable {ds rest : List Char} {mark : Char} {width n most : Nat}

/-! ## Fields -/

/-- What ends a row of digits. -/
def Ends (rest : List Char) : Prop := ∀ c, rest.head? = some c → c.isDigit = false

theorem ends_cons (h : mark.isDigit = false) : Ends (mark :: rest) := by
  intro c hc
  exact Option.some.inj hc ▸ h

theorem takeWhile_take_append (hds : ∀ c ∈ ds, c.isDigit = true) (hlength : ds.length ≤ most)
    (hrest : Ends rest) : ((ds ++ rest).take most).takeWhile Char.isDigit = ds := by
  rw [List.take_append, List.take_of_length_le hlength, List.takeWhile_append_of_pos hds]
  cases rest with
  | nil => simp
  | cons c rest =>
    have hc := hrest c rfl
    cases most - ds.length with
    | zero => simp
    | succ k => simp [hc]

theorem readDigits_append (hds : ∀ c ∈ ds, c.isDigit = true) (hne : ds ≠ [])
    (hlength : ds.length ≤ most) (hrest : Ends rest) :
    readDigits most (ds ++ rest) = some (Decimal.value ds, rest) := by
  simp only [readDigits, takeWhile_take_append hds hlength hrest]
  simp [hne]

theorem isBlank_of_isDigit {c : Char} (h : c.isDigit = true) : Text.isBlank c = false := by
  have hbounds : 48 ≤ c.toNat ∧ c.toNat ≤ 57 := Char.isDigit_iff_toNat.mp h
  simp [Text.isBlank]
  omega

theorem skipBlanks_padded : skipBlanks ((padded width n).toList ++ rest) =
    (padded width n).toList ++ rest := by
  obtain ⟨c, cs, hcs⟩ := List.exists_cons_of_ne_nil (padded_ne_nil width n)
  have hc := isBlank_of_isDigit (isDigit_padded c (by rw [hcs]; exact List.mem_cons_self))
  rw [hcs, skipBlanks, List.cons_append, List.dropWhile_cons_of_neg (by simp [hc])]

theorem readField_padded (hwidth : 0 < width) (h : n < 10 ^ width) (hrest : Ends rest) :
    readField width ((padded width n).toList ++ rest) = some (n, rest) := by
  rw [readField, skipBlanks_padded, readDigits_append isDigit_padded (padded_ne_nil width n)
    (Nat.le_of_eq (length_padded hwidth h)) hrest, value_padded]

theorem readMark_cons (h : Text.isBlank mark = false) :
    readMark mark (mark :: rest) = some rest := by
  simp [readMark, skipBlanks, h]

/-! ## Date and clock -/

/-- A sign lets the year have any number of digits. -/
theorem readYear_signed (width n : Nat) (hrest : Ends rest) :
    readYear ('-' :: ((padded width n).toList ++ rest)) = some (-(n : Int), rest) ∧
      readYear ('+' :: ((padded width n).toList ++ rest)) = some ((n : Int), rest) := by
  have hdigits : readAllDigits ((padded width n).toList ++ rest) = some (n, rest) := by
    have hlength : (padded width n).toList.length ≤ ((padded width n).toList ++ rest).length := by
      rw [List.length_append]
      omega
    rw [readAllDigits, readDigits_append isDigit_padded (padded_ne_nil width n) hlength hrest,
      value_padded]
  have hminus (cs : List Char) : skipBlanks ('-' :: cs) = '-' :: cs := rfl
  have hplus (cs : List Char) : skipBlanks ('+' :: cs) = '+' :: cs := rfl
  refine ⟨?_, ?_⟩
  · simp only [readYear, hminus, hdigits, Option.map_some]
  · simp only [readYear, hplus, hdigits, Option.map_some]

theorem readYear_padded (h : n < 10000) (hrest : Ends rest) :
    readYear ((padded 4 n).toList ++ rest) = some ((n : Int), rest) := by
  have hdigits : readDigits 4 ((padded 4 n).toList ++ rest) = some (n, rest) := by
    rw [readDigits_append isDigit_padded (padded_ne_nil 4 n)
      (Nat.le_of_eq (length_padded (by omega) h)) hrest, value_padded]
  obtain ⟨c, cs, hcs⟩ := List.exists_cons_of_ne_nil (padded_ne_nil 4 n)
  have hc : c.isDigit = true := isDigit_padded c (by rw [hcs]; exact List.mem_cons_self)
  rw [readYear, skipBlanks_padded]
  split
  · rename_i heq
    rw [hcs, List.cons_append] at heq
    rw [(List.cons.inj heq).1] at hc
    exact absurd hc (by decide)
  · rename_i heq
    rw [hcs, List.cons_append] at heq
    rw [(List.cons.inj heq).1] at hc
    exact absurd hc (by decide)
  · rw [hdigits, Option.map_some]

theorem readYear_yearText (year : Int) (hrest : Ends rest) :
    readYear ((yearText year).toList ++ rest) = some (year, rest) := by
  unfold yearText
  by_cases hplain : 0 ≤ year ∧ year ≤ 9999
  · rw [if_pos hplain, readYear_padded (by omega) hrest, Int.toNat_of_nonneg hplain.1]
  · obtain ⟨hminus, hplus⟩ := readYear_signed 4 year.natAbs hrest
    rw [if_neg hplain, String.toList_append]
    by_cases hnegative : year < 0
    · have hvalue : -(year.natAbs : Int) = year := by omega
      rw [if_pos hnegative]
      rw [hvalue] at hminus
      exact hminus
    · have hvalue : (year.natAbs : Int) = year := by omega
      rw [if_neg hnegative]
      rw [hvalue] at hplus
      exact hplus

/-- Only zeros are left off a fraction. -/
theorem readFraction_padded {places : Nat} (hplaces : 0 < places) (hmost : places ≤ 9)
    (h : n < 10 ^ places) (hrest : Ends rest) :
    readFraction ('.' :: ((padded places n).toList ++ rest)) =
      some (n * 10 ^ (9 - places), rest) := by
  have hlength := length_padded hplaces h
  have hdrop : ((padded places n).toList ++ rest).dropWhile Char.isDigit = rest := by
    rw [List.dropWhile_append_of_pos isDigit_padded]
    cases rest with
    | nil => rfl
    | cons c rest => rw [List.dropWhile_cons_of_neg (by simp [hrest c rfl])]
  have htake : (((padded places n).toList ++ rest).take 9).takeWhile Char.isDigit =
      (padded places n).toList := takeWhile_take_append isDigit_padded (by omega) hrest
  have hne : (padded places n).toList.isEmpty = false :=
    List.isEmpty_eq_false_iff.mpr (padded_ne_nil places n)
  simp only [readFraction, htake, hdrop, value_padded, hlength, hne]
  rfl

theorem readFraction_fractionText (hnano : n < 1000000000) (hrest : Ends rest)
    (hpoint : rest.head? ≠ some '.') :
    readFraction ((fractionText n).toList ++ rest) = some (n, rest) := by
  unfold fractionText
  by_cases hzero : n = 0
  · rw [if_pos hzero, hzero]
    change readFraction rest = _
    unfold readFraction
    split
    · exact absurd rfl hpoint
    · rfl
  · rw [if_neg hzero]
    by_cases hmilli : n % 1000000 = 0
    · have hread := readFraction_padded (n := n / 1000000) (by omega) (by omega)
        (show n / 1000000 < 10 ^ 3 by omega) hrest
      have hvalue : n / 1000000 * 10 ^ (9 - 3) = n := by omega
      rw [if_pos hmilli, String.toList_append]
      rw [hvalue] at hread
      exact hread
    · rw [if_neg hmilli]
      by_cases hmicro : n % 1000 = 0
      · have hread := readFraction_padded (n := n / 1000) (by omega) (by omega)
          (show n / 1000 < 10 ^ 6 by omega) hrest
        have hvalue : n / 1000 * 10 ^ (9 - 6) = n := by omega
        rw [if_pos hmicro, String.toList_append]
        rw [hvalue] at hread
        exact hread
      · have hread := readFraction_padded (n := n) (by omega) (by omega)
          (show n < 10 ^ 9 by omega) hrest
        have hvalue : n * 10 ^ (9 - 9) = n := by omega
        rw [if_neg hmicro, String.toList_append]
        rw [hvalue] at hread
        exact hread

theorem ends_fractionText (n : Nat) (hrest : Ends rest) :
    Ends ((fractionText n).toList ++ rest) := by
  unfold fractionText
  repeat' split
  · exact hrest
  all_goals
    rw [String.toList_append]
    exact ends_cons (by decide)

theorem readDate_render (d : Date) (hrest : Ends rest) :
    readDate ((yearText d.year).toList ++ '-' :: ((padded 2 d.month).toList ++
      '-' :: ((padded 2 d.day).toList ++ rest))) = some (d, rest) := by
  have hvalid := d.valid
  have hbounds : d.month < 10 ^ 2 ∧ d.day < 10 ^ 2 := by
    simp only [isDate, Bool.and_eq_true, decide_eq_true_eq] at hvalid
    have hdays : daysInMonth d.year d.month ≤ 31 := by
      unfold daysInMonth
      repeat' split
      all_goals omega
    omega
  have hdash (cs : List Char) : Ends ('-' :: cs) := ends_cons (by decide)
  have hmark (cs : List Char) : readMark '-' ('-' :: cs) = some cs := readMark_cons (by decide)
  have hyear (cs : List Char) := readYear_yearText d.year (hdash cs)
  have hmonth (cs : List Char) := readField_padded (by omega) hbounds.1 (hdash cs)
  have hday := readField_padded (by omega) hbounds.2 hrest
  simp only [readDate, hyear, hmonth, hday, hmark, bind, Option.bind, Date.of?, hvalid, dite_true]
  rfl

/-- A clock is read as it was written, a leap second as the second after the last. -/
theorem readClock_render {second nano : Nat} (hsecond : second < 86400) (hnano : nano < 2000000000)
    (hplaced : nano < 1000000000 ∨ second % 60 = 59) (hrest : Ends rest)
    (hpoint : rest.head? ≠ some '.') :
    readClock ((padded 2 (second / 3600)).toList ++ ':' :: ((padded 2 (second / 60 % 60)).toList ++
      ':' :: ((padded 2 (second % 60 + nano / 1000000000)).toList ++
        ((fractionText (nano % 1000000000)).toList ++ rest)))) = some ((second, nano), rest) := by
  have hcolon (cs : List Char) : Ends (':' :: cs) := ends_cons (by decide)
  have hmark (cs : List Char) : readMark ':' (':' :: cs) = some cs := readMark_cons (by decide)
  have hhour (cs : List Char) :=
    readField_padded (by omega) (show second / 3600 < 10 ^ 2 by omega) (hcolon cs)
  have hminute (cs : List Char) :=
    readField_padded (by omega) (show second / 60 % 60 < 10 ^ 2 by omega) (hcolon cs)
  have hlast := readField_padded (by omega)
    (show second % 60 + nano / 1000000000 < 10 ^ 2 by omega)
    (ends_fractionText (nano % 1000000000) hrest)
  have hfraction := readFraction_fractionText (Nat.mod_lt nano (by omega)) hrest hpoint
  simp only [readClock, hhour, hminute, hlast, hfraction, hmark, bind, Option.bind]
  rw [if_pos (by omega)]
  by_cases hleap : second % 60 + nano / 1000000000 = 60
  · have htime : second / 3600 * 3600 + second / 60 % 60 * 60 + 59 = second := by omega
    have hnano : nano % 1000000000 + 1000000000 = nano := by omega
    rw [if_pos hleap, htime, hnano]
  · have htime : second / 3600 * 3600 + second / 60 % 60 * 60 +
        (second % 60 + nano / 1000000000) = second := by omega
    have hnano : nano % 1000000000 = nano := by omega
    rw [if_neg hleap, htime, hnano]

/-! ## The whole -/

/-- A moment comes back from the form of records. -/
theorem read?_toUniversal (m : Moment) : read? m.toUniversal = some m := by
  have hend : Ends ['Z'] := ends_cons (by decide)
  have hoffset : readOffset ['Z'] = some (0, []) := by decide
  have hdrop (cs : List Char) : dropDateEnd ('T' :: cs) = some cs := rfl
  have hletter (cs : List Char) : Ends ('T' :: cs) := ends_cons (by decide)
  have hdate (cs : List Char) := readDate_render m.date (hletter cs)
  have hbounds : m.second < 86400 ∧ m.nano < 2000000000 := by simpa [isClock] using m.valid
  have hplaced : m.nano < 1000000000 ∨ m.second % 60 = 59 := by simpa [isMoment] using m.placed
  rw [read?, toList_toUniversal]
  simp only [hdate, bind, Option.bind, hdrop,
    readClock_render hbounds.1 hbounds.2 hplaced hend (by decide), hoffset]
  have hsecond : ¬ (86400 : Int) ≤ m.second := by omega
  have hnow : ofLocal? m.date m.second m.nano 0 = some m := by
    simp only [ofLocal?, Int.zero_mul, Int.sub_zero, if_neg hsecond, Int.toNat_natCast, of?,
      Timestamp.of?, m.valid, m.placed, dite_true, Option.bind_eq_bind, Option.bind_some]
    rw [if_neg (by omega)]
  exact hnow

end Moment

/-- What is read from the text of a point is the moment that the text names. -/
theorem Timestamp.read?_toUniversal (t : Timestamp) :
    Moment.read? t.toUniversal = some t.toMoment := by
  rw [← toUniversal_toMoment, Moment.read?_toUniversal]

end Turnstile
