import DeclarationWatch.Proofs.Json.Lexeme
import DeclarationWatch.Proofs.Text.Blank
import DeclarationWatch.Proofs.Time.Calendar
import DeclarationWatch.Proofs.Time.Reading
import DeclarationWatch.Time.Timestamp
import Mathlib.Data.Nat.Digits.Defs

namespace DeclarationWatch.Time

section Digits

variable {c : Char} {s digits rest : List Char} {width n low high : Nat}

theorem toNat_of_isDigit (h : isDigit c = true) : 48 ≤ c.toNat ∧ c.toNat < 58 := by
  simp only [isDigit, Bool.and_eq_true, decide_eq_true_iff, Char.le_def, UInt32.le_iff_toNat_le]
    at h
  exact ⟨h.1, Nat.lt_succ_of_le h.2⟩

theorem isBlank_of_isDigit (h : isDigit c = true) : Text.isBlank c = false := by
  have hrange := toNat_of_isDigit h
  simp [Text.isBlank, Text.blankRanges, Text.inRanges]
  omega

theorem isDigit_of_mem_padded (h : c ∈ padded width n) : isDigit c = true := by
  rcases List.mem_append.mp h with hzero | hdigit
  · rw [List.eq_of_mem_replicate hzero]
    rfl
  · exact Json.isDigit_of_mem_toDigits hdigit

theorem padded_ne_nil : padded width n ≠ [] :=
  List.append_ne_nil_of_right_ne_nil _ Nat.toDigits_ne_nil

theorem length_padded (hpos : 0 < width) (h : n < 10 ^ width) : (padded width n).length = width := by
  have hdigits := Nat.toDigits_length 10 n width hpos h
  simp only [padded, List.length_append, List.length_replicate]
  omega

theorem natural_padded (width n : Nat) : natural (padded width n) = n := by
  have hzeros (count : Nat) (digits : List Char) :
      natural (List.replicate count '0' ++ digits) = natural digits := by
    induction count with
    | zero => rfl
    | succ count ih => exact ih
  exact (hzeros _ _).trans (Json.naturalOf_toDigits n)

-- Digits are read up to the width, or up to what is no digit.
theorem number?_append (hne : digits ≠ []) (hdigits : ∀ c ∈ digits, isDigit c = true)
    (hwidth : digits.length ≤ width)
    (hrest : digits.length < width → ∀ c ∈ rest.head?, isDigit c = false) :
    number? width (digits ++ rest) = some (natural digits, rest) := by
  have hnone : (rest.take (width - digits.length)).takeWhile isDigit = [] := by
    cases rest with
    | nil => simp
    | cons c rest =>
        rcases Nat.eq_or_lt_of_le hwidth with heq | hlt
        · simp [heq]
        · obtain ⟨left, hleft⟩ := Nat.exists_eq_succ_of_ne_zero (Nat.sub_ne_zero_of_lt hlt)
          simp [hleft, hrest hlt c rfl]
  have htaken : ((digits ++ rest).take width).takeWhile isDigit = digits := by
    rw [List.take_append, List.take_of_length_le hwidth, List.takeWhile_append_of_pos hdigits, hnone,
      List.append_nil]
  simp [number?, htaken, hne]

theorem number?_padded (hpos : 0 < width) (h : n < 10 ^ width) (rest : List Char) :
    number? width (padded width n ++ rest) = some (n, rest) := by
  have hlength := length_padded hpos h
  rw [number?_append padded_ne_nil (fun _ => isDigit_of_mem_padded) hlength.le
    (fun hlt => absurd hlength hlt.ne), natural_padded]

theorem isDigit_of_head_padded (h : padded width n ++ rest = c :: s) : isDigit c = true := by
  have hhead : (padded width n ++ rest).head? = some c := by rw [h, List.head?_cons]
  rw [List.head?_append_of_ne_nil _ padded_ne_nil] at hhead
  exact isDigit_of_mem_padded (List.mem_of_mem_head? hhead)

-- A text that starts with digits has no blanks before them.
theorem trimStart_padded (width n : Nat) (rest : List Char) :
    Text.trimStart (padded width n ++ rest) = padded width n ++ rest := by
  refine Text.trimStart_eq_self fun c hc => ?_
  obtain ⟨s, hs⟩ := List.head?_eq_some_iff.mp hc
  exact isBlank_of_isDigit (isDigit_of_head_padded hs)

theorem field?_padded (hn : n < 100) (hlow : low ≤ n) (hhigh : n ≤ high) (rest : List Char) :
    field? 2 low high (padded 2 n ++ rest) = some (n, rest) := by
  simp [field?, trimStart_padded, number?_padded (show 0 < 2 by decide) hn, hlow, hhigh]

theorem separator?_cons (h : Text.isBlank c = false) (rest : List Char) :
    separator? c (c :: rest) = some rest := by
  simp [separator?, Text.trimStart, h]

end Digits

theorem Date.bounds_of_isReal {date : Date} (h : date.isReal = true) :
    1 ≤ date.month ∧ date.month ≤ 12 ∧ 1 ≤ date.day ∧ date.day ≤ 31 := by
  simp only [isReal, Bool.and_eq_true, decide_eq_true_iff] at h
  obtain ⟨⟨⟨hfirst, hlast⟩, hday⟩, hlength⟩ := h
  refine ⟨hfirst, hlast, hday, hlength.trans ?_⟩
  unfold daysInMonth
  split
  · split <;> decide
  · decide
  · decide
  · decide
  · decide
  · decide

section Parts

theorem year?_padded {n : Nat} (h : n < 10 ^ 4) (rest : List Char) :
    year? (padded 4 n ++ rest) = some ((n : Int), rest) := by
  have hread := number?_padded (show 0 < 4 by decide) h rest
  rw [year?, trimStart_padded]
  split
  · rename_i heq
    have hsign : isDigit '-' = true := isDigit_of_head_padded heq
    cases hsign
  · rename_i heq
    have hsign : isDigit '+' = true := isDigit_of_head_padded heq
    cases hsign
  · rw [hread, Option.map_some]

theorem year?_yearText (year : Int) (rest : List Char) :
    year? (yearText year ++ '-' :: rest) = some (year, '-' :: rest) := by
  have hlong (n : Nat) : number? (padded 4 n ++ '-' :: rest).length (padded 4 n ++ '-' :: rest) =
      some (n, '-' :: rest) := by
    rw [number?_append padded_ne_nil (fun _ => isDigit_of_mem_padded) (by simp)
      (fun _ c hc => by cases hc; rfl), natural_padded]
  simp only [yearText, Bool.and_eq_true, decide_eq_true_iff]
  by_cases hplain : 0 ≤ year ∧ year ≤ 9999
  · have hyear : (year.toNat : Int) = year := by omega
    rw [if_pos hplain, year?_padded (by omega), hyear]
  · rw [if_neg hplain]
    by_cases hnegative : year < 0
    · have hyear : -(year.natAbs : Int) = year := by omega
      have hminus : Text.isBlank '-' = false := by decide
      rw [if_pos hnegative]
      simp only [year?, List.cons_append, Text.trimStart, List.dropWhile_cons, hminus, hlong,
        Bool.false_eq_true, if_false, Option.map_some, hyear]
    · have hyear : (year.natAbs : Int) = year := by omega
      have hplus : Text.isBlank '+' = false := by decide
      rw [if_neg hnegative]
      simp only [year?, List.cons_append, Text.trimStart, List.dropWhile_cons, hplus, hlong,
        Bool.false_eq_true, if_false, Option.map_some, hyear]

theorem fraction?_padded {places n : Nat} (hpos : 0 < places) (hplaces : places ≤ 9)
    (h : n < 10 ^ places) :
    fraction? ('.' :: padded places n ++ ['Z']) = some (n * 10 ^ (9 - places), ['Z']) := by
  have hlength := length_padded hpos h
  have hdigits : ∀ c ∈ padded places n, isDigit c = true := fun _ => isDigit_of_mem_padded
  have htake : ((padded places n ++ ['Z']).take 9).takeWhile isDigit = padded places n := by
    rw [List.take_append, List.take_of_length_le (by omega), List.takeWhile_append_of_pos hdigits]
    cases 9 - (padded places n).length <;> simp [isDigit]
  have hdrop : (padded places n ++ ['Z']).dropWhile isDigit = ['Z'] := by
    rw [List.dropWhile_append_of_pos hdigits]
    rfl
  simp [fraction?, htake, hdrop, padded_ne_nil, natural_padded, hlength]

-- The fewest places that lose nothing lose nothing.
theorem fraction?_fractionText {nanos : Nat} (h : nanos < 1000000000) :
    fraction? (fractionText nanos ++ ['Z']) = some (nanos, ['Z']) := by
  unfold fractionText
  split
  · rename_i hzero
    subst hzero
    rfl
  split
  · rename_i hmillis
    rw [fraction?_padded (by decide) (by decide) (show nanos / 1000000 < 10 ^ 3 by omega)]
    exact congrArg (fun n => some (n, ['Z'])) (Nat.div_mul_cancel (Nat.dvd_of_mod_eq_zero hmillis))
  split
  · rename_i hmicros
    rw [fraction?_padded (by decide) (by decide) (show nanos / 1000 < 10 ^ 6 by omega)]
    exact congrArg (fun n => some (n, ['Z'])) (Nat.div_mul_cancel (Nat.dvd_of_mod_eq_zero hmicros))
  · rw [fraction?_padded (by decide) (by decide) (show nanos < 10 ^ 9 by omega)]
    exact congrArg (fun n => some (n, ['Z'])) (Nat.mul_one nanos)

theorem date?_dateText {date : Date} (h : date.isReal = true) (rest : List Char) :
    date? (dateText date ++ rest) = some (date, rest) := by
  obtain ⟨hmonth, hmonth', hday, hday'⟩ := date.bounds_of_isReal h
  have hdash : ∀ s, separator? '-' ('-' :: s) = some s := separator?_cons (by decide)
  have hmonths : ∀ s, field? 2 1 12 (padded 2 date.month ++ s) = some (date.month, s) :=
    field?_padded (by omega) hmonth hmonth'
  have hdays : ∀ s, field? 2 1 31 (padded 2 date.day ++ s) = some (date.day, s) :=
    field?_padded (by omega) hday hday'
  simp only [date?, dateText, List.append_assoc, List.cons_append, year?_yearText, hdash, hmonths,
    hdays, Option.bind_eq_bind, Option.bind_some]

theorem clock?_padded {hour minute second nanos : Nat} (hhour : hour < 24) (hminute : minute < 60)
    (hsecond : second ≤ 60) (hnanos : nanos < 1000000000) :
    clock? (padded 2 hour ++ ':' :: padded 2 minute ++ ':' :: padded 2 second ++
        fractionText nanos ++ ['Z']) =
      let leap := if second = 60 then 1 else 0
      some (hour * 3600 + minute * 60 + (second - leap), nanos + leap * 1000000000, ['Z']) := by
  have hcolon : ∀ s, separator? ':' (':' :: s) = some s := separator?_cons (by decide)
  have hhours : ∀ s, field? 2 0 23 (padded 2 hour ++ s) = some (hour, s) :=
    field?_padded (by omega) (by omega) (by omega)
  have hminutes : ∀ s, field? 2 0 59 (padded 2 minute ++ s) = some (minute, s) :=
    field?_padded (by omega) (by omega) (by omega)
  have hseconds : ∀ s, field? 2 0 60 (padded 2 second ++ s) = some (second, s) :=
    field?_padded (by omega) (by omega) hsecond
  simp only [clock?, List.append_assoc, List.cons_append, hcolon, hhours, hminutes, hseconds,
    fraction?_fractionText hnanos, Option.bind_eq_bind, Option.bind_some]

theorem clock?_clockText {ofDay nanos : Nat} (hday : ofDay < 86400) (hnanos : nanos < 2000000000)
    (hleap : 1000000000 ≤ nanos → ofDay % 60 = 59) :
    clock? (clockText ofDay nanos ++ ['Z']) = some (ofDay, nanos, ['Z']) := by
  have hhour : ofDay / 3600 < 24 := by omega
  have hminute : ofDay / 60 % 60 < 60 := by omega
  by_cases hlast : 1000000000 ≤ nanos
  · have htotal : ofDay / 3600 * 3600 + ofDay / 60 % 60 * 60 + 59 = ofDay := by omega
    have hnanos' : nanos - 1000000000 + 1000000000 = nanos := by omega
    rw [clockText, if_pos hlast, clock?_padded hhour hminute (by omega) (by omega),
      if_pos (by omega), hleap hlast]
    simp only [Nat.one_mul]
    rw [hnanos']
    exact congrArg (fun total => some (total, nanos, ['Z'])) htotal
  · have htotal : ofDay / 3600 * 3600 + ofDay / 60 % 60 * 60 + ofDay % 60 = ofDay := by omega
    rw [clockText, if_neg hlast, clock?_padded hhour hminute (by omega) (by omega),
      if_neg (by omega)]
    simp only [Nat.zero_mul, Nat.add_zero, Nat.sub_zero]
    exact congrArg (fun total => some (total, nanos, ['Z'])) htotal

-- Digits name a number below the power of ten that their count gives.
theorem natural_lt {digits : List Char} (h : ∀ c ∈ digits, isDigit c = true) :
    natural digits < 10 ^ digits.length := by
  have hstart : ∀ n, digits.foldl (fun n c => n * 10 + (c.toNat - 48)) n <
      (n + 1) * 10 ^ digits.length := by
    induction digits with
    | nil => simp
    | cons c digits ih =>
        intro n
        have hc := toNat_of_isDigit (h c List.mem_cons_self)
        have hrest := ih (fun d hd => h d (List.mem_cons_of_mem c hd)) (n * 10 + (c.toNat - 48))
        calc (c :: digits).foldl (fun n c => n * 10 + (c.toNat - 48)) n
            < (n * 10 + (c.toNat - 48) + 1) * 10 ^ digits.length := hrest
          _ ≤ ((n + 1) * 10) * 10 ^ digits.length := Nat.mul_le_mul_right _ (by omega)
          _ = (n + 1) * 10 ^ (digits.length + 1) := by rw [Nat.mul_assoc, Nat.pow_succ']
  exact (hstart 0).trans_eq (by rw [Nat.zero_add, Nat.one_mul])

theorem fraction?_lt {s rest : List Char} {nanos : Nat} (h : fraction? s = some (nanos, rest)) :
    nanos < 10 ^ 9 := by
  unfold fraction? at h
  split at h
  · rename_i s
    simp only at h
    split at h
    · cases h
    · cases h
      have hdigits := natural_lt fun c (hc : c ∈ (s.take 9).takeWhile isDigit) =>
        List.mem_takeWhile_imp hc
      have hlength : ((s.take 9).takeWhile isDigit).length ≤ 9 :=
        (List.takeWhile_prefix _).length_le.trans (List.length_take_le 9 s)
      calc _ < 10 ^ ((s.take 9).takeWhile isDigit).length *
            10 ^ (9 - ((s.take 9).takeWhile isDigit).length) :=
            Nat.mul_lt_mul_of_pos_right hdigits (by positivity)
        _ = 10 ^ 9 := by rw [← Nat.pow_add, Nat.add_sub_cancel' hlength]
  · cases h
    decide

-- More than a second of nanoseconds is told of the last second of a minute only.
theorem bounds_of_clock? {s rest : List Char} {ofDay nanos : Nat}
    (h : clock? s = some (ofDay, nanos, rest)) :
    nanos < 2000000000 ∧ (1000000000 ≤ nanos → ofDay % 60 = 59) := by
  simp only [clock?, Option.bind_eq_bind, Option.bind_eq_some_iff] at h
  obtain ⟨⟨hour, behind⟩, -, behind, -, ⟨minute, behind⟩, -, behind, -, ⟨second, behind⟩, -,
    ⟨part, behind⟩, hpart, h⟩ := h
  have hpart := fraction?_lt hpart
  cases h
  split
  · rename_i hsixty
    rw [hsixty]
    omega
  · omega

-- An offset is made of whole minutes.
theorem dvd_of_offset? {s rest : List Char} {offset : Int} (h : offset? s = some (offset, rest)) :
    60 ∣ offset := by
  have hsigned : ∀ {s}, offset?.signed? s = some (offset, rest) → 60 ∣ offset := by
    intro s h
    unfold offset?.signed? at h
    split at h
    · cases h
    · split at h
      · cases h
        decide
      · simp only [Option.bind_eq_bind, Option.bind_eq_some_iff] at h
        obtain ⟨factor, -, ⟨hours, behind⟩, -, ⟨minutes, behind⟩, -, h⟩ := h
        simp only at h
        split at h
        · cases h
          exact Dvd.dvd.mul_left (by omega) factor
        · cases h
  unfold offset? at h
  split at h
  · split at h
    · cases h
      decide
    · exact hsigned h
  · exact hsigned h

end Parts

namespace Instant

variable {t : Instant}

-- What a timestamp can tell: an instant of the calendar, and a leap second only at the end of a
-- minute.
structure HasTimestamp (t : Instant) : Prop where
  inRange : t.inRange = true
  nanos : t.nanos < 2000000000
  leap : 1000000000 ≤ t.nanos → t.seconds % 60 = 59

theorem inRange_iff : t.inRange = true ↔ firstSecond ≤ t.seconds ∧ t.seconds ≤ lastSecond := by
  rw [inRange, Bool.and_eq_true, decide_eq_true_iff, decide_eq_true_iff]

theorem ofTimestamp?_timestamp (h : t.HasTimestamp) : ofTimestamp? t.timestamp = some t := by
  have hrange := inRange_iff.mp h.inRange
  have hreal := Date.isReal_ofDays (t.seconds / 86400)
  have hdays := Date.toDays_ofDays (t.seconds / 86400)
  have hclock := clock?_clockText (show (t.seconds % 86400).toNat < 86400 by omega) h.nanos
    (fun hle => by have := h.leap hle; omega)
  have hmidnight : (⟨t.seconds / 86400 * 86400, 0⟩ : Instant).inRange = true := by
    rw [firstSecond_eq, lastSecond_eq] at hrange
    rw [inRange_iff, firstSecond_eq, lastSecond_eq]
    simp only
    omega
  have hsum : t.seconds / 86400 * 86400 + ((t.seconds % 86400).toNat : Int) - 0 = t.seconds := by
    omega
  have hzone : offset? (Text.trimStart ['Z']) = some (0, []) := by decide
  have hend : (Text.trimStart []).isEmpty = true := by decide
  simp only [ofTimestamp?, timestamp, List.append_assoc, List.cons_append, date?_dateText hreal,
    clockMark?, Option.bind_eq_bind, Option.bind_some, decide_true, Bool.true_or, if_true, hclock]
  rw [hzone, Option.bind_some]
  simp only [hend, hdays, hreal, hmidnight, hsum, h.inRange, Int.natAbs_zero, Nat.ofNat_pos,
    decide_true, Bool.and_self, if_true]

-- A text says no more than that.
theorem HasTimestamp.of_ofTimestamp? {s : List Char} (h : ofTimestamp? s = some t) :
    t.HasTimestamp := by
  simp only [ofTimestamp?, Option.bind_eq_bind, Option.bind_eq_some_iff] at h
  obtain ⟨⟨date, behind⟩, -, behind, -, ⟨ofDay, nanos, behind⟩, hclock, ⟨offset, behind⟩, hoffset,
    h⟩ := h
  obtain ⟨hnanos, hleap⟩ := bounds_of_clock? hclock
  obtain ⟨minutes, rfl⟩ := dvd_of_offset? hoffset
  simp only at h
  split at h
  · rename_i hchecks
    cases h
    simp only [Bool.and_eq_true] at hchecks
    refine ⟨hchecks.2, hnanos, fun hle => ?_⟩
    have hlast := hleap hle
    simp only
    omega
  · cases h

theorem ofText?_text (h : t.HasTimestamp) : ofText? t.text = some t := by
  rw [ofText?, text, String.toList_ofList]
  exact ofTimestamp?_timestamp h

end Instant

end DeclarationWatch.Time
