import DeclarationWatch.Time.Calendar
import Mathlib.Tactic.IntervalCases

namespace DeclarationWatch.Time

-- A day of an era that is not its last one: whole centuries, then spans of four years, then days.
-- The last span of a century is a day short.
theorem exists_span_of_day {d : Int} (hlow : 0 ≤ d) (hhigh : d < 146096) :
    ∃ c q r : Int, d = 36524 * c + 1461 * q + r ∧ 0 ≤ c ∧ c ≤ 3 ∧ 0 ≤ q ∧ q ≤ 24 ∧ 0 ≤ r ∧
      r ≤ 1460 ∧ (q = 24 → r ≤ 1459) := by
  refine ⟨d / 36524, d % 36524 / 1461, d % 36524 % 1461, ?_⟩
  omega

-- The year of an era, from the day of the era.
def yearOfEra (d : Int) : Int := (d - d / 1460 + d / 36524 - d / 146096) / 365

theorem yearOfEra_span {c q r : Int} (hc : 0 ≤ c) (hc' : c ≤ 3) (hq : 0 ≤ q) (hq' : q ≤ 24)
    (hr : 0 ≤ r) (hr' : r ≤ 1460) (hshort : q = 24 → r ≤ 1459) :
    yearOfEra (36524 * c + 1461 * q + r) = 100 * c + 4 * q + min 3 (r / 365) := by
  have hcentury : (36524 * c + 1461 * q + r) / 36524 = c := by omega
  have hera : (36524 * c + 1461 * q + r) / 146096 = 0 := by omega
  have hspan : (36524 * c + 1461 * q + r) / 1460 = 25 * c + q + (24 * c + q + r) / 1460 := by omega
  rw [yearOfEra, hcentury, hera, hspan]
  omega

-- The day of a year, and only a leap year has the last one. Years begin in March here, so that it is
-- the year after that is a leap year.
theorem yearOfEra_bounds {d : Int} (hlow : 0 ≤ d) (hhigh : d < 146097) :
    let y := yearOfEra d
    let r := d - (365 * y + y / 4 - y / 100)
    0 ≤ y ∧ y < 400 ∧ 0 ≤ r ∧ r ≤ 365 ∧
      (r = 365 → (y + 1) % 4 = 0 ∧ ((y + 1) % 100 ≠ 0 ∨ y = 399)) := by
  by_cases hlast : d = 146096
  · subst hlast
    decide
  · obtain ⟨c, q, r, rfl, hc, hc', hq, hq', hr, hr', hshort⟩ :=
      exists_span_of_day hlow (by omega)
    have hyear := yearOfEra_span hc hc' hq hq' hr hr' hshort
    have hfour : (100 * c + 4 * q + min 3 (r / 365)) / 4 = 25 * c + q := by omega
    have hhundred : (100 * c + 4 * q + min 3 (r / 365)) / 100 = c := by omega
    intro y rest
    simp only [y, rest, hyear, hfour, hhundred]
    omega

-- The month of a day of the year, counted from March, and the day of the month.
theorem month_bounds {r : Int} (hlow : 0 ≤ r) (hhigh : r ≤ 365) :
    let month := (5 * r + 2) / 153
    let day := r - (153 * month + 2) / 5 + 1
    0 ≤ month ∧ month ≤ 11 ∧ 1 ≤ day := by
  intro month day
  simp only [month, day]
  omega

namespace Date

-- A date by its era, its year from March and its month from March.
def ofMarch (era year month day : Int) : Date :=
  let number := if month < 10 then month + 3 else month - 9
  ⟨year + era * 400 + (if number ≤ 2 then 1 else 0), number.toNat, day.toNat⟩

theorem toDays_ofMarch {era year month day : Int} (hyear : 0 ≤ year) (hyear' : year < 400)
    (hmonth : 0 ≤ month) (hmonth' : month ≤ 11) (hday : 1 ≤ day) :
    (ofMarch era year month day).toDays =
      era * 146097 + (year * 365 + year / 4 - year / 100 + ((153 * month + 2) / 5 + day - 1)) -
        719468 := by
  have hera : (year + era * 400) / 400 = era := by omega
  have hrest : (year + era * 400) % 400 = year := by omega
  have hdays : (day.toNat : Int) = day := by omega
  by_cases hlate : month < 10
  · have hnumber : ((month + 3).toNat : Int) = month + 3 := by omega
    have hspring : ¬(month + 3).toNat ≤ 2 := by omega
    have hspring' : ¬month + 3 ≤ 2 := by omega
    simp only [ofMarch, toDays, hlate, hspring, hspring', if_true, if_false, Int.add_zero, hera,
      hrest, hnumber, hdays, Int.add_sub_cancel]
  · have hnumber : ((month - 9).toNat : Int) = month - 9 := by omega
    have hwinter : (month - 9).toNat ≤ 2 := by omega
    have hwinter' : month - 9 ≤ 2 := by omega
    have hfirst : year + era * 400 + 1 - 1 = year + era * 400 := by omega
    have hback : ((month - 9).toNat + 9 : Int) = month := by omega
    simp only [ofMarch, toDays, hlate, hwinter, hwinter', if_true, if_false, hfirst, hera, hrest,
      hdays, hback]

theorem ofDays_eq (days : Int) :
    ofDays days =
      let d := (days + 719468) % 146097
      let y := yearOfEra d
      let r := d - (365 * y + y / 4 - y / 100)
      let m := (5 * r + 2) / 153
      ofMarch ((days + 719468) / 146097) y m (r - (153 * m + 2) / 5 + 1) := rfl

theorem toDays_ofDays (days : Int) : (ofDays days).toDays = days := by
  have hera := Int.emod_add_mul_ediv (days + 719468) 146097
  have hlow := Int.emod_nonneg (days + 719468) (show (146097 : Int) ≠ 0 by decide)
  have hhigh := Int.emod_lt_of_pos (days + 719468) (show (0 : Int) < 146097 by decide)
  rw [ofDays_eq]
  generalize (days + 719468) % 146097 = d at hera hlow hhigh ⊢
  obtain ⟨hy, hy', hr, hr', -⟩ := yearOfEra_bounds hlow hhigh
  obtain ⟨hm, hm', hd⟩ := month_bounds hr hr'
  simp only
  rw [toDays_ofMarch hy hy' hm hm' hd]
  omega

theorem isLeapYear_iff {year : Int} :
    isLeapYear year = true ↔ year % 4 = 0 ∧ (year % 100 ≠ 0 ∨ year % 400 = 0) := by
  simp [isLeapYear]

-- The months from March on have the lengths that the division by 153 gives them. February, the last
-- one, is cut short by the end of the year.
theorem isReal_ofMarch {era year r : Int} (hr : 0 ≤ r) (hr' : r ≤ 365)
    (hleap : r = 365 → isLeapYear (year + era * 400 + 1) = true) :
    let m := (5 * r + 2) / 153
    (ofMarch era year m (r - (153 * m + 2) / 5 + 1)).isReal = true := by
  intro m
  have hm : 0 ≤ m ∧ m ≤ 11 ∧ 1 ≤ r - (153 * m + 2) / 5 + 1 := month_bounds hr hr'
  have hnext : r < (153 * (m + 1) + 2) / 5 := by omega
  clear_value m
  obtain ⟨hm, hm', hd⟩ := hm
  simp only [isReal, Bool.and_eq_true, decide_eq_true_iff]
  by_cases hfebruary : m = 11
  · subst hfebruary
    have hdate : ofMarch era year 11 (r - (153 * 11 + 2) / 5 + 1) =
        ⟨year + era * 400 + 1, 2, (r - 337 + 1).toNat⟩ := rfl
    have hlength : (r - 337 + 1).toNat ≤ daysInMonth (year + era * 400 + 1) 2 := by
      by_cases hlast : r = 365
      · simp [daysInMonth, hleap hlast, hlast]
      · simp only [daysInMonth]
        split <;> omega
    have hfirst : 1 ≤ (r - 337 + 1).toNat := by omega
    rw [hdate]
    exact ⟨⟨⟨Nat.le_succ 1, Nat.le_add_left 2 10⟩, hfirst⟩, hlength⟩
  · refine ⟨⟨⟨?_, ?_⟩, ?_⟩, ?_⟩
    · simp only [ofMarch]
      omega
    · simp only [ofMarch]
      omega
    · simp only [ofMarch]
      omega
    · interval_cases m <;> simp [ofMarch, daysInMonth] <;> omega

theorem isReal_ofDays (days : Int) : (ofDays days).isReal = true := by
  have hlow := Int.emod_nonneg (days + 719468) (show (146097 : Int) ≠ 0 by decide)
  have hhigh := Int.emod_lt_of_pos (days + 719468) (show (0 : Int) < 146097 by decide)
  rw [ofDays_eq]
  generalize (days + 719468) % 146097 = d at hlow hhigh ⊢
  obtain ⟨-, -, hr, hr', hleap⟩ := yearOfEra_bounds hlow hhigh
  refine isReal_ofMarch hr hr' fun hlast => isLeapYear_iff.mpr ?_
  have hnext := hleap hlast
  omega

end Date

end DeclarationWatch.Time
