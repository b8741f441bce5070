import BoundSql.Calendar.DateTime
import Mathlib.Tactic.IntervalCases
import Mathlib.Tactic.SplitIfs

/-!
# Numbers of days

Days are numbered by years that begin in March, so that a leap day is the last day of its year.  The
numbers follow the order of dates (`Date.dayNumber_lt`), and the date computed for a number has that
number (`Date.dayNumber_ofDayNumber?`).
-/

namespace BoundSql

namespace Calendar

/-! ### Eras -/

/-- The year of its era that a day of the era lies in. -/
def yearOfEra (day : Nat) : Nat :=
  (day - day / 1460 + day / 36524 - day / 146096) / 365

/-- The number of days of an era before one of its years. -/
def daysOfEra (year : Nat) : Nat := 365 * year + year / 4 - year / 100

/-- A day of an era as a century, four years of it, and a day of these; the last day of an era is
left out. -/
theorem exists_parts {day : Nat} (h : day < 146096) :
    ∃ c q s, c < 4 ∧ q < 25 ∧ s < 1461 ∧ 1461 * q + s < 36524 ∧
      day = 36524 * c + (1461 * q + s) := by
  refine ⟨day / 36524, day % 36524 / 1461, day % 36524 % 1461, ?_, ?_, ?_, ?_, ?_⟩
  · omega
  · omega
  · omega
  · have := Nat.div_add_mod (day % 36524) 1461
    omega
  · rw [Nat.div_add_mod, Nat.div_add_mod]

/-- The estimate of the year is off by less than a day in four years. -/
theorem yearOfEra_eq {c q s : Nat} (hc : c < 4) (hq : q < 25) (hs : s < 1461)
    (h : 1461 * q + s < 36524) :
    ∃ t, t < 4 ∧ 365 * t ≤ s ∧ s ≤ 365 * t + 365 ∧
      yearOfEra (36524 * c + (1461 * q + s)) = 100 * c + 4 * q + t := by
  have hcenturies : (36524 * c + (1461 * q + s)) / 36524 = c := by omega
  have heras : (36524 * c + (1461 * q + s)) / 146096 = 0 := by omega
  have hfours : (36524 * c + (1461 * q + s)) / 1460 =
      25 * c + q + (24 * c + q + s) / 1460 := by omega
  rw [yearOfEra, hcenturies, heras, hfours]
  generalize he : (24 * c + q + s) / 1460 = e
  have hearly : e = 0 ∨ e = 1 ∧ 1364 ≤ s := by omega
  have hyears : 36524 * c + (1461 * q + s) - (25 * c + q + e) + c - 0 =
      365 * (100 * c + 4 * q) + (s - e) := by omega
  refine ⟨(s - e) / 365, ?_, ?_, ?_, ?_⟩
  · omega
  · omega
  · omega
  · rw [hyears, Nat.mul_add_div (by decide)]

theorem yearOfEra_bounds {day : Nat} (h : day < 146097) :
    yearOfEra day < 400 ∧ daysOfEra (yearOfEra day) ≤ day ∧
      day ≤ daysOfEra (yearOfEra day) + 365 := by
  by_cases hlast : day = 146096
  · subst hlast
    decide
  · obtain ⟨c, q, s, hc, hq, hs, hcs, rfl⟩ := exists_parts (show day < 146096 by omega)
    obtain ⟨t, ht, hlo, hhi, hyear⟩ := yearOfEra_eq hc hq hs hcs
    have hfours : (100 * c + 4 * q + t) / 4 = 25 * c + q := by omega
    have hcenturies : (100 * c + 4 * q + t) / 100 = c := by omega
    rw [hyear, daysOfEra, hfours, hcenturies]
    omega

/-! ### Years -/

/-- The number of days of all years before a year, years beginning in March. -/
def daysBefore (year : Int) : Int := 365 * year + year / 4 - year / 100 + year / 400

theorem daysBefore_eq (y : Int) :
    y / 400 * 146097 + (y % 400 * 365 + y % 400 / 4 - y % 400 / 100) = daysBefore y := by
  unfold daysBefore
  omega

theorem daysBefore_mono {y z : Int} (h : y ≤ z) : daysBefore y ≤ daysBefore z := by
  unfold daysBefore
  omega

theorem isLeap_iff {year : Int} :
    isLeap year = true ↔ year % 4 = 0 ∧ (year % 100 ≠ 0 ∨ year % 400 = 0) := by
  simp [isLeap]

theorem daysBefore_succ (y : Int) :
    daysBefore (y + 1) = daysBefore y + 365 + if isLeap (y + 1) then 1 else 0 := by
  simp only [isLeap_iff, daysBefore]
  split_ifs <;> omega

theorem daysIn_le (year : Int) (month : Nat) : daysIn year month ≤ 31 := by
  unfold daysIn
  split_ifs <;> decide

namespace Date

/-! ### Dates -/

/-- The year that a date lies in, if years begin in March. -/
def marchYear (d : Date) : Int := if d.month ≤ 2 then d.year - 1 else d.year

/-- The number of months since March. -/
def monthFromMarch (d : Date) : Nat := if d.month ≤ 2 then d.month + 9 else d.month - 3

/-- The number of days since 1 March. -/
def dayOfYear (d : Date) : Nat := (153 * d.monthFromMarch + 2) / 5 + d.day - 1

theorem dayNumber_eq (d : Date) :
    d.dayNumber = daysBefore d.marchYear + d.dayOfYear - 719468 := by
  change d.marchYear / 400 * 146097 + (d.marchYear % 400 * 365 + d.marchYear % 400 / 4 -
    d.marchYear % 400 / 100 + (d.dayOfYear : Int)) - 719468 = _
  rw [← daysBefore_eq]
  omega

theorem dayOfYear_lt (d : Date) :
    (d.dayOfYear : Int) < daysBefore (d.marchYear + 1) - daysBefore d.marchYear := by
  obtain ⟨year, month, day, -, ⟨hfirst, hlast⟩, hday⟩ := d
  rw [daysBefore_succ]
  simp only [dayOfYear, monthFromMarch, marchYear]
  by_cases hmonth : month = 2
  · subst hmonth
    simp only [daysIn, if_true] at hday
    simp only [Nat.le_refl, if_true, sub_add_cancel]
    split_ifs at hday ⊢ <;> omega
  · have hlength : day ≤ 31 := hday.2.trans (daysIn_le year month)
    split_ifs <;> omega

theorem monthFromMarch_lt (d : Date) : d.monthFromMarch < 12 := by
  obtain ⟨hfirst, hlast⟩ := d.month_range
  unfold monthFromMarch
  split_ifs <;> omega

/-- The place of the month among all months. -/
def monthNumber (d : Date) : Int := d.year * 12 + d.month

theorem monthNumber_eq (d : Date) : d.monthNumber = d.marchYear * 12 + d.monthFromMarch + 3 := by
  obtain ⟨hfirst, -⟩ := d.month_range
  unfold monthNumber marchYear monthFromMarch
  split_ifs <;> omega

/-- The days of a month end before those of a later month of its year begin. -/
theorem day_le (d : Date) (h : d.monthFromMarch < 11) :
    (153 * d.monthFromMarch + 2) / 5 + d.day ≤ (153 * (d.monthFromMarch + 1) + 2) / 5 := by
  obtain ⟨hfirst, hlast⟩ := d.month_range
  have hday := d.day_range.2
  unfold monthFromMarch at h ⊢
  unfold daysIn at hday
  generalize d.month = month at hfirst hlast hday h ⊢
  split_ifs at hday h ⊢ <;> interval_cases month <;> omega

/-- **Dates are numbered in the order of year, month and day.** -/
theorem dayNumber_lt {d e : Date}
    (h : d.monthNumber < e.monthNumber ∨ d.monthNumber = e.monthNumber ∧ d.day < e.day) :
    d.dayNumber < e.dayNumber := by
  have hd := d.dayOfYear_lt
  rw [dayNumber_eq, dayNumber_eq]
  rw [monthNumber_eq, monthNumber_eq] at h
  have hmonths : d.monthFromMarch < 12 ∧ e.monthFromMarch < 12 :=
    ⟨d.monthFromMarch_lt, e.monthFromMarch_lt⟩
  by_cases hyear : d.marchYear < e.marchYear
  · -- the year of the one ends before that of the other begins
    have hmono := daysBefore_mono (Int.add_one_le_of_lt hyear)
    omega
  · have hsame : d.marchYear = e.marchYear := by omega
    have hdoy : d.dayOfYear < e.dayOfYear := by
      have hpos := e.day_range.1
      have hpos' := d.day_range.1
      by_cases hmonth : d.monthFromMarch < e.monthFromMarch
      · have := d.day_le (by omega)
        unfold dayOfYear
        omega
      · have : d.monthFromMarch = e.monthFromMarch := by omega
        unfold dayOfYear
        rw [this]
        omega
    rw [hsame]
    omega

theorem eq_of_monthNumber {d e : Date} (h : d.monthNumber = e.monthNumber)
    (hday : d.day = e.day) : d = e := by
  obtain ⟨year, month, day, hy, hm, hd⟩ := d
  obtain ⟨year', month', day', hy', hm', hd'⟩ := e
  simp only [monthNumber] at h
  obtain rfl : year = year' := by omega
  obtain rfl : month = month' := by omega
  obtain rfl : day = day' := hday
  rfl

theorem of_ofYmd? {year : Int} {month day : Nat} {d : Date}
    (h : ofYmd? year month day = some d) : d.year = year ∧ d.month = month ∧ d.day = day := by
  unfold ofYmd? at h
  split_ifs at h
  cases h
  exact ⟨rfl, rfl, rfl⟩

/-- **The date of a number has the number.** -/
theorem dayNumber_ofDayNumber? {n : Int} {d : Date} (h : ofDayNumber? n = some d) :
    d.dayNumber = n := by
  let era := (n + 719468) / 146097
  let dayOfEra := ((n + 719468) % 146097).toNat
  let year := yearOfEra dayOfEra
  let day := dayOfEra - daysOfEra year
  let month := (5 * day + 2) / 153
  have hn : n = era * 146097 + dayOfEra - 719468 := by omega
  obtain ⟨hyear, hlo, hhi⟩ : year < 400 ∧ daysOfEra year ≤ dayOfEra ∧
      dayOfEra ≤ daysOfEra year + 365 := yearOfEra_bounds (by omega)
  have hday : dayOfEra = daysOfEra year + day := by omega
  have hmonth : month = (5 * day + 2) / 153 := rfl
  obtain ⟨hdyear, hdmonth, hdday⟩ : d.year = year + era * 400 +
        (if (if month < 10 then month + 3 else month - 9) ≤ 2 then 1 else 0) ∧
      d.month = (if month < 10 then month + 3 else month - 9) ∧
      d.day = day - (153 * month + 2) / 5 + 1 := of_ofYmd? h
  clear_value month day year dayOfEra era
  have hmarch : d.marchYear = year + era * 400 := by
    rw [marchYear, hdyear, hdmonth]
    split_ifs <;> omega
  have hfrom : d.monthFromMarch = month := by
    rw [monthFromMarch, hdmonth]
    split_ifs <;> omega
  have hdays : d.dayOfYear = day := by
    rw [dayOfYear, hfrom, hdday]
    omega
  have hquotient : (year + era * 400 : Int) / 400 = era := by omega
  have hremainder : (year + era * 400 : Int) % 400 = year := by omega
  rw [dayNumber_eq, ← daysBefore_eq, hmarch, hdays, hquotient, hremainder, hn, hday]
  unfold daysOfEra
  omega

end Date

end Calendar

end BoundSql
