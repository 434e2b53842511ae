/-! # Days of the Gregorian calendar

The proleptic calendar, with its days counted from 1 January 1970 and its months
from 0. A year, a month and a day may be given beyond their ranges. -/
namespace RetailPrintGuard.Library.CivilDays

structure CivilDate where
  year : Int
  month : Int
  day : Int
deriving DecidableEq, Repr

/-- The first day of a year. -/
def dayFromYear (year : Int) : Int :=
  365 * (year - 1970) + (year - 1969) / 4 - (year - 1901) / 100 + (year - 1601) / 400

def leap (year : Int) : Bool := year % 4 == 0 && (year % 100 != 0 || year % 400 == 0)

def leapDay (year : Int) : Int := if leap year then 1 else 0

/-- The year of a day: one of the three around the average. -/
def yearFromDay (day : Int) : Int :=
  let year := 1970 + 400 * day / 146097
  if dayFromYear (year + 1) ≤ day then year + 1 else if day < dayFromYear year then year - 1 else year

/-- The days of a year before a month. -/
def daysBefore (leapDay month : Int) : Int :=
  if month ≤ 0 then 0
  else if month = 1 then 31
  else leapDay +
    (if month = 2 then 59
    else if month = 3 then 90
    else if month = 4 then 120
    else if month = 5 then 151
    else if month = 6 then 181
    else if month = 7 then 212
    else if month = 8 then 243
    else if month = 9 then 273
    else if month = 10 then 304
    else 334)

/-- The month of a day of a year. -/
def monthWithin (leapDay day : Int) : Int :=
  if day < 31 then 0
  else if day < 59 + leapDay then 1
  else if day < 90 + leapDay then 2
  else if day < 120 + leapDay then 3
  else if day < 151 + leapDay then 4
  else if day < 181 + leapDay then 5
  else if day < 212 + leapDay then 6
  else if day < 243 + leapDay then 7
  else if day < 273 + leapDay then 8
  else if day < 304 + leapDay then 9
  else if day < 334 + leapDay then 10
  else 11

def civil (day : Int) : CivilDate :=
  let year := yearFromDay day
  let within := day - dayFromYear year
  let month := monthWithin (leapDay year) within
  { year, month, day := within - daysBefore (leapDay year) month + 1 }

/-- The day of a date; a month beyond the year is one of another year. -/
def makeDay (year month day : Int) : Int :=
  let y := year + month / 12
  dayFromYear y + daysBefore (leapDay y) (month % 12) + day - 1

/-! ## Years -/

variable {year day k : Int}

theorem leapDay_cases (year : Int) : leapDay year = 0 ∨ leapDay year = 1 := by
  unfold leapDay
  split
  · exact .inr rfl
  · exact .inl rfl

theorem dayFromYear_succ (year : Int) :
    dayFromYear (year + 1) = dayFromYear year + 365 + leapDay year := by
  unfold dayFromYear leapDay leap
  simp only [Bool.and_eq_true, Bool.or_eq_true, beq_iff_eq, bne_iff_ne]
  split <;> omega

theorem yearFromDay_spec (day : Int) :
    dayFromYear (yearFromDay day) ≤ day ∧ day < dayFromYear (yearFromDay day + 1) := by
  have hyear : ∃ year, 146097 * (year - 1970) ≤ 400 * day ∧ 400 * day < 146097 * (year - 1969) ∧
      1970 + 400 * day / 146097 = year := ⟨_, by omega, by omega, rfl⟩
  obtain ⟨year, hlower, hupper, heq⟩ := hyear
  unfold yearFromDay
  rw [heq]
  dsimp only
  split
  · next hnext =>
    refine ⟨hnext, ?_⟩
    unfold dayFromYear at *
    omega
  · split
    · next hnext hthis =>
      rw [Int.sub_add_cancel]
      refine ⟨?_, hthis⟩
      unfold dayFromYear at *
      omega
    · next hnext hthis => exact ⟨Int.not_lt.mp hthis, Int.not_le.mp hnext⟩

theorem dayFromYear_mono {year year' : Int} (h : year ≤ year') :
    dayFromYear year ≤ dayFromYear year' := by
  unfold dayFromYear
  omega

/-- A year begins no later than its days. -/
theorem le_year_iff : year ≤ (civil day).year ↔ dayFromYear year ≤ day := by
  obtain ⟨hlower, hupper⟩ := yearFromDay_spec day
  constructor
  · exact fun h => Int.le_trans (dayFromYear_mono h) hlower
  · intro h
    refine Int.not_lt.mp fun hlt => ?_
    have hle := dayFromYear_mono (Int.add_one_le_of_lt hlt)
    exact absurd (Int.lt_of_le_of_lt h hupper) (Int.not_lt.mpr hle)

/-! ## Dates and back -/

theorem daysBefore_monthWithin {leapDay : Int} (hleap : leapDay = 0 ∨ leapDay = 1)
    (hlower : 0 ≤ day) (hupper : day < 365 + leapDay) :
    0 ≤ monthWithin leapDay day ∧ monthWithin leapDay day ≤ 11 ∧
      daysBefore leapDay (monthWithin leapDay day) ≤ day ∧
      day < daysBefore leapDay (monthWithin leapDay day) + 31 := by
  obtain ⟨month, hmonth⟩ : ∃ month, monthWithin leapDay day = month := ⟨_, rfl⟩
  rw [hmonth]
  unfold monthWithin at hmonth
  unfold daysBefore
  omega

theorem civil_ranges (day : Int) : 0 ≤ (civil day).month ∧ (civil day).month ≤ 11 ∧
    1 ≤ (civil day).day ∧ (civil day).day ≤ 31 := by
  obtain ⟨hlower, hupper⟩ := yearFromDay_spec day
  rw [dayFromYear_succ] at hupper
  obtain ⟨hfirst, hlast, hbefore, hbehind⟩ := daysBefore_monthWithin
    (leapDay_cases (yearFromDay day)) (Int.sub_nonneg_of_le hlower)
    (show day - dayFromYear (yearFromDay day) < _ by omega)
  refine ⟨hfirst, hlast, ?_, ?_⟩
  · show 1 ≤ day - dayFromYear (yearFromDay day) - daysBefore _ _ + 1
    omega
  · show day - dayFromYear (yearFromDay day) - daysBefore _ _ + 1 ≤ 31
    omega

theorem makeDay_add (year month day k : Int) : makeDay year month (day + k) = makeDay year month day + k := by
  simp only [makeDay]
  omega

/-- The date of a day names it. -/
theorem makeDay_civil (day : Int) :
    makeDay (civil day).year (civil day).month (civil day).day = day := by
  obtain ⟨hfirst, hlast, -, -⟩ := civil_ranges day
  have hyear : (civil day).year + (civil day).month / 12 = (civil day).year := by omega
  have hmonth : (civil day).month % 12 = (civil day).month := by omega
  have hday : (civil day).day = day - dayFromYear (civil day).year -
      daysBefore (leapDay (civil day).year) (civil day).month + 1 := rfl
  simp only [makeDay, hyear, hmonth]
  omega

theorem civil_injective {day day' : Int} (h : civil day = civil day') : day = day' := by
  rw [← makeDay_civil day, h, makeDay_civil]

/-- A date of a year lies in it, or later. -/
theorem dayFromYear_le_makeDay {month : Int} (hmonth : 0 ≤ month) (hday : 1 ≤ day) :
    dayFromYear year ≤ makeDay year month day := by
  have hyear : dayFromYear year ≤ dayFromYear (year + month / 12) :=
    dayFromYear_mono (by omega)
  have hbefore : 0 ≤ daysBefore (leapDay (year + month / 12)) (month % 12) := by
    have hleap := leapDay_cases (year + month / 12)
    unfold daysBefore
    omega
  simp only [makeDay]
  omega

example : civil 19782 = ⟨2024, 1, 29⟩ ∧ makeDay 2024 1 29 = 19782 := by decide

end RetailPrintGuard.Library.CivilDays
