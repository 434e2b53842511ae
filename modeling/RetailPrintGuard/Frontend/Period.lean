import RetailPrintGuard.Library.Checks
import RetailPrintGuard.Library.CivilDays

/-! # Period filters in Rome time

Instants are milliseconds since 1970, the time values of a `Date`, and stand for
the texts `toISOString` writes. -/
namespace RetailPrintGuard.Frontend.Period
open RetailPrintGuard.Library.Checks RetailPrintGuard.Library.CivilDays

abbrev Text := List Char

/-! ## Dates -/

def minuteMs : Int := 60000

def hourMs : Int := 3600000

def dayMs : Int := 86400000

/-- The largest time value of a `Date`: a hundred million days. -/
def maxTime : Int := 100000000 * dayMs

/-- A time value; `none` is `NaN`. -/
abbrev Time := Option Int

/-- `new Date(time)`: a time beyond the range is invalid. -/
def newDate (time : Time) : Time := time.filter fun t => -maxTime ≤ t && t ≤ maxTime

/-- The years 0 to 99 of `Date.UTC` are those of the twentieth century. -/
def fullYear (year : Int) : Int := if 0 ≤ year ∧ year ≤ 99 then 1900 + year else year

/-- `Date.UTC(year, month, day, hour, minute)` -/
def dateUTC (year month day hour minute : Int) : Time :=
  newDate (some (makeDay (fullYear year) month day * dayMs + hour * hourMs + minute * minuteMs))

def invalidTime : String := "Invalid time value"

/-- `date.toISOString()`, as the instant it names -/
def toISOString : Time → Except String Int
  | none => .error invalidTime
  | some time => .ok time

/-! ## The clock of Rome -/

/-- The offset of Rome in minutes at every instant. -/
structure Zone where
  offset : Int → Int
  hours : ∀ t, offset t = 60 ∨ offset t = 120
  changes : ∀ t, offset t ≠ offset (t - 1) → t % dayMs = hourMs

structure CalendarParts where
  year : Int
  month : Int
  day : Int
  hour : Int
  minute : Int
deriving DecidableEq

/-- The clock of Rome at an instant, as if it were the one of UTC. -/
def Zone.clock (zone : Zone) (t : Int) : Int := t + zone.offset t * minuteMs

/-- The year a formatter without an era prints. -/
def printedYear (year : Int) : Int := if 1 ≤ year then year else 1 - year

def shown (zone : Zone) (t : Int) : CalendarParts :=
  let date := civil (zone.clock t / dayMs)
  { year := printedYear date.year, month := date.month + 1, day := date.day,
    hour := zone.clock t % dayMs / hourMs, minute := zone.clock t % hourMs / minuteMs }

/-- `parts(value)`: an invalid date is not formatted. -/
def parts (zone : Zone) : Time → Except String CalendarParts
  | none => .error invalidTime
  | some t => .ok (shown zone t)

def CalendarParts.utc (value : CalendarParts) : Time :=
  dateUTC value.year (value.month - 1) value.day value.hour value.minute

/-- `shifted(value, days)`; `none` has `NaN` parts. -/
def shifted (value : CalendarParts) (days : Int) : Option CalendarParts :=
  (dateUTC value.year (value.month - 1) (value.day + days) 0 0).map fun date =>
    let date := civil (date / dayMs)
    { year := date.year, month := date.month + 1, day := date.day,
      hour := value.hour, minute := value.minute }

/-- One pass of the loop in `zonedToUtc`. -/
def pass (zone : Zone) (wallClock candidate : Time) : Except String Time := do
  let observed ← parts zone (newDate candidate)
  let observedClock := observed.utc
  return do return (← candidate) - ((← observedClock) - (← wallClock))

def zonedToUtc (zone : Zone) (value : Option CalendarParts) : Except String Time := do
  let wallClock := value.bind CalendarParts.utc
  let candidate ← pass zone wallClock wallClock
  let candidate ← pass zone wallClock candidate
  return newDate candidate

/-! ## Periods -/

inductive Preset where
  | today
  | yesterday
  | week
deriving DecidableEq

/-- An instant a `Date` holds. -/
structure Instant where
  time : Int
  valid : -maxTime ≤ time ∧ time ≤ maxTime

/-- The result of `presetPeriod`, the end excluded. -/
structure Bounds where
  fromInstant : Int
  toInstant : Int
deriving DecidableEq

def Preset.start (today : CalendarParts) : Preset → Option CalendarParts
  | .today => some today
  | .yesterday => shifted today (-1)
  | .week => shifted today (-6)

def Preset.stop (today : CalendarParts) : Preset → Option CalendarParts
  | .yesterday => some today
  | .today | .week => shifted today 1

def midnight (zone : Zone) (now : Instant) : CalendarParts :=
  { shown zone now.time with hour := 0, minute := 0 }

def presetPeriod (zone : Zone) (preset : Preset) (now : Instant) : Except String Bounds := do
  let today := midnight zone now
  let fromInstant ← toISOString (← zonedToUtc zone (preset.start today))
  let toInstant ← toISOString (← zonedToUtc zone (preset.stop today))
  return { fromInstant, toInstant }

/-! ## What the filters promise -/

/-- The day of the Rome calendar, counted from 1970. -/
def romeDay (zone : Zone) (t : Int) : Int := zone.clock t / dayMs

def romeDate (zone : Zone) (t : Int) : CivilDate := civil (romeDay zone t)

/-- The first and the last day of a preset, counted from today. -/
def Preset.first : Preset → Int
  | .today => 0
  | .yesterday => -1
  | .week => -6

def Preset.last : Preset → Int
  | .today | .week => 0
  | .yesterday => -1

/-- The date is one of the days of the preset. -/
def InPreset (zone : Zone) (preset : Preset) (now : Instant) (date : CivilDate) : Prop :=
  ∃ k, preset.first ≤ k ∧ k ≤ preset.last ∧ date = civil (romeDay zone now.time + k)

/-- The period is made of the instants on the days of the preset. -/
def Covers (zone : Zone) (preset : Preset) (now : Instant) : Prop :=
  ∃ period, presetPeriod zone preset now = .ok period ∧
    ∀ t, period.fromInstant ≤ t ∧ t < period.toInstant ↔ InPreset zone preset now (romeDate zone t)

/-! ## The clock between two changes -/

variable {zone : Zone} {s t wallClock : Int}

/-- The offset stays from one hour after midnight of UTC to the next. -/
theorem Zone.offset_eq (zone : Zone) (h : (s - hourMs) / dayMs = (t - hourMs) / dayMs) :
    zone.offset s = zone.offset t := by
  have hstays : ∀ (s : Int) (n : Nat), (s - hourMs) / dayMs = (s + n - hourMs) / dayMs →
      zone.offset (s + n) = zone.offset s := by
    intro s n hday
    induction n with
    | zero => rw [Int.natCast_zero, Int.add_zero]
    | succ n ih =>
      have hbefore : zone.offset (s + n) = zone.offset s := by
        apply ih
        simp only [hourMs, dayMs] at hday ⊢
        omega
      rw [← hbefore]
      refine Decidable.byContradiction fun hchange => ?_
      have hnext : s + (n + 1 : Nat) - 1 = s + n := by omega
      have hhour := zone.changes (s + (n + 1 : Nat)) (by rwa [hnext])
      simp only [hourMs, dayMs] at hday hhour
      omega
  rcases Int.le_total s t with hle | hle
  · obtain ⟨n, rfl⟩ := Int.le.dest hle
    exact (hstays s n h).symm
  · obtain ⟨n, rfl⟩ := Int.le.dest hle
    exact hstays t n h.symm

/-- The instant two passes settle on. -/
def resolved (zone : Zone) (wallClock : Int) : Int :=
  wallClock - zone.offset (wallClock - zone.offset wallClock * minuteMs) * minuteMs

/-- **Two passes resolve the clock of an instant**, near a change and away from it. -/
theorem clock_resolved (h : zone.clock t = wallClock) :
    zone.clock (resolved zone wallClock) = wallClock := by
  have hnext : ∀ a b, (a - hourMs) / dayMs = (b - hourMs) / dayMs → zone.offset a = zone.offset b :=
    fun a b => zone.offset_eq
  unfold Zone.clock resolved at *
  subst h
  generalize hw : t + zone.offset t * minuteMs = w
  generalize hc : w - zone.offset w * minuteMs = c
  generalize hr : w - zone.offset c * minuteMs = r
  have htw := hnext t w
  have htc := hnext t c
  have htr := hnext t r
  have hwc := hnext w c
  have hwr := hnext w r
  have hcr := hnext c r
  have ht := zone.hours t
  have hw' := zone.hours w
  have hc' := zone.hours c
  have hr' := zone.hours r
  simp only [minuteMs, hourMs, dayMs] at *
  omega

/-! ## Wall clocks as instants -/

variable {value : CalendarParts} {day : Int}

theorem newDate_some : newDate (some t) = if -maxTime ≤ t ∧ t ≤ maxTime then some t else none := by
  simp [newDate, Option.filter_some]

theorem newDate_of_le (hlower : -maxTime ≤ t) (hupper : t ≤ maxTime) : newDate (some t) = some t := by
  rw [newDate_some, if_pos ⟨hlower, hupper⟩]

theorem newDate_of_lt (h : maxTime < t) : newDate (some t) = none := by
  rw [newDate_some, if_neg fun hvalid => Int.not_le.mpr h hvalid.2]

/-- The first day whose year `Date.UTC` takes as it is. -/
def firstFullDay : Int := dayFromYear 100

example : firstFullDay = -683003 := by decide

theorem fullYear_of_le {year : Int} (h : 100 ≤ year) : fullYear year = year := by
  unfold fullYear
  omega

theorem le_fullYear {year : Int} (h : 0 ≤ year) : 100 ≤ fullYear year := by
  unfold fullYear
  omega

/-- The parts shown at an instant name its clock again, from the year 100 on. -/
theorem utc_shown (hfirst : firstFullDay * dayMs ≤ zone.clock t) (hminute : zone.clock t % minuteMs = 0) :
    (shown zone t).utc = newDate (some (zone.clock t)) := by
  have hyear : 100 ≤ (civil (zone.clock t / dayMs)).year := by
    rw [le_year_iff]
    show firstFullDay ≤ _
    simp only [dayMs] at *
    omega
  have hprinted : printedYear (civil (zone.clock t / dayMs)).year =
      (civil (zone.clock t / dayMs)).year := by
    unfold printedYear
    omega
  unfold CalendarParts.utc dateUTC shown
  simp only
  rw [hprinted, fullYear_of_le hyear, Int.add_sub_cancel, makeDay_civil]
  congr 2
  simp only [dayMs, hourMs, minuteMs] at *
  omega

/-- A pass moves a candidate by the offset it shows. -/
theorem pass_eq (hlower : -maxTime ≤ t) (hfirst : firstFullDay * dayMs ≤ zone.clock t)
    (hminute : t % minuteMs = 0) (hupper : zone.clock t ≤ maxTime) :
    pass zone (some wallClock) (some t) =
      .ok (some (wallClock - zone.offset t * minuteMs)) := by
  have hclock : zone.clock t % minuteMs = 0 := by
    simp only [Zone.clock, minuteMs] at *
    omega
  have hvalid : t ≤ maxTime ∧ -maxTime ≤ zone.clock t := by
    have hhours := zone.hours t
    simp only [Zone.clock, minuteMs] at *
    omega
  have hobserved : (shown zone t).utc = some (zone.clock t) := by
    rw [utc_shown hfirst hclock, newDate_of_le hvalid.2 hupper]
  unfold pass
  rw [newDate_of_le hlower hvalid.1]
  simp only [parts, ok_bind, hobserved]
  show Except.ok (some (t - (zone.clock t - wallClock))) = _
  congr 2
  simp only [Zone.clock]
  omega

theorem zonedToUtc_eq (hutc : value.utc = some wallClock) (hminute : wallClock % minuteMs = 0)
    (hfirst : firstFullDay * dayMs ≤ zone.clock (wallClock - zone.offset wallClock * minuteMs))
    (hlast : zone.clock wallClock ≤ maxTime) :
    zonedToUtc zone (some value) = .ok (some (resolved zone wallClock)) := by
  have hw := zone.hours wallClock
  have hc := zone.hours (wallClock - zone.offset wallClock * minuteMs)
  have hfirstFullDay : firstFullDay = -683003 := by decide
  simp only [zonedToUtc, Option.bind_some, hutc]
  rw [pass_eq, ok_bind, pass_eq, ok_bind]
  · rw [newDate_of_le]
    · rfl
    all_goals
      simp only [Zone.clock, minuteMs, maxTime, dayMs] at *
      omega
  all_goals
    simp only [Zone.clock, minuteMs, maxTime, dayMs] at *
    omega

/-- A wall clock that is shown beyond the range of a `Date` has no instant. -/
theorem zonedToUtc_late (hutc : value.utc = newDate (some wallClock))
    (hlate : maxTime < zone.clock wallClock) (hminute : wallClock % minuteMs = 0) :
    zonedToUtc zone (some value) = .error invalidTime := by
  simp only [zonedToUtc, Option.bind_some, hutc]
  by_cases hvalid : wallClock ≤ maxTime
  · have hhours := zone.hours wallClock
    have hlower : -maxTime ≤ wallClock := by
      simp only [Zone.clock, minuteMs, maxTime, dayMs] at *
      omega
    have hobserved : (shown zone wallClock).utc = none := by
      rw [utc_shown, newDate_of_lt hlate]
      · have hfirstFullDay : firstFullDay = -683003 := by decide
        simp only [maxTime, dayMs] at *
        omega
      · simp only [Zone.clock, minuteMs] at *
        omega
    have hdate := newDate_of_le hlower hvalid
    simp only [pass, hdate, parts, ok_bind, hobserved]
    rfl
  · rw [newDate_of_lt (Int.not_le.mp hvalid)]
    rfl

/-! ## Midnights -/

/-- The instant a day begins at. -/
def dayStart (zone : Zone) (day : Int) : Int := day * dayMs - zone.offset (day * dayMs) * minuteMs

/-- No change of the clock is near a midnight. -/
theorem resolved_midnight (zone : Zone) (day : Int) :
    zone.offset (day * dayMs - zone.offset (day * dayMs) * minuteMs) = zone.offset (day * dayMs) := by
  have hhours := zone.hours (day * dayMs)
  apply zone.offset_eq
  simp only [minuteMs, hourMs, dayMs] at *
  omega

/-- The instants of the days from one on are those from its beginning on. -/
theorem dayStart_le_iff : dayStart zone day ≤ t ↔ day ≤ romeDay zone t := by
  have hnear := @Zone.offset_eq t (day * dayMs) zone
  have ht := zone.hours t
  have hday := zone.hours (day * dayMs)
  simp only [dayStart, romeDay, Zone.clock, minuteMs, hourMs, dayMs] at *
  omega

theorem zonedToUtc_midnight (hutc : value.utc = newDate (some (day * dayMs)))
    (hfirst : firstFullDay ≤ day) :
    zonedToUtc zone (some value) =
      if day < 100000000 then .ok (some (dayStart zone day)) else .error invalidTime := by
  have hhours := zone.hours (day * dayMs)
  have hfirstFullDay : firstFullDay = -683003 := by decide
  have hminute : day * dayMs % minuteMs = 0 := by
    simp only [minuteMs, dayMs]
    omega
  split
  · next hlast =>
    have hclock : zone.clock (day * dayMs - zone.offset (day * dayMs) * minuteMs) = day * dayMs := by
      rw [Zone.clock, resolved_midnight]
      omega
    rw [newDate_of_le] at hutc
    · rw [zonedToUtc_eq hutc hminute, resolved, resolved_midnight, dayStart]
      · rw [hclock]
        exact Int.mul_le_mul_of_nonneg_right hfirst (by decide)
      · simp only [Zone.clock, minuteMs, maxTime, dayMs] at *
        omega
    all_goals
      simp only [maxTime, dayMs] at *
      omega
  · next hlast =>
    apply zonedToUtc_late hutc ?_ hminute
    simp only [Zone.clock, minuteMs, maxTime, dayMs] at *
    omega

/-- The midnight parts of a day. -/
def dayParts (day : Int) : CalendarParts :=
  { year := (civil day).year, month := (civil day).month + 1, day := (civil day).day,
    hour := 0, minute := 0 }

/-- The day `Date.UTC` reads midnight parts as. -/
def utcDay (value : CalendarParts) : Int :=
  makeDay (fullYear value.year) (value.month - 1) value.day

theorem utc_of_midnight (hhour : value.hour = 0) (hminute : value.minute = 0) :
    value.utc = newDate (some (utcDay value * dayMs)) := by
  unfold CalendarParts.utc dateUTC utcDay
  rw [hhour, hminute]
  congr 2
  omega

theorem utcDay_dayParts (h : firstFullDay ≤ day) : utcDay (dayParts day) = day := by
  have hyear : 100 ≤ (civil day).year := le_year_iff.mpr h
  show makeDay (fullYear (civil day).year) ((civil day).month + 1 - 1) (civil day).day = day
  rw [fullYear_of_le hyear, Int.add_sub_cancel, makeDay_civil]

theorem shifted_eq (hhour : value.hour = 0) (hminute : value.minute = 0) (days : Int) :
    shifted value days = (newDate (some ((utcDay value + days) * dayMs))).map
      fun _ => dayParts (utcDay value + days) := by
  unfold shifted dateUTC
  rw [makeDay_add, Int.zero_mul, Int.zero_mul, Int.add_zero, Int.add_zero]
  show Option.map _ (newDate (some ((utcDay value + days) * dayMs))) = _
  rw [newDate_some]
  split
  · rw [Option.map_some, Option.map_some, dayParts, hhour, hminute,
      Int.mul_ediv_cancel _ (by decide)]
  · rfl

/-- A day as a `Date` holds it. -/
def dayAt (day : Int) : Option CalendarParts :=
  (newDate (some (day * dayMs))).map fun _ => dayParts day

theorem zonedToUtc_dayAt (hfirst : firstFullDay ≤ day) : zonedToUtc zone (dayAt day) =
    if day < 100000000 then .ok (some (dayStart zone day)) else .error invalidTime := by
  unfold dayAt
  cases hdate : newDate (some (day * dayMs)) with
  | some date =>
    rw [Option.map_some]
    refine zonedToUtc_midnight ?_ hfirst
    rw [utc_of_midnight rfl rfl, utcDay_dayParts hfirst]
  | none =>
    rw [if_neg fun hlast => ?_]
    · rfl
    · rw [newDate_of_le] at hdate
      · cases hdate
      all_goals
        have hfirstFullDay : firstFullDay = -683003 := by decide
        simp only [maxTime, dayMs] at *
        omega

/-! ## Presets -/

variable {preset : Preset} {now : Instant} {bounds : Bounds}

theorem toISOString_eq_ok {time : Time} : toISOString time = .ok t ↔ time = some t := by
  cases time with
  | none => simp [toISOString]
  | some time => simp [toISOString]

theorem presetPeriod_eq_ok : presetPeriod zone preset now = .ok bounds ↔
    zonedToUtc zone (preset.start (midnight zone now)) = .ok (some bounds.fromInstant) ∧
      zonedToUtc zone (preset.stop (midnight zone now)) = .ok (some bounds.toInstant) := by
  simp only [presetPeriod, bind_eq_ok, pure_eq_ok, toISOString_eq_ok]
  constructor
  · rintro ⟨_, hfrom, fromInstant, rfl, _, hto, toInstant, rfl, rfl⟩
    exact ⟨hfrom, hto⟩
  · rintro ⟨hfrom, hto⟩
    exact ⟨_, hfrom, _, rfl, _, hto, _, rfl, rfl⟩

theorem romeDay_le (zone : Zone) (now : Instant) : romeDay zone now.time ≤ 100000000 := by
  have hhours := zone.hours now.time
  have hvalid := now.valid
  simp only [romeDay, Zone.clock, minuteMs, maxTime, dayMs] at *
  omega

/-- The day of the parts, from the year 100 on. -/
theorem midnight_eq (hfirst : firstFullDay ≤ romeDay zone now.time) :
    midnight zone now = dayParts (romeDay zone now.time) := by
  have hyear : 100 ≤ (civil (romeDay zone now.time)).year := le_year_iff.mpr hfirst
  have hprinted : printedYear (civil (zone.clock now.time / dayMs)).year =
      (civil (romeDay zone now.time)).year := by
    show printedYear (civil (romeDay zone now.time)).year = _
    unfold printedYear
    omega
  unfold midnight shown
  simp only [hprinted]
  rfl

theorem dayAt_today (hfirst : firstFullDay ≤ romeDay zone now.time) :
    some (dayParts (romeDay zone now.time)) = dayAt (romeDay zone now.time) := by
  have hlast := romeDay_le zone now
  have hfirstFullDay : firstFullDay = -683003 := by decide
  unfold dayAt
  rw [newDate_of_le]
  · rfl
  all_goals
    simp only [maxTime, dayMs] at *
    omega

theorem shifted_dayParts (hfirst : firstFullDay ≤ day) (days : Int) :
    shifted (dayParts day) days = dayAt (day + days) := by
  rw [shifted_eq rfl rfl, utcDay_dayParts hfirst]
  rfl

theorem start_eq (hfirst : firstFullDay ≤ romeDay zone now.time) :
    preset.start (midnight zone now) = dayAt (romeDay zone now.time + preset.first) := by
  rw [midnight_eq hfirst]
  cases preset with
  | today =>
    show some _ = dayAt (romeDay zone now.time + 0)
    rw [Int.add_zero, dayAt_today hfirst]
  | yesterday => exact shifted_dayParts hfirst (-1)
  | week => exact shifted_dayParts hfirst (-6)

theorem stop_eq (hfirst : firstFullDay ≤ romeDay zone now.time) :
    preset.stop (midnight zone now) = dayAt (romeDay zone now.time + preset.last + 1) := by
  rw [midnight_eq hfirst, Int.add_assoc]
  cases preset with
  | today => exact shifted_dayParts hfirst 1
  | yesterday =>
    show some _ = dayAt (romeDay zone now.time + 0)
    rw [Int.add_zero, dayAt_today hfirst]
  | week => exact shifted_dayParts hfirst 1

theorem le_utcDay (hyear : 0 ≤ value.year) (hmonth : 1 ≤ value.month) (hday : 1 ≤ value.day) :
    firstFullDay ≤ utcDay value :=
  Int.le_trans (dayFromYear_mono (le_fullYear hyear)) (dayFromYear_le_makeDay (by omega) hday)

theorem le_utcDay_midnight : firstFullDay ≤ utcDay (midnight zone now) := by
  obtain ⟨hmonth, -, hday, -⟩ := civil_ranges (zone.clock now.time / dayMs)
  refine le_utcDay ?_ ?_ hday
  · show 0 ≤ printedYear _
    unfold printedYear
    omega
  · show 1 ≤ (civil _).month + 1
    omega

/-- Whatever the year is, a period begins no earlier than the year 100. -/
theorem le_fromInstant (h : presetPeriod zone preset now = .ok bounds) :
    firstFullDay * dayMs - 2 * hourMs ≤ bounds.fromInstant := by
  have hmidnight : ∀ value : CalendarParts, value.hour = 0 → value.minute = 0 →
      firstFullDay ≤ utcDay value → zonedToUtc zone (some value) = .ok (some bounds.fromInstant) →
      firstFullDay * dayMs - 2 * hourMs ≤ bounds.fromInstant := by
    intro value hhour hminute hfirst hstart
    have hhours := zone.hours (utcDay value * dayMs)
    rw [zonedToUtc_midnight (utc_of_midnight hhour hminute) hfirst] at hstart
    split at hstart
    · rw [← Option.some.inj (Except.ok.inj hstart)]
      simp only [dayStart, minuteMs, hourMs, dayMs] at *
      omega
    · cases hstart
  have hshifted : ∀ days, -6 ≤ days →
      zonedToUtc zone (shifted (midnight zone now) days) = .ok (some bounds.fromInstant) →
      firstFullDay * dayMs - 2 * hourMs ≤ bounds.fromInstant := by
    intro days hdays hstart
    rw [shifted_eq rfl rfl] at hstart
    cases hdate : newDate (some ((utcDay (midnight zone now) + days) * dayMs)) with
    | none =>
      rw [hdate] at hstart
      cases hstart
    | some date =>
      rw [hdate, Option.map_some] at hstart
      obtain ⟨hmonth, -, hday, -⟩ := civil_ranges (utcDay (midnight zone now) + days)
      have hfirst := @le_utcDay_midnight zone now
      have hyear : 99 ≤ (civil (utcDay (midnight zone now) + days)).year := by
        have hfirstFullDay : firstFullDay = dayFromYear 99 + 365 := by decide
        rw [le_year_iff]
        omega
      refine hmidnight _ rfl rfl (le_utcDay ?_ ?_ hday) hstart
      · show 0 ≤ (civil _).year
        omega
      · show 1 ≤ (civil _).month + 1
        omega
  obtain ⟨hstart, -⟩ := presetPeriod_eq_ok.mp h
  cases preset with
  | today => exact hmidnight _ rfl rfl le_utcDay_midnight hstart
  | yesterday => exact hshifted (-1) (by decide) hstart
  | week => exact hshifted (-6) (by decide) hstart

theorem inPreset_iff : InPreset zone preset now (romeDate zone t) ↔
    romeDay zone now.time + preset.first ≤ romeDay zone t ∧
      romeDay zone t < romeDay zone now.time + preset.last + 1 := by
  constructor
  · rintro ⟨k, hfirst, hlast, hdate⟩
    rw [civil_injective hdate]
    omega
  · rintro ⟨hfirst, hlast⟩
    refine ⟨romeDay zone t - romeDay zone now.time, by omega, by omega, ?_⟩
    have hday : romeDay zone now.time + (romeDay zone t - romeDay zone now.time) = romeDay zone t := by
      omega
    rw [hday]
    rfl

theorem covers_iff : Covers zone preset now ↔
    firstFullDay ≤ romeDay zone now.time + preset.first ∧
      romeDay zone now.time + preset.last + 1 < 100000000 := by
  have hpreset : preset.first ≤ preset.last ∧ preset.last ≤ 0 := by cases preset <;> decide
  constructor
  · rintro ⟨bounds, hbounds, hcovers⟩
    have hfirst : firstFullDay ≤ romeDay zone now.time + preset.first := by
      refine Int.not_lt.mp fun hearly => ?_
      -- the first day begins before every period
      have hday := zone.hours ((romeDay zone now.time + preset.first) * dayMs)
      have hshows : romeDay zone ((romeDay zone now.time + preset.first) * dayMs) =
          romeDay zone now.time + preset.first := by
        generalize romeDay zone now.time + preset.first = day at hday ⊢
        simp only [romeDay, Zone.clock, minuteMs, dayMs] at *
        omega
      have hinside := (hcovers ((romeDay zone now.time + preset.first) * dayMs)).mpr
        (inPreset_iff.mpr ⟨Int.le_of_eq hshows.symm, by omega⟩)
      have hlate := Int.le_trans (le_fromInstant hbounds) hinside.1
      generalize romeDay zone now.time + preset.first = day at hearly hlate
      simp only [hourMs, dayMs] at hlate
      omega
    refine ⟨hfirst, ?_⟩
    obtain ⟨-, hstop⟩ := presetPeriod_eq_ok.mp hbounds
    rw [stop_eq (by omega), zonedToUtc_dayAt (by omega)] at hstop
    split at hstop
    · assumption
    · cases hstop
  · rintro ⟨hfirst, hlast⟩
    refine ⟨⟨dayStart zone (romeDay zone now.time + preset.first),
      dayStart zone (romeDay zone now.time + preset.last + 1)⟩, presetPeriod_eq_ok.mpr ⟨?_, ?_⟩, ?_⟩
    · rw [start_eq (by omega), zonedToUtc_dayAt hfirst, if_pos (by omega)]
    · rw [stop_eq (by omega), zonedToUtc_dayAt (by omega), if_pos hlast]
    · intro t
      rw [dayStart_le_iff, ← Int.not_le, dayStart_le_iff, Int.not_le, inPreset_iff]

/-- The clock of Rome in 2026. -/
def clock2026 : Zone where
  offset t := if 1774746000000 ≤ t ∧ t < 1792890000000 then 120 else 60
  hours t := by split <;> simp
  changes t h := by
    simp only [dayMs, hourMs]
    split at h <;> split at h <;> omega

example : presetPeriod clock2026 .today ⟨1774783800000, by decide⟩ =
    .ok { fromInstant := 1774738800000, toInstant := 1774738800000 + 23 * hourMs } := by
  decide +kernel

end RetailPrintGuard.Frontend.Period
