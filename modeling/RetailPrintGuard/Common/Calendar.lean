import RetailPrintGuard.Common.Amounts
import RetailPrintGuard.Common.Python
import RetailPrintGuard.Common.Runtime

/-! # The calendar

A datetime lies between the years 1 and 9999, and moving one out of this range
raises. Local times are microseconds since 1970 on the clock of the zone. -/
namespace RetailPrintGuard.Common.Calendar
open RetailPrintGuard.Common.Amounts RetailPrintGuard.Common.Python RetailPrintGuard.Common.Runtime

def dayMicros : Int := 86400 * 1000000

/-- `datetime.min` and `datetime.max` -/
def minMicros : Int := daysFromEpoch 1 1 1 * dayMicros

def maxMicros : Int := daysFromEpoch 10000 1 1 * dayMicros - 1

def InCalendar (micros : Int) : Prop := minMicros ≤ micros ∧ micros ≤ maxMicros

instance (micros : Int) : Decidable (InCalendar micros) := inferInstanceAs (Decidable (_ ∧ _))

/-- `datetime(year, month, day, hour, minute, second)`, unless it is a `ValueError` -/
def datetime (year : Int) (month day hour minute second : Nat) : Option Int :=
  if 1 ≤ year ∧ year ≤ 9999 ∧ 1 ≤ month ∧ month ≤ 12 ∧ 1 ≤ day ∧
      day ≤ daysInMonth year.toNat month ∧ hour ≤ 23 ∧ minute ≤ 59 ∧ second ≤ 59 then
    some (daysFromEpoch year.toNat month day * dayMicros +
      ((hour * 3600 + minute * 60 + second : Nat) : Int) * 1000000)
  else none

/-- `datetime.year` -/
def yearOf (micros : Int) : Int :=
  let z := micros / dayMicros + 719468
  let era := z / 146097
  let doe := z - era * 146097
  let yoe := (doe - doe / 1460 + doe / 36524 - doe / 146096) / 365
  let doy := doe - (365 * yoe + yoe / 4 - yoe / 100)
  let year := yoe + era * 400
  if (5 * doy + 2) / 153 < 10 then year else year + 1

/-- A time zone: the offset of a local time, where the fold tells two times
apart that the clock shows twice, and the offset of an instant. -/
structure Zone where
  utcOffset : Int → Bool → Int
  offsetAt : Int → Int

def inCalendar (micros : Int) : Except Raised Int :=
  if InCalendar micros then .ok micros else .error .arithmeticError

/-- `instant.astimezone(zone)`, as the local time -/
def Zone.localTime (zone : Zone) (instant : Int) : Except Raised Int := do
  let utc ← inCalendar instant
  inCalendar (utc + zone.offsetAt utc)

/-- Whether a local time with this fold comes back from UTC. -/
def Zone.roundTrips (zone : Zone) (naive : Int) (fold : Bool) : Except Raised Bool := do
  let back ← zone.localTime (naive - zone.utcOffset naive fold)
  return back == naive

/-- The instant of a local time: the fold whose time is closest to the capture,
and the first of two equally close, as they are on the same clock. A local time
the clock skips has none. -/
def Zone.resolve (zone : Zone) (capturedAt : Timestamp) (naive : Int) :
    Except Raised (Option Timestamp) := do
  let first ← zone.roundTrips naive false
  let second ← zone.roundTrips naive true
  if first || second then
    let _ ← zone.localTime capturedAt.micros
    let offset := zone.utcOffset naive (!first)
    return some { micros := naive - offset, utcOffset := offset }
  else return none

end RetailPrintGuard.Common.Calendar
