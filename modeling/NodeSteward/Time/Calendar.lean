/-!
# The calendar

Days are counted from 1 January 1970 and named by the Gregorian calendar, which is taken to
hold at all times, also before it was introduced and before year 1.  The calendar repeats every
400 years, or 146097 days.  Years are counted from 1 March, so that the day added in leap years
is the last of its year.
-/

namespace NodeSteward

/-- A day of the calendar. -/
structure Date where
  year : Int
  month : Nat
  day : Nat
  deriving DecidableEq, Repr

namespace Date

/-- The days of 400 years. -/
def daysPerEra : Nat := 146097

/-- The days from 1 March of year 0 to 1 January 1970. -/
def epochOffset : Int := 719468

/-- The year, counted from 1 March, of a day of an era. -/
def yearOfEra (dayOfEra : Nat) : Nat :=
  (dayOfEra - dayOfEra / 1460 + dayOfEra / 36524 - dayOfEra / 146096) / 365

/-- The days before a year of an era. -/
def daysBeforeYear (yearOfEra : Nat) : Nat :=
  365 * yearOfEra + yearOfEra / 4 - yearOfEra / 100

/-- The day that stands `days` after 1 January 1970. -/
def ofDays (days : Int) : Date :=
  let shifted := days + epochOffset
  let era := shifted / daysPerEra
  let dayOfEra := (shifted % daysPerEra).toNat
  let year := yearOfEra dayOfEra
  let dayOfYear := dayOfEra - daysBeforeYear year
  let marchMonth := (5 * dayOfYear + 2) / 153
  let day := dayOfYear - (153 * marchMonth + 2) / 5 + 1
  let month := if marchMonth < 10 then marchMonth + 3 else marchMonth - 9
  { year := (year : Int) + era * 400 + (if month ≤ 2 then 1 else 0), month, day }

/-- The days from 1 January 1970 to a date. -/
def toDays (date : Date) : Int :=
  let year := if date.month ≤ 2 then date.year - 1 else date.year
  let era := year / 400
  let yearOfEra := (year % 400).toNat
  let marchMonth := if 2 < date.month then date.month - 3 else date.month + 9
  let dayOfYear := (153 * marchMonth + 2) / 5 + date.day - 1
  era * daysPerEra + (daysBeforeYear yearOfEra + dayOfYear : Nat) - epochOffset

def isLeapYear (year : Int) : Bool :=
  year % 4 = 0 ∧ (year % 100 ≠ 0 ∨ year % 400 = 0)

/-- The number of days of a month. -/
def daysInMonth (year : Int) : Nat → Nat
  | 2 => if isLeapYear year then 29 else 28
  | 4 => 30
  | 6 => 30
  | 9 => 30
  | 11 => 30
  | _ => 31

/-- True when the calendar has such a day. -/
def isValid (date : Date) : Bool :=
  1 ≤ date.month ∧ date.month ≤ 12 ∧ 1 ≤ date.day ∧ date.day ≤ daysInMonth date.year date.month

end Date

end NodeSteward
