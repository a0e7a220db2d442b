import NodeSteward.Time.Calendar
import NodeSteward.Text.Decimal

/-!
# Instants of the civil clock

An instant is a number of seconds since the start of 1970 in UTC and a fraction in
nanoseconds.  Fractions of a whole second or more stand for a leap second: the clock shows 60 in
the place of the seconds until the minute ends.

Instants are shown in two ways: in the format of records (`Timestamp.text`), with no more digits
of the fraction than are needed, and as a name (`Timestamp.name`) with all six digits of the
microseconds, so that names of four-digit years sort as their instants do.
-/

namespace NodeSteward

/-- An instant of the civil clock. -/
structure Timestamp where
  /-- Whole seconds since the start of 1970, rounded down. -/
  seconds : Int
  nanos : Nat
  deriving DecidableEq, Repr

namespace Timestamp

def nanosPerSecond : Nat := 1000000000

def secondsPerDay : Nat := 86400

/-- The start of 1970. -/
def epoch : Timestamp := ⟨0, 0⟩

/-- The instant some nanoseconds after the start of 1970, or before it. -/
def ofNanos (nanos : Int) : Timestamp :=
  ⟨nanos / nanosPerSecond, (nanos % nanosPerSecond).toNat⟩

/-- True when the first instant comes before the second. -/
def before (first second : Timestamp) : Bool :=
  first.seconds < second.seconds ||
    (first.seconds == second.seconds && first.nanos < second.nanos)

/-- The first second of the calendar's range: 1 January of year -262143. -/
def firstSecond : Int := -8334601228800

/-- The last second of the calendar's range: it ends with year 262142. -/
def lastSecond : Int := 8210266876799

/-- True for an instant within the calendar's range. -/
def inRange (seconds : Int) : Bool :=
  firstSecond ≤ seconds ∧ seconds ≤ lastSecond

/-- An instant as the clock and the calendar show it. -/
structure Parts where
  date : Date
  hour : Nat
  minute : Nat
  second : Nat
  /-- The fraction of the second in nanoseconds. -/
  fraction : Nat
  deriving DecidableEq, Repr

/-- The parts of an instant; in a leap second the second is 60. -/
def parts (instant : Timestamp) : Parts :=
  let ofDay := (instant.seconds % secondsPerDay).toNat
  let leap := nanosPerSecond ≤ instant.nanos
  { date := Date.ofDays (instant.seconds / secondsPerDay)
    hour := ofDay / 3600
    minute := ofDay / 60 % 60
    second := ofDay % 60 + if leap then 1 else 0
    fraction := if leap then instant.nanos - nanosPerSecond else instant.nanos }

open Decimal (paddedDigits digits)

/-- A year: four digits, or a sign and at least four digits outside of 0 to 9999. -/
def yearChars (year : Int) : List Char :=
  if 0 ≤ year ∧ year ≤ 9999 then paddedDigits 4 year.toNat
  else (if year < 0 then '-' else '+') :: paddedDigits 4 year.natAbs

/-- A fraction of a second with three, six or nine digits, the fewest that lose nothing, and
none at all where it is zero. -/
def fractionChars (fraction : Nat) : List Char :=
  if fraction = 0 then []
  else if fraction % 1000000 = 0 then '.' :: paddedDigits 3 (fraction / 1000000)
  else if fraction % 1000 = 0 then '.' :: paddedDigits 6 (fraction / 1000)
  else '.' :: paddedDigits 9 fraction

/-- The form in which records hold an instant, such as `2024-01-31T14:25:01.000123Z`. -/
def text (instant : Timestamp) : String :=
  let parts := instant.parts
  String.ofList
    (yearChars parts.date.year ++ '-' :: paddedDigits 2 parts.date.month ++
      '-' :: paddedDigits 2 parts.date.day ++ 'T' :: paddedDigits 2 parts.hour ++
      ':' :: paddedDigits 2 parts.minute ++ ':' :: paddedDigits 2 parts.second ++
      fractionChars parts.fraction ++ ['Z'])

/-- The name that an instant gives to what was made then, such as `20240131.142501.000123`. -/
def nameChars (instant : Timestamp) : List Char :=
  let parts := instant.parts
  yearChars parts.date.year ++ paddedDigits 2 parts.date.month ++ paddedDigits 2 parts.date.day ++
    '.' :: paddedDigits 2 parts.hour ++ paddedDigits 2 parts.minute ++
    paddedDigits 2 parts.second ++ '.' :: paddedDigits 6 (parts.fraction / 1000)

def name (instant : Timestamp) : String :=
  String.ofList instant.nameChars

/-- `chosen`, or the name that the instant gives when nothing was chosen. -/
def nameOr (chosen : String) (instant : Timestamp) : String :=
  if chosen.isEmpty then instant.name else chosen

end Timestamp

end NodeSteward
