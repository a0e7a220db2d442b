import NodeSteward.Proofs.Text.Order
import NodeSteward.Proofs.Time.Calendar
import NodeSteward.Time.Timestamp

/-!
# Names sort as their instants do

The name that an instant gives to what was made then has a fixed number of digits for each part of
the instant, from the year to the microseconds.  So names are ordered, byte by byte, as the row of
these parts, and that is the order of the instants: later days have later dates, and on the same day
later seconds show a later time.
-/

namespace NodeSteward

namespace Timestamp

open Decimal (paddedDigits orderedAs_paddedDigits)

/-- The whole microseconds from the start of 1970 to an instant, rounded down. -/
def micros (instant : Timestamp) : Int :=
  instant.seconds * 1000000 + (instant.nanos / 1000 : Nat)

/-- An instant of the years 0 to 9999 that is no leap second. -/
structure InFourDigitYear (instant : Timestamp) : Prop where
  nanos_lt : instant.nanos < nanosPerSecond
  year_nonneg : 0 ≤ instant.parts.date.year
  year_le : instant.parts.date.year ≤ 9999

variable {instant first second : Timestamp}

/-- The seconds of a day as the clock shows them, in a number of six digits. -/
def clock (ofDay : Nat) : Nat :=
  (ofDay / 3600 * 100 + ofDay / 60 % 60) * 100 + ofDay % 60

theorem strictMono_clock : StrictMono clock := by
  apply strictMono_nat_of_lt_succ
  intro ofDay
  unfold clock
  omega

/-- The seconds since the start of the day. -/
def ofDay (instant : Timestamp) : Nat :=
  (instant.seconds % secondsPerDay).toNat

/-- The parts of an instant side by side, as the digits of one number. -/
def digitsNumber (instant : Timestamp) : Int :=
  let parts := instant.parts
  (((parts.date.place * 100 + parts.hour) * 100 + parts.minute) * 100 + parts.second) * 1000000 +
    (parts.fraction / 1000 : Nat)

theorem InFourDigitYear.parts_eq (inYears : instant.InFourDigitYear) :
    instant.parts =
      { date := Date.ofDays (instant.seconds / secondsPerDay)
        hour := instant.ofDay / 3600
        minute := instant.ofDay / 60 % 60
        second := instant.ofDay % 60
        fraction := instant.nanos } := by
  have noLeap : ¬ nanosPerSecond ≤ instant.nanos := Nat.not_le.mpr inYears.nanos_lt
  simp [parts, noLeap, ofDay]

theorem ofDay_lt (instant : Timestamp) : instant.ofDay < 86400 := by
  unfold ofDay secondsPerDay
  omega

theorem clock_lt {ofDay : Nat} (inDay : ofDay < 86400) : clock ofDay < 1000000 := by
  unfold clock
  omega

theorem InFourDigitYear.digitsNumber_eq (inYears : instant.InFourDigitYear) :
    instant.digitsNumber =
      ((Date.ofDays (instant.seconds / secondsPerDay)).place * 1000000 + clock instant.ofDay) *
        1000000 + (instant.nanos / 1000 : Nat) := by
  rw [digitsNumber, inYears.parts_eq]
  dsimp only
  unfold clock
  omega

/-- The row of the parts is ordered as the instants are, in whole microseconds. -/
theorem compare_digitsNumber (inYears : first.InFourDigitYear) (others : second.InFourDigitYear) :
    compare first.digitsNumber second.digitsNumber = compare first.micros second.micros := by
  have micros_eq : ∀ instant : Timestamp, instant.micros =
      (instant.seconds / secondsPerDay * 86400 + instant.ofDay) * 1000000 +
        (instant.nanos / 1000 : Nat) := by
    intro instant
    unfold micros ofDay secondsPerDay
    omega
  have dates : compare (Date.ofDays (first.seconds / secondsPerDay)).place
      (Date.ofDays (second.seconds / secondsPerDay)).place =
        compare (first.seconds / secondsPerDay) (second.seconds / secondsPerDay) :=
    compare_congr Date.place_ofDays_lt_iff Date.place_ofDays_lt_iff
  have clocks : compare (clock first.ofDay : Int) (clock second.ofDay) =
      compare (first.ofDay : Int) second.ofDay := by
    apply compare_congr
    · exact_mod_cast strictMono_clock.lt_iff_lt
    · exact_mod_cast strictMono_clock.lt_iff_lt
  have firstTime := ofDay_lt first
  have secondTime := ofDay_lt second
  have firstClock := clock_lt firstTime
  have secondClock := clock_lt secondTime
  have firstNanos := inYears.nanos_lt
  have secondNanos := others.nanos_lt
  unfold nanosPerSecond at firstNanos secondNanos
  rw [inYears.digitsNumber_eq, others.digitsNumber_eq, micros_eq, micros_eq]
  -- on both sides the day decides, then the time of the day, then the fraction
  iterate 4 rw [compare_radix (by omega) (by omega) (by omega) (by omega)]
  rw [dates, clocks]

theorem orderedAs_yearChars {year other : Int} (low : 0 ≤ year) (high : year ≤ 9999)
    (otherLow : 0 ≤ other) (otherHigh : other ≤ 9999) :
    OrderedAs (yearChars year) (yearChars other) year other := by
  have ordered : OrderedAs (paddedDigits 4 year.toNat) (paddedDigits 4 other.toNat) year.toNat
      other.toNat := orderedAs_paddedDigits (by decide) (by omega) (by omega)
  rw [yearChars, yearChars, if_pos ⟨low, high⟩, if_pos ⟨otherLow, otherHigh⟩]
  rwa [Int.toNat_of_nonneg low, Int.toNat_of_nonneg otherLow] at ordered

/-- Each part has as many digits as there are places for it. -/
structure Parts.Fits (parts : Parts) : Prop where
  year_nonneg : 0 ≤ parts.date.year
  year_le : parts.date.year ≤ 9999
  month_lt : parts.date.month < 10 ^ 2
  day_lt : parts.date.day < 10 ^ 2
  hour_lt : parts.hour < 10 ^ 2
  minute_lt : parts.minute < 10 ^ 2
  second_lt : parts.second < 10 ^ 2
  micros_lt : parts.fraction / 1000 < 10 ^ 6

theorem InFourDigitYear.fits (inYears : instant.InFourDigitYear) : instant.parts.Fits := by
  have date := Date.ranged_ofDays (instant.seconds / secondsPerDay)
  have time := ofDay_lt instant
  have nanos := inYears.nanos_lt
  have low := inYears.year_nonneg
  have high := inYears.year_le
  rw [inYears.parts_eq] at low high ⊢
  exact
    { year_nonneg := low
      year_le := high
      month_lt := Nat.lt_of_le_of_lt date.month_le (by decide)
      day_lt := Nat.lt_of_le_of_lt date.day_le (by decide)
      hour_lt := by dsimp only; omega
      minute_lt := by dsimp only; omega
      second_lt := by dsimp only; omega
      micros_lt := by dsimp only [nanosPerSecond] at *; omega }

theorem orderedAs_nameChars (inYears : first.InFourDigitYear) (others : second.InFourDigitYear) :
    OrderedAs first.nameChars second.nameChars first.digitsNumber second.digitsNumber := by
  have fits := inYears.fits
  have otherFits := others.fits
  have years := orderedAs_yearChars fits.year_nonneg fits.year_le otherFits.year_nonneg
    otherFits.year_le
  have months := years.field [] (by decide) fits.month_lt otherFits.month_lt
  have days := months.field [] (by decide) fits.day_lt otherFits.day_lt
  have hours := days.field ['.'] (by decide) fits.hour_lt otherFits.hour_lt
  have minutes := hours.field [] (by decide) fits.minute_lt otherFits.minute_lt
  have seconds := minutes.field [] (by decide) fits.second_lt otherFits.second_lt
  exact seconds.field ['.'] (by decide) fits.micros_lt otherFits.micros_lt

theorem InFourDigitYear.isAscii_of_mem_nameChars (inYears : instant.InFourDigitYear) {c : Char}
    (member : c ∈ instant.nameChars) : c.toNat < 128 := by
  have digit : ∀ value, value < 10 → (Decimal.digitChar value).toNat < 128 := by decide
  have digits : ∀ width number, c ∈ paddedDigits width number → c.toNat < 128 := by
    intro width number isIn
    rcases Decimal.isDigit_of_mem_paddedDigits isIn with ⟨value, small, rfl⟩
    exact digit value small
  rw [nameChars, yearChars, if_pos ⟨inYears.year_nonneg, inYears.year_le⟩] at member
  simp only [List.mem_append, List.mem_cons] at member
  rcases member with (((((year | month) | day) | rfl | hour) | minute) | second) | rfl | micros
  case inl.inl.inl.inr.inl | inr.inl => decide
  all_goals exact digits _ _ (by assumption)

theorem InFourDigitYear.bytes_name (inYears : instant.InFourDigitYear) :
    Text.bytes instant.name = instant.nameChars.map Char.toUInt8 :=
  Text.bytes_ofList fun _ => inYears.isAscii_of_mem_nameChars

theorem compare_name (inYears : first.InFourDigitYear) (others : second.InFourDigitYear) :
    compare (Text.bytes first.name) (Text.bytes second.name) =
      compare first.micros second.micros := by
  rw [inYears.bytes_name, others.bytes_name, (orderedAs_nameChars inYears others).compare_eq,
    compare_digitsNumber inYears others]

/-- In the years 0 to 9999, byte by byte, names are ordered as their instants are in whole
microseconds, and the instants of one microsecond share their name.  The dates in the names are
those of the calendar, which starts the count of days on 1 January 1970 and in which each day is
followed by the next date. -/
theorem names_sort_as_instants :
    (Date.ofDays 0 = ⟨1970, 1, 1⟩ ∧ ∀ days, Date.ofDays (days + 1) = (Date.ofDays days).next) ∧
      ∀ first second : Timestamp, first.InFourDigitYear → second.InFourDigitYear →
        compare (Text.bytes first.name) (Text.bytes second.name) =
            compare first.micros second.micros ∧
          (first.name = second.name ↔ first.micros = second.micros) := by
  refine ⟨⟨by decide, Date.ofDays_add_one⟩, ?_⟩
  intro first second inYears others
  have ordered := compare_name inYears others
  refine ⟨ordered, ?_⟩
  rw [← Text.compare_bytes_eq_iff, ordered, compare_eq_iff_eq]

/-- The first and the last instant of the four-digit years. -/
theorem names_sort_as_instants_ends :
    (⟨-62167219200, 0⟩ : Timestamp).InFourDigitYear ∧
      (⟨253402300799, 999999999⟩ : Timestamp).InFourDigitYear ∧
        compare (Text.bytes (⟨-62167219200, 0⟩ : Timestamp).name)
          (Text.bytes (⟨253402300799, 999999999⟩ : Timestamp).name) = .lt := by
  have first : (⟨-62167219200, 0⟩ : Timestamp).InFourDigitYear :=
    ⟨by decide, by decide, by decide⟩
  have last : (⟨253402300799, 999999999⟩ : Timestamp).InFourDigitYear :=
    ⟨by decide, by decide, by decide⟩
  exact ⟨first, last, (names_sort_as_instants.2 _ _ first last).1⟩

end Timestamp

end NodeSteward
