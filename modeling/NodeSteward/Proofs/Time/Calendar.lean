import Mathlib.Order.SuccPred.LinearLocallyFinite
import Mathlib.Tactic.IntervalCases
import NodeSteward.Time.Calendar

/-!
# Days and dates

The days are named in the order of the calendar: 1 January 1970 is day 0, and each day is followed
by the next date.  That is all there is to the calendar.  The arithmetic that finds the date of a
day is shown to agree with it by way of its inverse, which is easier to follow from one date to the
next.
-/

namespace NodeSteward

namespace Date

/-- The date of the day after. -/
def next (date : Date) : Date :=
  if date.day < daysInMonth date.year date.month then { date with day := date.day + 1 }
  else if date.month < 12 then { date with month := date.month + 1, day := 1 }
  else { year := date.year + 1, month := 1, day := 1 }

theorem yearOfEra_mono : Monotone yearOfEra := by
  apply monotone_nat_of_le_succ
  intro day
  unfold yearOfEra
  omega

/-- The first and the last day of each year of an era. -/
theorem yearOfEra_daysBeforeYear {year : Nat} (inEra : year < 400) :
    yearOfEra (daysBeforeYear year) = year ∧
      yearOfEra (daysBeforeYear (year + 1) - 1) = year := by
  have all : ∀ year : Fin 400, yearOfEra (daysBeforeYear year) = year ∧
      yearOfEra (daysBeforeYear (year + 1) - 1) = year := by decide +kernel
  exact all ⟨year, inEra⟩

theorem yearOfEra_lt {day : Nat} (inEra : day < daysPerEra) : yearOfEra day < 400 := by
  have last : yearOfEra 146096 = 399 := by decide
  have below : yearOfEra day ≤ yearOfEra 146096 := yearOfEra_mono (Nat.le_of_lt_succ inEra)
  omega

theorem daysBeforeYear_le {day : Nat} (inEra : day < daysPerEra) :
    daysBeforeYear (yearOfEra day) ≤ day := by
  have below := yearOfEra_lt inEra
  cases found : yearOfEra day with
  | zero => exact Nat.zero_le day
  | succ year =>
    rw [← Nat.not_lt]
    intro before
    have earlier := yearOfEra_mono (Nat.le_sub_one_of_lt before)
    rw [(yearOfEra_daysBeforeYear (by omega)).2, found] at earlier
    omega

/-- The day is before the next year, where the last year of an era has one day more. -/
theorem lt_daysBeforeYear {day : Nat} (inEra : day < daysPerEra) :
    day < daysBeforeYear (yearOfEra day + 1) + (yearOfEra day + 1) / 400 := by
  have below := yearOfEra_lt inEra
  by_cases last : yearOfEra day = 399
  · rw [last]
    exact inEra
  · rw [← Nat.not_le]
    intro after
    have later := yearOfEra_mono (Nat.le_trans (Nat.le_add_right _ _) after)
    rw [(yearOfEra_daysBeforeYear (by omega)).1] at later
    omega

theorem yearOfEra_eq {day year : Nat} (inEra : year < 400) (after : daysBeforeYear year ≤ day)
    (before : day < daysBeforeYear (year + 1) + (year + 1) / 400) : yearOfEra day = year := by
  have low := yearOfEra_mono after
  rw [(yearOfEra_daysBeforeYear inEra).1] at low
  by_cases last : year = 399
  · subst last
    have high := yearOfEra_lt before
    omega
  · have same : (year + 1) / 400 = 0 := by omega
    rw [same, Nat.add_zero] at before
    have high := yearOfEra_mono (Nat.le_sub_one_of_lt before)
    rw [(yearOfEra_daysBeforeYear inEra).2] at high
    omega

/-- The days of a year that is counted from 1 March: its last month is the February of the next
year. -/
def daysInYear (year : Int) : Nat :=
  if isLeapYear (year + 1) then 366 else 365

/-- A day of a month, where months and years are counted from March. -/
def ofMarch (year : Int) (month day : Nat) : Date :=
  let civilMonth := if month < 10 then month + 3 else month - 9
  { year := year + if civilMonth ≤ 2 then 1 else 0, month := civilMonth, day }

/-- The days before a month in a year that is counted from 1 March. -/
def daysBeforeMonth (month : Nat) : Nat :=
  (153 * month + 2) / 5

/-- The days of a month, where months and years are counted from March. -/
def daysInMarch (year : Int) (month : Nat) : Nat :=
  daysInMonth (ofMarch year month 1).year (ofMarch year month 1).month

variable {year : Int} {month day : Nat}

theorem daysInYear_bounds (year : Int) : 365 ≤ daysInYear year ∧ daysInYear year ≤ 366 := by
  unfold daysInYear
  split <;> omega

/-- A month ends where the next one starts or where the year ends. -/
theorem daysInMarch_eq (year : Int) (inYear : month < 12) :
    daysBeforeMonth month + daysInMarch year month =
      min (daysBeforeMonth (month + 1)) (daysInYear year) := by
  have bounds := daysInYear_bounds year
  unfold daysInMarch
  interval_cases month
  case «11» =>
    simp [ofMarch, daysBeforeMonth, daysInMonth, daysInYear]
    split <;> simp
  all_goals
    simp [ofMarch, daysBeforeMonth, daysInMonth]
    omega

theorem next_ofMarch (inMonth : day < daysInMarch year month) :
    (ofMarch year month day).next = ofMarch year month (day + 1) :=
  if_pos inMonth

theorem next_ofMarch_last (inYear : month < 11) (last : ¬ day < daysInMarch year month) :
    (ofMarch year month day).next = ofMarch year (month + 1) 1 := by
  apply (if_neg last).trans
  unfold ofMarch
  interval_cases month <;> simp

theorem next_ofMarch_february (last : ¬ day < daysInMarch year 11) :
    (ofMarch year 11 day).next = ofMarch (year + 1) 0 1 :=
  (if_neg last).trans (by simp [ofMarch])

/-- The month of a day of a year, both counted from March. -/
def monthOfDay (day : Nat) : Nat :=
  (5 * day + 2) / 153

/-- The date of a day of a year that is counted from 1 March. -/
def ofDayOfYear (year : Int) (day : Nat) : Date :=
  ofMarch year (monthOfDay day) (day - daysBeforeMonth (monthOfDay day) + 1)

theorem monthOfDay_eq_iff :
    monthOfDay day = month ↔ daysBeforeMonth month ≤ day ∧ day < daysBeforeMonth (month + 1) := by
  unfold monthOfDay daysBeforeMonth
  omega

theorem monthOfDay_lt (inYear : day < daysInYear year) : monthOfDay day < 12 := by
  have bounds := daysInYear_bounds year
  unfold monthOfDay
  omega

/-- A day that is not the last of its year is followed by the next day of that year. -/
theorem next_ofDayOfYear (inYear : day + 1 < daysInYear year) :
    (ofDayOfYear year day).next = ofDayOfYear year (day + 1) := by
  have length := daysInMarch_eq year (monthOfDay_lt (Nat.lt_of_succ_lt inYear))
  rcases monthOfDay_eq_iff.mp (rfl : monthOfDay day = _) with ⟨after, before⟩
  unfold ofDayOfYear
  by_cases inMonth : day + 1 < daysBeforeMonth (monthOfDay day + 1)
  · have same : monthOfDay (day + 1) = monthOfDay day :=
      monthOfDay_eq_iff.mpr ⟨by omega, inMonth⟩
    rw [next_ofMarch (by omega), same]
    congr 1
    omega
  · have ends : day + 1 = daysBeforeMonth (monthOfDay day + 1) := by omega
    have later : monthOfDay (day + 1) = monthOfDay day + 1 := by
      rw [monthOfDay_eq_iff, ← ends]
      unfold daysBeforeMonth at *
      omega
    have months : monthOfDay day < 11 := by
      have bounds := daysInYear_bounds year
      unfold daysBeforeMonth at ends
      omega
    rw [next_ofMarch_last months (by omega), later, ← ends, Nat.sub_self]

/-- The last day of a year is followed by the first of the next year. -/
theorem next_ofDayOfYear_last (last : day + 1 = daysInYear year) :
    (ofDayOfYear year day).next = ofDayOfYear (year + 1) 0 := by
  have bounds := daysInYear_bounds year
  have february : monthOfDay day = 11 := by
    rw [monthOfDay_eq_iff]
    unfold daysBeforeMonth
    omega
  have length := daysInMarch_eq year (show 11 < 12 by decide)
  rw [ofDayOfYear, february, next_ofMarch_february (by unfold daysBeforeMonth at *; omega)]
  rfl

/-! ## The days of the calendar -/

/-- The days before a year that is counted from 1 March, since 1 March of year 0. -/
def daysBefore (year : Int) : Int :=
  year / 400 * daysPerEra + daysBeforeYear (year % 400).toNat

theorem daysBeforeYear_add_daysInYear (year : Int) :
    daysBeforeYear (year % 400).toNat + daysInYear year =
      daysBeforeYear ((year % 400).toNat + 1) + ((year % 400).toNat + 1) / 400 := by
  simp only [daysBeforeYear, daysInYear, isLeapYear, decide_eq_true_eq]
  split <;> omega

theorem daysBefore_add_one (year : Int) :
    daysBefore (year + 1) = daysBefore year + daysInYear year := by
  simp only [daysBefore, daysBeforeYear, daysPerEra, daysInYear, isLeapYear, decide_eq_true_eq]
  split <;> omega

theorem ofDays_eq_ofDayOfYear (days : Int) :
    let era := (days + epochOffset) / daysPerEra
    let dayOfEra := ((days + epochOffset) % daysPerEra).toNat
    ofDays days = ofDayOfYear (yearOfEra dayOfEra + era * 400)
      (dayOfEra - daysBeforeYear (yearOfEra dayOfEra)) :=
  rfl

theorem ofDays_daysBefore (inYear : day < daysInYear year) :
    ofDays (daysBefore year + day - epochOffset) = ofDayOfYear year day := by
  have length := daysBeforeYear_add_daysInYear year
  have span : daysBeforeYear ((year % 400).toNat + 1) + ((year % 400).toNat + 1) / 400 ≤
      daysPerEra := by
    unfold daysBeforeYear daysPerEra
    omega
  have found : yearOfEra (daysBeforeYear (year % 400).toNat + day) = (year % 400).toNat :=
    yearOfEra_eq (by omega) (by omega) (by omega)
  have era : (daysBefore year + day) / daysPerEra = year / 400 := by
    unfold daysBefore daysPerEra at *
    omega
  have dayOfEra : ((daysBefore year + day) % daysPerEra).toNat =
      daysBeforeYear (year % 400).toNat + day := by
    unfold daysBefore daysPerEra at *
    omega
  rw [ofDays_eq_ofDayOfYear, Int.sub_add_cancel, era, dayOfEra, found, Nat.add_sub_cancel_left]
  congr 1
  omega

/-- Every day belongs to a year. -/
theorem exists_eq_daysBefore (days : Int) :
    ∃ year day, day < daysInYear year ∧ days = daysBefore year + (day : Nat) - epochOffset := by
  let era := (days + epochOffset) / daysPerEra
  let dayOfEra := ((days + epochOffset) % daysPerEra).toNat
  have whole : era * daysPerEra + dayOfEra = days + epochOffset := by
    unfold era dayOfEra daysPerEra
    omega
  have inEra : dayOfEra < daysPerEra := by
    unfold dayOfEra daysPerEra
    omega
  have below := yearOfEra_lt inEra
  have after := daysBeforeYear_le inEra
  have before := lt_daysBeforeYear inEra
  let year : Int := yearOfEra dayOfEra + era * 400
  have ofYear : (year % 400).toNat = yearOfEra dayOfEra := by omega
  have length := daysBeforeYear_add_daysInYear year
  rw [ofYear] at length
  refine ⟨year, dayOfEra - daysBeforeYear (yearOfEra dayOfEra), by omega, ?_⟩
  have ofEra : year / 400 = era := by omega
  rw [daysBefore, ofEra, ofYear]
  omega

/-- Each day is followed by the next date. -/
theorem ofDays_add_one (days : Int) : ofDays (days + 1) = (ofDays days).next := by
  rcases exists_eq_daysBefore days with ⟨year, day, inYear, rfl⟩
  rw [ofDays_daysBefore inYear]
  by_cases last : day + 1 = daysInYear year
  · have first : daysBefore year + day - epochOffset + 1 =
        daysBefore (year + 1) + (0 : Nat) - epochOffset := by
      rw [daysBefore_add_one]
      omega
    have bounds := daysInYear_bounds (year + 1)
    rw [first, ofDays_daysBefore (by omega), next_ofDayOfYear_last last]
  · have later : daysBefore year + day - epochOffset + 1 =
        daysBefore year + (day + 1 : Nat) - epochOffset := by omega
    rw [later, ofDays_daysBefore (by omega), next_ofDayOfYear (by omega)]

/-- The date as a number whose last four digits are the month and the day. -/
def place (date : Date) : Int :=
  (date.year * 100 + date.month) * 100 + date.day

/-- The month and the day of a date are numbers that a month and a day can have. -/
structure Ranged (date : Date) : Prop where
  month_pos : 1 ≤ date.month
  month_le : date.month ≤ 12
  day_pos : 1 ≤ date.day
  day_le : date.day ≤ 31

theorem daysInMonth_le (year : Int) (month : Nat) : daysInMonth year month ≤ 31 := by
  unfold daysInMonth
  split
  case h_1 => split <;> decide
  all_goals decide

theorem ranged_ofDays (days : Int) : (ofDays days).Ranged := by
  rcases exists_eq_daysBefore days with ⟨year, day, inYear, rfl⟩
  have length := daysInMarch_eq year (monthOfDay_lt inYear)
  have short : daysInMarch year (monthOfDay day) ≤ 31 := daysInMonth_le _ _
  have months := monthOfDay_lt inYear
  rcases monthOfDay_eq_iff.mp (rfl : monthOfDay day = _) with ⟨after, before⟩
  rw [ofDays_daysBefore inYear]
  unfold ofDayOfYear ofMarch
  constructor <;> dsimp only
  · split <;> omega
  · split <;> omega
  · omega
  · omega

theorem place_lt_place_next {date : Date} (ranged : date.Ranged) :
    date.place < date.next.place := by
  rcases ranged with ⟨_, _, _, _⟩
  unfold next
  split
  · simp [place]
  · split
    · simp only [place]
      omega
    · simp only [place]
      omega

/-- Later days have later dates. -/
theorem place_ofDays_lt_iff {first second : Int} :
    (ofDays first).place < (ofDays second).place ↔ first < second := by
  have step : ∀ days, (ofDays days).place < (ofDays (days + 1)).place := by
    intro days
    rw [ofDays_add_one]
    exact place_lt_place_next (ranged_ofDays days)
  exact (strictMono_int_of_lt_succ step).lt_iff_lt

end Date

end NodeSteward
