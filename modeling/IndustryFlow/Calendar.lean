import IndustryFlow.Isoformat

/-!
# Days and instants

The days of the proleptic Gregorian calendar are counted from 1 January of
the year 1.  Every day that is counted has a date (`ord2ymd_isDate`), so a
time is moved to UTC, as the same instant, whenever its instant lies within
the calendar (`astimezone_instant`).
-/

namespace IndustryFlow.Calendar

open Isoformat (Fields Datetime isLeap daysInMonth dayLength)

/-! ## Days -/

/-- `_days_before_year`. -/
def daysBeforeYear (year : Nat) : Nat :=
  (year - 1) * 365 + (year - 1) / 4 - (year - 1) / 100 + (year - 1) / 400

/-- `_DAYS_BEFORE_MONTH`. -/
def daysBefore : List Nat :=
  [0, 0, 31, 59, 90, 120, 151, 181, 212, 243, 273, 304, 334]

/-- `_days_before_month`. -/
def daysBeforeMonth (leap : Bool) (month : Nat) : Nat :=
  daysBefore.getD month 0 + if 2 < month ∧ leap = true then 1 else 0

/-- `_ymd2ord`: the first day is 1. -/
def ymd2ord (year month day : Nat) : Nat :=
  daysBeforeYear year + daysBeforeMonth (isLeap year) month + day

/-- The end of `_ord2ymd`: the month and the day, of a day of the year that is
counted from 0. -/
def monthDay (leap : Bool) (day : Nat) : Nat × Nat :=
  let month := (day + 50) / 32
  if day < daysBeforeMonth leap month then
    (month - 1, day - daysBeforeMonth leap (month - 1) + 1)
  else (month, day - daysBeforeMonth leap month + 1)

/-- `_ord2ymd`. -/
def ord2ymd (ordinal : Nat) : Nat × Nat × Nat :=
  let day := ordinal - 1
  let n400 := day / 146097
  let day := day % 146097
  let n100 := day / 36524
  let day := day % 36524
  let n4 := day / 1461
  let day := day % 1461
  let n1 := day / 365
  let year := n400 * 400 + n100 * 100 + n4 * 4 + n1 + 1
  if n1 = 4 ∨ n100 = 4 then (year - 1, 12, 31)
  else (year, monthDay (n1 = 3 ∧ (n4 ≠ 24 ∨ n100 = 3)) (day % 365))

def yearLength (leap : Bool) : Nat :=
  if leap then 366 else 365

theorem monthDay_spec {leap : Bool} {day : Nat}
    (inside : day < yearLength leap) :
    1 ≤ (monthDay leap day).1 ∧ (monthDay leap day).1 ≤ 12 ∧
      1 ≤ (monthDay leap day).2 ∧
      (monthDay leap day).2 ≤
        (if (monthDay leap day).1 = 2 then (if leap then 29 else 28)
          else if (monthDay leap day).1 ∈ [4, 6, 9, 11] then 30 else 31) ∧
      daysBeforeMonth leap (monthDay leap day).1 + (monthDay leap day).2 =
        day + 1 := by
  have all : ∀ leap : Bool, ∀ day : Fin (yearLength leap),
      1 ≤ (monthDay leap day).1 ∧ (monthDay leap day).1 ≤ 12 ∧
      1 ≤ (monthDay leap day).2 ∧
      (monthDay leap day).2 ≤
        (if (monthDay leap day).1 = 2 then (if leap then 29 else 28)
          else if (monthDay leap day).1 ∈ [4, 6, 9, 11] then 30 else 31) ∧
      daysBeforeMonth leap (monthDay leap day).1 + (monthDay leap day).2 =
        day + 1 := by
    decide +kernel
  exact all leap ⟨day, inside⟩

/-- The year of a day, and the day of the year. -/
theorem year_split (n400 : Nat) {n100 n4 n1 : Nat} (centuries : n100 < 4)
    (fours : n4 < 25) (years : n1 < 4) :
    daysBeforeYear (n400 * 400 + n100 * 100 + n4 * 4 + n1 + 1) =
        n400 * 146097 + n100 * 36524 + n4 * 1461 + n1 * 365 ∧
      isLeap (n400 * 400 + n100 * 100 + n4 * 4 + n1 + 1) =
        decide (n1 = 3 ∧ (n4 ≠ 24 ∨ n100 = 3)) := by
  constructor
  · simp only [daysBeforeYear, Nat.add_sub_cancel]
    omega
  · rw [Bool.eq_iff_iff]
    simp only [isLeap, Bool.and_eq_true, Bool.or_eq_true, decide_eq_true_eq]
    omega

theorem daysInMonth_eq (year month : Nat) :
    daysInMonth year month =
      if month = 2 then (if isLeap year then 29 else 28)
      else if month ∈ [4, 6, 9, 11] then 30 else 31 := rfl

/-- What `ord2ymd` has to answer. -/
structure IsDate (ordinal : Nat) (date : Nat × Nat × Nat) : Prop where
  year : 1 ≤ date.1
  month : 1 ≤ date.2.1 ∧ date.2.1 ≤ 12
  day : 1 ≤ date.2.2 ∧ date.2.2 ≤ daysInMonth date.1 date.2.1
  ordinal : ymd2ord date.1 date.2.1 date.2.2 = ordinal

/-- The last day of a leap year. -/
theorem isDate_last (n400 n100 n4 : Nat) (centuries : n100 < 4)
    (fours : n4 < 25) (leap : n4 ≠ 24 ∨ n100 = 3) :
    IsDate (n400 * 146097 + n100 * 36524 + n4 * 1461 + 3 * 365 + 366)
      (n400 * 400 + n100 * 100 + n4 * 4 + 3 + 1, 12, 31) := by
  obtain ⟨before, leapYear⟩ :=
    year_split n400 centuries fours (by decide : 3 < 4)
  rw [decide_eq_true (by exact ⟨rfl, leap⟩)] at leapYear
  constructor
  · exact Nat.le_add_left 1 _
  · exact ⟨Nat.le_add_left 1 11, Nat.le_refl 12⟩
  · rw [daysInMonth_eq]
    exact ⟨Nat.le_add_left 1 30, Nat.le_refl 31⟩
  · rw [ymd2ord, before, leapYear]
    have december : daysBeforeMonth true 12 = 335 := by decide
    dsimp only
    omega

/-- A day within a year. -/
theorem isDate_within (n400 n100 n4 n1 day : Nat) (centuries : n100 < 4)
    (fours : n4 < 25) (years : n1 < 4) (inside : day < 365) :
    IsDate (n400 * 146097 + n100 * 36524 + n4 * 1461 + n1 * 365 + day + 1)
      (n400 * 400 + n100 * 100 + n4 * 4 + n1 + 1,
        monthDay (decide (n1 = 3 ∧ (n4 ≠ 24 ∨ n100 = 3))) day) := by
  obtain ⟨before, leapYear⟩ :=
    year_split n400 centuries fours years
  have short : day < yearLength
      (decide (n1 = 3 ∧ (n4 ≠ 24 ∨ n100 = 3))) := by
    rw [yearLength]
    split
    · omega
    · exact inside
  obtain ⟨first, last, positive, bounded, counted⟩ := monthDay_spec short
  constructor
  · exact Nat.le_add_left 1 _
  · exact ⟨first, last⟩
  · rw [daysInMonth_eq, leapYear]
    exact ⟨positive, bounded⟩
  · rw [ymd2ord, before, leapYear]
    dsimp only
    omega

theorem ord2ymd_isDate {ordinal : Nat} (positive : 1 ≤ ordinal) :
    IsDate ordinal (ord2ymd ordinal) := by
  obtain ⟨day, rfl⟩ : ∃ day, ordinal = day + 1 := ⟨ordinal - 1, by omega⟩
  rw [ord2ymd, Nat.add_sub_cancel]
  obtain ⟨n400, rest, cycle, shorter, rfl⟩ : ∃ n400 rest,
      day / 146097 = n400 ∧ rest < 146097 ∧ day = n400 * 146097 + rest :=
    ⟨day / 146097, day % 146097, rfl, Nat.mod_lt _ (by decide), by omega⟩
  have rest_eq : (n400 * 146097 + rest) % 146097 = rest := by omega
  rw [cycle, rest_eq]
  split
  · rename_i ends
    by_cases whole : rest / 36524 = 4
    · have year : n400 * 400 + rest / 36524 * 100 +
          rest % 36524 / 1461 * 4 + rest % 36524 % 1461 / 365 + 1 - 1 =
          n400 * 400 + 3 * 100 + 24 * 4 + 3 + 1 := by omega
      have counted : n400 * 146097 + rest + 1 =
          n400 * 146097 + 3 * 36524 + 24 * 1461 + 3 * 365 + 366 := by omega
      rw [year, counted]
      exact isDate_last n400 3 24 (by decide) (by decide) (.inr rfl)
    · have four : rest % 36524 % 1461 / 365 = 4 := by omega
      have year : n400 * 400 + rest / 36524 * 100 +
          rest % 36524 / 1461 * 4 + rest % 36524 % 1461 / 365 + 1 - 1 =
          n400 * 400 + rest / 36524 * 100 + rest % 36524 / 1461 * 4 +
            3 + 1 := by omega
      have counted : n400 * 146097 + rest + 1 =
          n400 * 146097 + rest / 36524 * 36524 +
            rest % 36524 / 1461 * 1461 + 3 * 365 + 366 := by omega
      rw [year, counted]
      exact isDate_last n400 (rest / 36524) (rest % 36524 / 1461)
        (by omega) (by omega) (.inl (by omega))
  · rename_i inner
    have date := isDate_within n400 (rest / 36524) (rest % 36524 / 1461)
      (rest % 36524 % 1461 / 365) (rest % 36524 % 1461 % 365) (by omega)
      (by omega) (by omega) (Nat.mod_lt _ (by decide))
    have counted : n400 * 146097 + rest + 1 =
        n400 * 146097 + rest / 36524 * 36524 + rest % 36524 / 1461 * 1461 +
          rest % 36524 % 1461 / 365 * 365 + rest % 36524 % 1461 % 365 + 1 := by
      omega
    rw [counted]
    exact date

/-! ## Instants -/

/-- `_MAXORDINAL`. -/
def maxOrdinal : Nat := 3652059

/-- The microseconds from the start of the calendar to what a clock shows. -/
def shown (fields : Fields) : Nat :=
  (ymd2ord fields.year fields.month fields.day - 1) * dayLength +
    (((fields.hour * 60 + fields.minute) * 60 + fields.second) * 1000000 +
      fields.microsecond)

/-- The instant of a time, in microseconds; a time without an offset is read
as UTC. -/
def instant (fields : Fields) : Int :=
  shown fields - fields.offset.getD 0

/-- The last instant of the calendar. -/
def lastInstant : Nat := maxOrdinal * dayLength - 1

/-- The time of an instant, in UTC. -/
def utcFields (instant : Nat) : Fields where
  year := (ord2ymd (instant / dayLength + 1)).1
  month := (ord2ymd (instant / dayLength + 1)).2.1
  day := (ord2ymd (instant / dayLength + 1)).2.2
  hour := instant % dayLength / 3600000000
  minute := instant % dayLength / 60000000 % 60
  second := instant % dayLength / 1000000 % 60
  microsecond := instant % dayLength % 1000000
  offset := some 0

theorem isDate_year {ordinal : Nat} {date : Nat × Nat × Nat}
    (isDate : IsDate ordinal date) (bounded : ordinal ≤ maxOrdinal) :
    date.1 ≤ 9999 := by
  have counted := isDate.ordinal
  have day := isDate.day.1
  rw [maxOrdinal] at bounded
  simp only [ymd2ord, daysBeforeYear] at counted
  omega

theorem utcFields_valid {instant : Nat} (inside : instant ≤ lastInstant) :
    (utcFields instant).Valid := by
  have bounded : instant / dayLength + 1 ≤ maxOrdinal := by
    rw [lastInstant, maxOrdinal, dayLength] at inside
    rw [dayLength, maxOrdinal]
    omega
  have isDate := ord2ymd_isDate (Nat.le_add_left 1 (instant / dayLength))
  have clock : instant % dayLength < 86400000000 :=
    Nat.mod_lt _ (by decide)
  constructor
  · exact ⟨isDate.year, isDate_year isDate bounded⟩
  · exact isDate.month
  · exact isDate.day
  · simp only [utcFields]
    omega
  · exact Nat.mod_lt _ (by decide)
  · exact Nat.mod_lt _ (by decide)
  · exact Nat.mod_lt _ (by decide)
  · intro offset zero
    cases zero
    decide

theorem instant_utcFields (instant : Nat) :
    Calendar.instant (utcFields instant) = instant := by
  have isDate := ord2ymd_isDate (Nat.le_add_left 1 (instant / dayLength))
  have clock : instant % dayLength < 86400000000 :=
    Nat.mod_lt _ (by decide)
  have whole := Nat.div_add_mod instant dayLength
  have parts : ((instant % dayLength / 3600000000 * 60 +
      instant % dayLength / 60000000 % 60) * 60 +
        instant % dayLength / 1000000 % 60) * 1000000 +
          instant % dayLength % 1000000 = instant % dayLength := by omega
  simp only [Calendar.instant, shown, utcFields, isDate.ordinal,
    Nat.add_sub_cancel, parts, Option.getD_some]
  rw [Nat.mul_comm, whole]
  exact Int.sub_zero _

/-- `astimezone(timezone.utc)`, of an aware time. -/
def astimezone (time : Datetime) : Option Datetime :=
  if inside : 0 ≤ instant time.toFields ∧
      instant time.toFields ≤ lastInstant then
    some ⟨utcFields (instant time.toFields).toNat,
      utcFields_valid (by omega)⟩
  else none

theorem astimezone_eq_none_iff {time : Datetime} :
    astimezone time = none ↔ instant time.toFields < 0 ∨
      lastInstant < instant time.toFields := by
  rw [astimezone]
  split
  · rename_i inside
    constructor
    · nofun
    · intro outside
      omega
  · rename_i outside
    constructor
    · intro refused
      omega
    · exact fun _ => rfl

/-- A time that is moved to UTC is the same instant. -/
theorem astimezone_instant {time moved : Datetime}
    (found : astimezone time = some moved) :
    instant moved.toFields = instant time.toFields ∧
      moved.offset = some 0 := by
  rw [astimezone] at found
  split at found
  · rename_i inside
    cases found
    constructor
    · rw [instant_utcFields]
      exact Int.toNat_of_nonneg inside.1
    · rfl
  · cases found

end IndustryFlow.Calendar
