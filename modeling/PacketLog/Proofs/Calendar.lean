import Mathlib.Tactic.IntervalCases
import PacketLog.Calendar

/-!
# The Gregorian calendar

`Date.next` is the day after a date by the rules of the calendar: how long the months are, and which
years have a leap day.  `Date.toDays` counts days by these rules (`toDays_next`), each day has one
date (`toDays_ofDays`, `ofDays_toDays`), which is one of the calendar (`valid_ofDays`), and the date
of the next day is the next date (`ofDays_add_one`).  The weekdays go round with the days
(`weekday_add_one`), from a Thursday on (`weekday_zero`).

Both conversions work in years that begin in March.  `exists_marchDays` finds every day in a month
of such a year, and `Date.Valid.exists_ofMarch` every date, so that what is left is to look at one
month.
-/

namespace PacketLog

namespace Date

def IsLeap (year : Int) : Prop := 4 ∣ year ∧ (100 ∣ year → 400 ∣ year)

instance (year : Int) : Decidable (IsLeap year) :=
  inferInstanceAs (Decidable (4 ∣ year ∧ (100 ∣ year → 400 ∣ year)))

def monthLength (year : Int) : Nat → Nat
  | 2 => if IsLeap year then 29 else 28
  | 4 | 6 | 9 | 11 => 30
  | _ => 31

/-- A date of the calendar. -/
structure Valid (date : Date) : Prop where
  month_pos : 1 ≤ date.month
  month_le : date.month ≤ 12
  day_pos : 1 ≤ date.day
  day_le : date.day ≤ monthLength date.year date.month

/-- The day after a date. -/
def next (date : Date) : Date :=
  if date.day < monthLength date.year date.month then { date with day := date.day + 1 }
  else if date.month < 12 then { date with month := date.month + 1, day := 1 }
  else { year := date.year + 1, month := 1, day := 1 }

theorem monthLength_pos (year : Int) (month : Nat) : 1 ≤ monthLength year month := by
  unfold monthLength
  split
  · split <;> omega
  all_goals omega

theorem valid_next {date : Date} (hValid : date.Valid) : date.next.Valid := by
  unfold next
  split
  · next hMore => exact ⟨hValid.month_pos, hValid.month_le, Nat.le_add_left 1 _, hMore⟩
  · split
    · next hYear => exact ⟨Nat.le_add_left 1 _, hYear, Nat.le_refl 1, monthLength_pos _ _⟩
    · exact ⟨Nat.le_refl 1, by simp, Nat.le_refl 1, monthLength_pos _ _⟩

end Date

namespace Calendar

open Date

/-! ## The years of a span -/

/-- The days of a year that begins in March. -/
def yearLength (year : Int) : Nat := if IsLeap (year + 1) then 366 else 365

theorem yearLength_cases (year : Int) : yearLength year = 365 ∨ yearLength year = 366 := by
  unfold yearLength
  split <;> simp

theorem yearLength_eq {year : Nat} (hYear : year < 400) :
    yearLength year = if year % 4 = 3 ∧ (year % 100 ≠ 99 ∨ year = 399) then 366 else 365 := by
  refine if_congr ?_ rfl rfl
  unfold IsLeap
  omega

theorem yearLength_add_span (span year : Int) :
    yearLength (span * 400 + year) = yearLength year := by
  refine if_congr ?_ rfl rfl
  unfold IsLeap
  omega

theorem daysBefore_add_yearLength {year : Nat} (hYear : year < 399) :
    daysBefore (year + 1) = daysBefore year + yearLength year := by
  rw [yearLength_eq (by omega), daysBefore, daysBefore]
  split <;> omega

theorem daysBefore_add_lt {year day : Nat} (hYear : year < 400) (hDay : day < yearLength year) :
    daysBefore year + day < spanDays := by
  rw [yearLength_eq hYear] at hDay
  unfold daysBefore spanDays
  split at hDay <;> omega

/-- Every day of a span lies in one of its years. -/
theorem exists_daysBefore {n : Nat} (hSpan : n < spanDays) :
    ∃ year day : Nat, year < 400 ∧ day < yearLength year ∧ n = daysBefore year + day := by
  induction n with
  | zero => exact ⟨0, 0, by decide, by decide, rfl⟩
  | succ n ih =>
    obtain ⟨year, day, hYear, hDay, rfl⟩ := ih (by omega)
    by_cases hMore : day + 1 < yearLength year
    · exact ⟨year, day + 1, hYear, hMore, rfl⟩
    · by_cases hLast : year < 399
      · have hNext := daysBefore_add_yearLength hLast
        have hLength := yearLength_cases (year + 1 : Nat)
        exact ⟨year + 1, 0, by omega, by omega, by omega⟩
      · -- The last day of a span has no day after it.
        obtain rfl : year = 399 := by omega
        have hEnd : daysBefore 399 + yearLength (399 : Nat) = spanDays := by decide
        omega

/-- The year of a day is found: one day is taken away for each leap day before it, and what a
century has fewer of is given back. -/
theorem yearOfSpan_add {year day : Nat} (hYear : year < 400) (hDay : day < yearLength year) :
    yearOfSpan (daysBefore year + day) = year := by
  have hLeap : day < 365 ∨ day = 365 ∧ year % 4 = 3 ∧ (year % 100 ≠ 99 ∨ year = 399) := by
    rw [yearLength_eq hYear] at hDay
    split at hDay <;> omega
  by_cases hLast : year = 399 ∧ day = 365
  · obtain ⟨rfl, rfl⟩ := hLast
    rfl
  · have hCenturies : (daysBefore year + day) / 36524 = year / 100 := by
      unfold daysBefore
      omega
    have hSpans : (daysBefore year + day) / 146096 = 0 := by
      unfold daysBefore
      omega
    have hLeaps : (daysBefore year + day) / 1460 = year / 4 ∨
        day ≠ 0 ∧ (daysBefore year + day) / 1460 = year / 4 + 1 := by
      unfold daysBefore
      omega
    unfold yearOfSpan
    rw [hCenturies, hSpans]
    unfold daysBefore at hLeaps ⊢
    omega

/-! ## The months of a year -/

/-- Where the next month of the year begins, or the next year. -/
def monthEnd (year : Int) (month : Nat) : Nat :=
  min (daysBeforeMonth (month + 1)) (yearLength year)

/-- The month has this day, in a year that begins in March.  Both are counted from zero. -/
structure HasDay (year : Int) (month day : Nat) : Prop where
  month_lt : month < 12
  day_lt : daysBeforeMonth month + day < monthEnd year month

theorem exists_daysBeforeMonth {year : Int} {n : Nat} (hYear : n < yearLength year) :
    ∃ month day : Nat, HasDay year month day ∧ n = daysBeforeMonth month + day := by
  have hLength := yearLength_cases year
  have hMonth : monthOfYear n < 12 := by
    unfold monthOfYear
    omega
  have hBegun : daysBeforeMonth (monthOfYear n) ≤ n := by
    unfold monthOfYear daysBeforeMonth
    omega
  refine ⟨monthOfYear n, n - daysBeforeMonth (monthOfYear n), ⟨hMonth, ?_⟩, by omega⟩
  unfold monthEnd monthOfYear daysBeforeMonth
  omega

theorem HasDay.monthOfYear_add {year : Int} {month day : Nat} (hDay : HasDay year month day) :
    monthOfYear (daysBeforeMonth month + day) = month := by
  have hLt := hDay.day_lt
  unfold monthEnd at hLt
  unfold monthOfYear
  unfold daysBeforeMonth at hLt ⊢
  omega

/-! ## Years that begin in March -/

/-- The days before a year that begins in March. -/
def marchDays (year : Int) : Int := year / 400 * spanDays + daysBefore (year % 400).toNat

theorem marchDays_eq (year : Int) :
    marchDays year = 365 * year + year / 4 - year / 100 + year / 400 := by
  unfold marchDays spanDays daysBefore
  omega

theorem marchDays_add_one (year : Int) :
    marchDays (year + 1) = marchDays year + yearLength year := by
  rw [marchDays_eq, marchDays_eq, yearLength]
  split
  · next hLeap =>
    unfold IsLeap at hLeap
    omega
  · next hCommon =>
    unfold IsLeap at hCommon
    omega

theorem marchDays_add_span (span : Int) {year : Nat} (hYear : year < 400) :
    marchDays (span * 400 + year) = span * spanDays + daysBefore year := by
  have hSpan : (span * 400 + year) / 400 = span := by omega
  have hRest : ((span * 400 + year) % 400).toNat = year := by omega
  rw [marchDays, hSpan, hRest]

/-- Every day lies in a month of a year. -/
theorem exists_marchDays (days : Int) :
    ∃ (year : Int) (month day : Nat), HasDay year month day ∧
      days = marchDays year + (daysBeforeMonth month + day : Nat) := by
  have hSpan : (days % spanDays).toNat < spanDays := by
    unfold spanDays
    omega
  obtain ⟨year, n, hYear, hLength, hRest⟩ := exists_daysBefore hSpan
  obtain ⟨month, day, ⟨hMonth, hDay⟩, rfl⟩ := exists_daysBeforeMonth hLength
  refine ⟨days / spanDays * 400 + year, month, day, ⟨hMonth, ?_⟩, ?_⟩
  · rw [monthEnd, yearLength_add_span]
    exact hDay
  · rw [marchDays_add_span _ hYear]
    unfold spanDays at hRest ⊢
    omega

end Calendar

namespace Date

open Calendar

/-- The date of a day of a month, both counted from zero, in a year that begins in March. -/
def ofMarch (year : Int) (month day : Nat) : Date :=
  { year := year + if month < 10 then 0 else 1
    month := if month < 10 then month + 3 else month - 9
    day := day + 1 }

section March

variable {year : Int} {month day : Nat}

theorem ofDays_ofMarch (hDay : HasDay year month day) :
    ofDays (marchDays year + (daysBeforeMonth month + day : Nat) - epochShift) =
      ofMarch year month day := by
  obtain ⟨span, rest, hRest, rfl⟩ : ∃ (span : Int) (rest : Nat),
      rest < 400 ∧ year = span * 400 + rest :=
    ⟨year / 400, (year % 400).toNat, by omega, by omega⟩
  have hLength : daysBeforeMonth month + day < yearLength rest := by
    rw [← yearLength_add_span span]
    exact Nat.lt_of_lt_of_le hDay.day_lt (Nat.min_le_right _ _)
  have hLt := daysBefore_add_lt hRest hLength
  have hDays : marchDays (span * 400 + rest) + (daysBeforeMonth month + day : Nat) - epochShift
      + epochShift = span * spanDays + (daysBefore rest + (daysBeforeMonth month + day) : Nat) := by
    rw [marchDays_add_span _ hRest]
    omega
  have hSpan : (span * spanDays + (daysBefore rest + (daysBeforeMonth month + day) : Nat)) /
      spanDays = span := by
    unfold spanDays at hLt ⊢
    omega
  have hInSpan : ((span * spanDays + (daysBefore rest + (daysBeforeMonth month + day) : Nat)) %
      spanDays).toNat = daysBefore rest + (daysBeforeMonth month + day) := by
    unfold spanDays at hLt ⊢
    omega
  unfold ofDays
  simp only [hDays, hSpan, hInSpan, yearOfSpan_add hRest hLength, Nat.add_sub_cancel_left,
    hDay.monthOfYear_add]
  rfl

theorem toDays_ofMarch (hMonth : month < 12) (year : Int) (day : Nat) :
    (ofMarch year month day).toDays =
      marchDays year + (daysBeforeMonth month + day : Nat) - epochShift := by
  unfold toDays ofMarch marchDays
  by_cases hEarly : month < 10
  · simp [hEarly]
    omega
  · -- January and February
    obtain rfl | rfl : month = 10 ∨ month = 11 := by omega
    · simp
      omega
    · simp
      omega

/-- The months follow one another, and the last of them ends the year. -/
theorem daysBeforeMonth_add_monthLength (hMonth : month < 12) (year : Int) (day : Nat) :
    daysBeforeMonth month
      + monthLength (ofMarch year month day).year (ofMarch year month day).month =
        monthEnd year month := by
  have hLength := yearLength_cases year
  by_cases hLast : month = 11
  · subst hLast
    show 337 + (if IsLeap (year + 1) then 29 else 28) =
      min 367 (if IsLeap (year + 1) then 366 else 365)
    split <;> rfl
  · unfold monthEnd
    interval_cases month
    all_goals simp [ofMarch, monthLength, daysBeforeMonth]
    all_goals omega

theorem valid_ofMarch (hDay : HasDay year month day) : (ofMarch year month day).Valid := by
  obtain ⟨hMonth, hLt⟩ := hDay
  rw [← daysBeforeMonth_add_monthLength hMonth year day] at hLt
  refine ⟨?_, ?_, Nat.le_add_left 1 day, Nat.lt_of_add_lt_add_left hLt⟩
  · show 1 ≤ if month < 10 then month + 3 else month - 9
    split <;> omega
  · show (if month < 10 then month + 3 else month - 9) ≤ 12
    split <;> omega

theorem Valid.exists_ofMarch {date : Date} (hValid : date.Valid) :
    ∃ (year : Int) (month day : Nat), HasDay year month day ∧ date = ofMarch year month day := by
  obtain ⟨hFirst, hLast, hDay, hLength⟩ := hValid
  have hDate : ∃ (year : Int) (month : Nat), month < 12 ∧
      date = ofMarch year month (date.day - 1) := by
    obtain ⟨year, month, day⟩ := date
    simp only at hFirst hLast hDay
    by_cases hEarly : month < 3
    · obtain rfl | rfl : month = 1 ∨ month = 2 := by omega
      · exact ⟨year - 1, 10, by decide, by simp [ofMarch, hDay]⟩
      · exact ⟨year - 1, 11, by decide, by simp [ofMarch, hDay]⟩
    · have hAfter : month - 3 < 10 := by omega
      refine ⟨year, month - 3, by omega, ?_⟩
      simp [ofMarch, hAfter, hDay]
      omega
  obtain ⟨year, month, hMonth, hSame⟩ := hDate
  refine ⟨year, month, date.day - 1, ⟨hMonth, ?_⟩, hSame⟩
  rw [← daysBeforeMonth_add_monthLength hMonth year (date.day - 1), ← hSame]
  omega

theorem next_ofMarch
    (hMore : day + 1 < monthLength (ofMarch year month day).year (ofMarch year month day).month) :
    (ofMarch year month day).next = ofMarch year month (day + 1) := if_pos hMore

theorem next_ofMarch_last (hMonth : month < 12)
    (hLast : ¬ day + 1 < monthLength (ofMarch year month day).year (ofMarch year month day).month) :
    (ofMarch year month day).next =
      if month = 11 then ofMarch (year + 1) 0 0 else ofMarch year (month + 1) 0 := by
  refine (if_neg hLast).trans ?_
  interval_cases month
  all_goals simp [ofMarch]

end March

/-! ## Days and dates -/

/-- Days are counted by the rules of the calendar. -/
theorem toDays_next {date : Date} (hValid : date.Valid) : date.next.toDays = date.toDays + 1 := by
  obtain ⟨year, month, day, ⟨hMonth, hDay⟩, rfl⟩ := hValid.exists_ofMarch
  have hLength := daysBeforeMonth_add_monthLength hMonth year day
  have hYear := yearLength_cases year
  rw [toDays_ofMarch hMonth]
  by_cases hMore :
      day + 1 < monthLength (ofMarch year month day).year (ofMarch year month day).month
  · rw [next_ofMarch hMore, toDays_ofMarch hMonth]
    omega
  · rw [next_ofMarch_last hMonth hMore]
    unfold monthEnd at hLength hDay
    by_cases hLast : month = 11
    · subst hLast
      rw [if_pos rfl, toDays_ofMarch (by decide), marchDays_add_one]
      unfold daysBeforeMonth at *
      omega
    · rw [if_neg hLast, toDays_ofMarch (by omega)]
      unfold daysBeforeMonth at *
      omega

theorem ofDays_toDays {date : Date} (hValid : date.Valid) : ofDays date.toDays = date := by
  obtain ⟨year, month, day, hDay, rfl⟩ := hValid.exists_ofMarch
  rw [toDays_ofMarch hDay.month_lt, ofDays_ofMarch hDay]

/-- The date of a day is one of the calendar, and it is the date of this day only. -/
theorem ofDays_spec (days : Int) : (ofDays days).Valid ∧ (ofDays days).toDays = days := by
  obtain ⟨year, month, day, hDay, hSum⟩ := exists_marchDays (days + epochShift)
  obtain rfl : days = marchDays year + (daysBeforeMonth month + day : Nat) - epochShift := by omega
  rw [ofDays_ofMarch hDay, toDays_ofMarch hDay.month_lt]
  exact ⟨valid_ofMarch hDay, rfl⟩

theorem valid_ofDays (days : Int) : (ofDays days).Valid := (ofDays_spec days).1

theorem toDays_ofDays (days : Int) : (ofDays days).toDays = days := (ofDays_spec days).2

/-- **The date of the next day is the next date.** -/
theorem ofDays_add_one (days : Int) : ofDays (days + 1) = (ofDays days).next := by
  have hValid := valid_ofDays days
  calc ofDays (days + 1) = ofDays ((ofDays days).toDays + 1) := by rw [toDays_ofDays]
    _ = ofDays (ofDays days).next.toDays := by rw [toDays_next hValid]
    _ = (ofDays days).next := ofDays_toDays (valid_next hValid)

theorem toDays_epoch : toDays ⟨1970, 1, 1⟩ = 0 := by decide

end Date

/-! ## Weekdays -/

namespace Calendar

theorem weekday_lt (day : Int) : weekday day < 7 := by
  unfold weekday
  omega

theorem weekday_zero : weekday 0 = 4 := by decide

theorem weekday_add_one (day : Int) : weekday (day + 1) = (weekday day + 1) % 7 := by
  unfold weekday
  omega

end Calendar

end PacketLog
