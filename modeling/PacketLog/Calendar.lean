/-!
# The calendar

Days are counted from 1 January 1970.  A date is found from its day by counting
in spans of 400 years, which begin on 1 March so that the leap day comes last.
-/

namespace PacketLog

structure Date where
  year : Int
  /-- From 1 to 12. -/
  month : Nat
  /-- From 1 to 31. -/
  day : Nat
deriving DecidableEq

namespace Calendar

/-- The days in 400 years. -/
def spanDays : Nat := 146097

/-- The days from 1 March of the year 0 to the day 0. -/
def epochShift : Int := 719468

/-- The year within a span, beginning in March, in which the day `n` of the span lies. -/
def yearOfSpan (n : Nat) : Nat := (n - n / 1460 + n / 36524 - n / 146096) / 365

/-- The days of a span before the March of its year `year`. -/
def daysBefore (year : Nat) : Nat := 365 * year + year / 4 - year / 100

/-- The months from March to the one in which the day `n` of such a year lies. -/
def monthOfYear (n : Nat) : Nat := (5 * n + 2) / 153

/-- The days from 1 March to the first of the month that is `month` months later. -/
def daysBeforeMonth (month : Nat) : Nat := (153 * month + 2) / 5

end Calendar

namespace Date

open Calendar

/-- The date of a day. -/
def ofDays (days : Int) : Date :=
  let shifted := days + epochShift
  let span := shifted / (spanDays : Int)
  let inSpan := (shifted % (spanDays : Int)).toNat
  let year := yearOfSpan inSpan
  let inYear := inSpan - daysBefore year
  let month := monthOfYear inYear
  { year := span * 400 + year + (if month < 10 then 0 else 1)
    month := if month < 10 then month + 3 else month - 9
    day := inYear - daysBeforeMonth month + 1 }

/-- The day of a date. -/
def toDays (date : Date) : Int :=
  let year := if date.month < 3 then date.year - 1 else date.year
  let month := if date.month < 3 then date.month + 9 else date.month - 3
  let inSpan := daysBefore (year % 400).toNat + daysBeforeMonth month + date.day - 1
  year / 400 * (spanDays : Int) + (inSpan : Int) - epochShift

end Date

namespace Calendar

def weekdayNames : List String := ["Sun", "Mon", "Tue", "Wed", "Thu", "Fri", "Sat"]

def monthNames : List String :=
  ["Jan", "Feb", "Mar", "Apr", "May", "Jun", "Jul", "Aug", "Sep", "Oct", "Nov", "Dec"]

/-- The weekday of a day, counted from Sunday; the day 0 was a Thursday. -/
def weekday (days : Int) : Nat := ((days + 4) % 7).toNat

end Calendar

end PacketLog
