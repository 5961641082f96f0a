import PacketLog.Calendar
import PacketLog.Entry
import PacketLog.Error

/-!
# Timestamp records

A timestamp record is one line of text: `timestamp:` and the date of a moment in
the form of a mail header, such as `Thu, 01 Jan 1970 00:00:00 +0000`.  Years
before 1900 and offsets that are no whole minutes have no such form.
-/

namespace PacketLog

/-- A second, and the offset from universal time at which it is shown. -/
structure Moment where
  /-- Seconds since the beginning of 1 January 1970, universal time. -/
  unix : Int
  /-- Seconds that local time is ahead. -/
  offset : Int := 0
deriving DecidableEq

namespace Moment

def secondsPerDay : Int := 86400

/-- Local seconds since the beginning of 1 January 1970, local time. -/
def localSeconds (moment : Moment) : Int := moment.unix + moment.offset

/-- The local day. -/
def localDay (moment : Moment) : Int := moment.localSeconds / secondsPerDay

/-- The seconds since local midnight. -/
def secondOfDay (moment : Moment) : Nat := (moment.localSeconds % secondsPerDay).toNat

def date (moment : Moment) : Date := .ofDays moment.localDay

/-- Whether a second lies in the years from -9999 to 9999. -/
def inRange (second : Int) : Bool := -377705116800 ≤ second && second ≤ 253402300799

/-- The first number of seconds that is no offset: 26 hours. -/
def offsetBound : Nat := 93600

end Moment

namespace Timestamp

/-- The first year that can be shown. -/
def firstYear : Int := 1900

/-- At least `width` digits, with zeros in front. -/
def padded (width n : Nat) : String :=
  let digits := toString n
  String.ofList (List.replicate (width - digits.length) '0') ++ digits

def sign (offset : Int) : String := if offset < 0 then "-" else "+"

def dateText (date : Date) (weekday : Nat) : String :=
  Calendar.weekdayNames.getD weekday "" ++ ", " ++ padded 2 date.day ++ " "
    ++ Calendar.monthNames.getD (date.month - 1) "" ++ " " ++ padded 4 date.year.toNat

def timeText (second : Nat) : String :=
  padded 2 (second / 3600) ++ ":" ++ padded 2 (second / 60 % 60) ++ ":" ++ padded 2 (second % 60)

def offsetText (offset : Int) : String :=
  sign offset ++ padded 2 (offset.natAbs / 3600) ++ padded 2 (offset.natAbs / 60 % 60)

def momentText (moment : Moment) : String :=
  dateText moment.date (Calendar.weekday moment.localDay) ++ " " ++ timeText moment.secondOfDay
    ++ " " ++ offsetText moment.offset

/-- A part of the moment that the format has no place for. -/
def unformattable (component : String) : Error :=
  (Error.ofMessage .internal "failed to format timestamp").withCauses
    ["The " ++ component ++ " component cannot be formatted into the requested format."]

def record (moment : Moment) : Except Error String :=
  if moment.date.year < firstYear then .error (unformattable "year")
  else if moment.offset.natAbs % 60 ≠ 0 then .error (unformattable "offset_second")
  else .ok ("timestamp:" ++ momentText moment ++ "\n")

/-- The bytes of a record. -/
def entry (record : String) : Entry := record.toList.flatMap String.utf8EncodeChar

end Timestamp

end PacketLog
