import PacketLog.Proofs.Assembler.Chunks
import PacketLog.Proofs.Calendar
import PacketLog.Proofs.Timestamp

/-!
# Reading a timestamp record back

`Timestamp.read?` takes a record apart at its spaces and colons and reads the words: numbers by
their digits, the weekday and the month by the names that a mail header has for them, the offset as
a sign with hours and minutes.  `read?_text` says that it finds the local date and time of the
moment, to the second, and the offset, so that the moment itself can be told from them
(`Fields.unix`).
-/

namespace PacketLog

/-- The moment that an instant shows as.  What it has beyond a whole second is not shown. -/
def Moment.ofNanos (nanos : Int) (offset : Int) : Moment :=
  { unix := nanos / 1000000000, offset := offset }

namespace Timestamp

open Bytes

structure Fields where
  /-- Counted from Sunday. -/
  weekday : Nat
  date : Date
  hour : Nat
  minute : Nat
  second : Nat
  /-- Seconds that local time is ahead. -/
  offset : Int
deriving DecidableEq

/-- The second that is meant, counted as in `Moment.unix`. -/
def Fields.unix (fields : Fields) : Int :=
  fields.date.toDays * Moment.secondsPerDay
    + (fields.hour * 3600 + fields.minute * 60 + fields.second : Nat) - fields.offset

def number? (word : List Char) : Option Nat :=
  if 0 < word.length ∧ word.all Char.isDigit then some (Nat.ofDigitChars 10 word 0) else none

/-- The weekday, counted from Sunday, that the first word of a record names. -/
def weekday? (word : List Char) : Option Nat :=
  ["timestamp:Sun,", "timestamp:Mon,", "timestamp:Tue,", "timestamp:Wed,", "timestamp:Thu,",
    "timestamp:Fri,", "timestamp:Sat,"].idxOf? (String.ofList word)

/-- The month, from 1 to 12, of a name. -/
def month? (word : List Char) : Option Nat :=
  (["Jan", "Feb", "Mar", "Apr", "May", "Jun", "Jul", "Aug", "Sep", "Oct", "Nov", "Dec"].idxOf?
    (String.ofList word)).map (· + 1)

def time? (word : List Char) : Option (Nat × Nat × Nat) :=
  match word.splitOn ':' with
  | [hour, minute, second] => return (← number? hour, ← number? minute, ← number? second)
  | _ => none

/-- The seconds of an offset written as a sign, hours and minutes. -/
def offset? : List Char → Option Int
  | mark :: digits => (number? digits).bind fun n =>
    let seconds : Int := (n / 100 * 3600 + n % 100 * 60 : Nat)
    if mark = '+' then some seconds else if mark = '-' then some (-seconds) else none
  | [] => none

def readLine? (line : List Char) : Option Fields :=
  match line.splitOn ' ' with
  | [weekday, day, month, year, time, offset] => do
    let (hour, minute, second) ← time? time
    return { weekday := ← weekday? weekday
             date := { year := ← number? year, month := ← month? month, day := ← number? day }
             hour := hour, minute := minute, second := second
             offset := ← offset? offset }
  | _ => none

/-- Reads a record, which is one line of text. -/
def read? (text : String) : Option Fields :=
  match text.toList.splitOn '\n' with
  | [line, []] => readLine? line
  | _ => none

/-! ## Numbers -/

theorem number?_padded (width n : Nat) : number? (padded width n).toList = some n := by
  have hPos : 0 < (padded width n).toList.length := by
    rw [toList_padded, List.length_append]
    exact Nat.add_pos_right _ Nat.length_toDigits_pos
  have hDigits : (padded width n).toList.all Char.isDigit = true :=
    List.all_eq_true.mpr fun c => isDigit_of_mem_padded
  rw [number?, if_pos ⟨hPos, hDigits⟩, toList_padded, Nat.ofDigitChars_append,
    Nat.ofDigitChars_replicate_zero, Nat.mul_zero, Nat.ofDigitChars_ten_toDigits]

/-- Digits before a number stand for so many of its next power of ten. -/
theorem number?_append {first second : List Char} {m n : Nat} (hFirst : number? first = some m)
    (hSecond : number? second = some n) :
    number? (first ++ second) = some (10 ^ second.length * m + n) := by
  obtain ⟨⟨hPos, hDigits⟩, hValue⟩ := Option.ite_none_right_eq_some.mp hFirst
  obtain ⟨⟨-, hLater⟩, hRest⟩ := Option.ite_none_right_eq_some.mp hSecond
  obtain rfl := Option.some.inj hValue
  obtain rfl := Option.some.inj hRest
  have hBoth : (first ++ second).all Char.isDigit = true := by
    rw [List.all_append, hDigits, hLater, Bool.and_self]
  have hLength : 0 < (first ++ second).length := by
    rw [List.length_append]
    exact Nat.add_pos_left hPos _
  rw [number?, if_pos ⟨hLength, hBoth⟩, Nat.ofDigitChars_append,
    Nat.ofDigitChars_eq_ofDigitChars_zero]

theorem length_padded_two {n : Nat} (hn : n < 100) : (padded 2 n).toList.length = 2 := by
  have hDigits : (Nat.toDigits 10 n).length ≤ 2 :=
    (Nat.length_toDigits_le_iff (by decide) (by decide)).mpr hn
  have hPos : 0 < (Nat.toDigits 10 n).length := Nat.length_toDigits_pos
  rw [toList_padded, List.length_append, List.length_replicate]
  omega

/-! ## Words -/

theorem time?_timeText (second : Nat) :
    time? (timeText second).toList = some (second / 3600, second / 60 % 60, second % 60) := by
  have hColon := not_mem_padded (c := ':') (by decide) 2
  have hText : (timeText second).toList = [':'].intercalate
      [(padded 2 (second / 3600)).toList, (padded 2 (second / 60 % 60)).toList,
        (padded 2 (second % 60)).toList] := by
    simp [timeText, List.intercalate]
  have hSplit : (timeText second).toList.splitOn ':' =
      [(padded 2 (second / 3600)).toList, (padded 2 (second / 60 % 60)).toList,
        (padded 2 (second % 60)).toList] := by
    rw [hText]
    refine List.splitOn_intercalate ':' ?_ (List.cons_ne_nil _ _)
    simp only [List.forall_mem_cons]
    exact ⟨hColon _, hColon _, hColon _, nofun⟩
  rw [time?, hSplit]
  simp only [number?_padded]
  rfl

theorem offset?_offsetText {offset : Int} (hMinutes : offset.natAbs % 60 = 0) :
    offset? (offsetText offset).toList = some offset := by
  let hours := offset.natAbs / 3600
  let minutes := offset.natAbs / 60 % 60
  have hText : (offsetText offset).toList = (if offset < 0 then '-' else '+') ::
      ((padded 2 hours).toList ++ (padded 2 minutes).toList) := by
    by_cases hSign : offset < 0 <;> simp [offsetText, sign, hSign, hours, minutes]
  have hDigits : number? ((padded 2 hours).toList ++ (padded 2 minutes).toList) =
      some (100 * hours + minutes) := by
    rw [number?_append (number?_padded _ _) (number?_padded _ _), length_padded_two (by omega)]
    rfl
  have hSeconds : (100 * hours + minutes) / 100 * 3600 + (100 * hours + minutes) % 100 * 60 =
      offset.natAbs := by omega
  rw [hText, offset?, hDigits, Option.bind_some, hSeconds]
  by_cases hSign : offset < 0
  · rw [if_pos hSign, if_neg (by decide), if_pos rfl]
    exact congrArg some (by omega)
  · rw [if_neg hSign, if_pos rfl]
    exact congrArg some (by omega)

theorem weekday?_heading {weekday : Nat} (hWeekday : weekday < 7) :
    weekday? ("timestamp:" ++ Calendar.weekdayNames.getD weekday "" ++ ",").toList =
      some weekday := by
  interval_cases weekday <;> decide

theorem month?_name {month : Nat} (hPos : 1 ≤ month) (hLe : month ≤ 12) :
    month? (Calendar.monthNames.getD (month - 1) "").toList = some month := by
  interval_cases month <;> decide

def words (moment : Moment) : List String :=
  ["timestamp:" ++ Calendar.weekdayNames.getD (Calendar.weekday moment.localDay) "" ++ ",",
    padded 2 moment.date.day, Calendar.monthNames.getD (moment.date.month - 1) "",
    padded 4 moment.date.year.toNat, timeText moment.secondOfDay, offsetText moment.offset]

theorem toList_line (moment : Moment) : ("timestamp:" ++ momentText moment).toList =
    [' '].intercalate ((words moment).map String.toList) := by
  simp [words, momentText, dateText, List.intercalate]

theorem valid_date (moment : Moment) : moment.date.Valid := Date.valid_ofDays moment.localDay

theorem space_not_mem_words (moment : Moment) :
    ∀ word ∈ (words moment).map String.toList, ' ' ∉ word := by
  have hPadded := not_mem_padded (c := ' ') (by decide)
  have hWeekdays : ∀ i < 7,
      ' ' ∉ ("timestamp:" ++ Calendar.weekdayNames.getD i "" ++ ",").toList := by
    decide
  have hMonths : ∀ i < 12, ' ' ∉ (Calendar.monthNames.getD i "").toList := by decide
  have hMonth := hMonths (moment.date.month - 1) (by have := (valid_date moment).month_le; omega)
  have hTime : ' ' ∉ (timeText moment.secondOfDay).toList := by
    simp [timeText, hPadded]
  have hOffset : ' ' ∉ (offsetText moment.offset).toList := by
    by_cases hSign : moment.offset < 0 <;> simp [offsetText, sign, hSign, hPadded]
  simp only [words, List.map_cons, List.map_nil, List.forall_mem_cons]
  exact ⟨hWeekdays _ (Calendar.weekday_lt _), hPadded _ _, hMonth, hPadded _ _, hTime, hOffset,
    List.forall_mem_nil _⟩

/-! ## Records -/

def fieldsOf (moment : Moment) : Fields :=
  { weekday := Calendar.weekday moment.localDay
    date := moment.date
    hour := moment.secondOfDay / 3600
    minute := moment.secondOfDay / 60 % 60
    second := moment.secondOfDay % 60
    offset := moment.offset }

theorem read?_text {moment : Moment} (hYear : firstYear ≤ moment.date.year)
    (hOffset : moment.offset.natAbs % 60 = 0) :
    read? ("timestamp:" ++ momentText moment ++ "\n") = some (fieldsOf moment) := by
  have hLine : '\n' ∉ ("timestamp:" ++ momentText moment).toList :=
    OneLine.append (by decide) (oneLine_momentText moment)
  have hText : ("timestamp:" ++ momentText moment ++ "\n").toList =
      ['\n'].intercalate [("timestamp:" ++ momentText moment).toList, []] := by
    simp [List.intercalate]
  have hDigits : ((moment.date.year.toNat : Nat) : Int) = moment.date.year := by
    unfold firstYear at hYear
    omega
  have hValid := valid_date moment
  rw [read?, hText, List.splitOn_intercalate '\n' (by simpa using hLine) (List.cons_ne_nil _ _)]
  show readLine? _ = _
  rw [toList_line, readLine?,
    List.splitOn_intercalate ' ' (space_not_mem_words moment) (List.cons_ne_nil _ _)]
  simp only [words, List.map_cons, List.map_nil, time?_timeText,
    weekday?_heading (Calendar.weekday_lt _), number?_padded,
    month?_name hValid.month_pos hValid.month_le, offset?_offsetText hOffset]
  simp [fieldsOf, hDigits]

theorem unix_fieldsOf (moment : Moment) : (fieldsOf moment).unix = moment.unix := by
  have hDays : moment.date.toDays = moment.localDay := Date.toDays_ofDays _
  have hSecond : moment.secondOfDay / 3600 * 3600 + moment.secondOfDay / 60 % 60 * 60
      + moment.secondOfDay % 60 = moment.secondOfDay := by omega
  show moment.date.toDays * Moment.secondsPerDay + (moment.secondOfDay / 3600 * 3600
    + moment.secondOfDay / 60 % 60 * 60 + moment.secondOfDay % 60 : Nat) - moment.offset = _
  rw [hDays, hSecond]
  unfold Moment.localDay Moment.secondOfDay Moment.localSeconds Moment.secondsPerDay
  omega

/-- Whether the format has a place for every part of the moment. -/
def Shows (moment : Moment) : Prop := firstYear ≤ moment.date.year ∧ 60 ∣ moment.offset

theorem record_cases (moment : Moment) :
    Shows moment ∧ record moment = .ok ("timestamp:" ++ momentText moment ++ "\n") ∨
      ¬ Shows moment ∧ ∃ component, record moment = .error (unformattable component) := by
  unfold record Shows
  by_cases hYear : moment.date.year < firstYear
  · exact Or.inr ⟨fun hShows => by omega, _, if_pos hYear⟩
  · rw [if_neg hYear]
    by_cases hOffset : moment.offset.natAbs % 60 ≠ 0
    · exact Or.inr ⟨fun hShows => by omega, _, if_pos hOffset⟩
    · exact Or.inl ⟨⟨by omega, by omega⟩, if_neg hOffset⟩

/-- **A record can be read back.** -/
theorem read?_record {moment : Moment} {text : String} (hRecord : record moment = .ok text) :
    read? text = some (fieldsOf moment) := by
  obtain ⟨⟨hYear, hOffset⟩, hText⟩ | ⟨-, component, hError⟩ := record_cases moment
  · obtain rfl := Except.ok.inj (hText.symm.trans hRecord)
    exact read?_text hYear (by omega)
  · rw [hError] at hRecord
    cases hRecord

/-- However it is cut, a record is one packet, and nothing stays behind. -/
theorem feedChunks_record {moment : Moment} {text : String} (hRecord : record moment = .ok text)
    {chunks : List Bytes} (hChunks : chunks.flatten = entry text) :
    ∃ after, Assembler.feedChunks {} chunks = (([entry text], none), after) ∧
      after.pending = [] := by
  have hLine : IsLine (entry text) := isLine_entry hRecord
  have hLines : lines (entry text) = [entry text] := by
    rw [← List.append_nil (entry text), lines_line_append hLine, List.append_nil]
    rfl
  have hRest : unterminated (entry text) = [] := by
    rw [← List.append_nil (entry text), unterminated_line_append hLine]
    rfl
  have hDelivers : Assembler.Delivers none chunks.flatten (Assembler.feedChunks {} chunks) :=
    Assembler.delivers_feedChunks {} rfl rfl chunks
  rw [hChunks] at hDelivers
  rcases hFeed : Assembler.feedChunks {} chunks with ⟨⟨packets, failure⟩, after⟩
  rw [hFeed] at hDelivers
  have hFailure : failure = none := hDelivers.failure_eq_none_iff.mpr (Assembler.admissible_none _)
  have hPackets : packets = [entry text] := by
    have hAdmitted := Assembler.admitted_eq_lines (Assembler.admissible_none (entry text))
    exact hDelivers.packets_eq.trans (hAdmitted.trans hLines)
  refine ⟨after, by rw [hFailure, hPackets], ?_⟩
  exact (hDelivers.pending_eq hFailure).trans hRest

theorem exists_error_iff (moment : Moment) : (∃ error, record moment = .error error) ↔
    moment.date.year < 1900 ∨ ¬ 60 ∣ moment.offset := by
  have hShows : Shows moment ↔ ¬ (moment.date.year < 1900 ∨ ¬ 60 ∣ moment.offset) := by
    unfold Shows firstYear
    omega
  obtain ⟨hGood, hOk⟩ | ⟨hBad, component, hError⟩ := record_cases moment
  · simp [hOk, hShows.mp hGood]
  · have hRefused := not_not.mp fun h => hBad (hShows.mpr h)
    exact ⟨fun _ => hRefused, fun _ => ⟨_, hError⟩⟩

theorem kind_of_error {moment : Moment} {error : Error} (hRecord : record moment = .error error) :
    error.kind = .internal := by
  obtain ⟨-, hOk⟩ | ⟨-, component, hError⟩ := record_cases moment
  · rw [hOk] at hRecord
    cases hRecord
  · obtain rfl := Except.error.inj (hError.symm.trans hRecord)
    rfl

theorem secondOfDay_lt (moment : Moment) : moment.secondOfDay < 86400 := by
  unfold Moment.secondOfDay Moment.secondsPerDay
  omega

/-- **A record is one packet, and it tells its second.**  There is no record of a year before 1900,
nor at an offset that is no whole number of minutes; every other instant has one, at every offset.
However the bytes of a record are cut, an assembler without a limit makes one packet of them and
keeps nothing.  Its fields are a date of the calendar with its weekday, a time of day and the
offset, and together they are the instant, to the second below it.  So no two seconds have the same
record at one offset.

The days of dates are counted from 1 January 1970, a Thursday, by the rules of the calendar, and the
weekdays go round with them. -/
theorem record_tells_second (nanos offset : Int) :
    ((∃ error, record (Moment.ofNanos nanos offset) = .error error) ↔
      (Moment.ofNanos nanos offset).date.year < 1900 ∨ ¬ 60 ∣ offset) ∧
    (∀ error, record (Moment.ofNanos nanos offset) = .error error → error.kind = .internal) ∧
    (∀ text, record (Moment.ofNanos nanos offset) = .ok text →
      (∀ chunks : List Bytes, chunks.flatten = entry text →
        ∃ after, Assembler.feedChunks {} chunks = (([entry text], none), after) ∧
          after.pending = []) ∧
      ∃ fields, read? text = some fields ∧
        fields.unix = nanos / 1000000000 ∧ fields.offset = offset ∧
        fields.date.Valid ∧ fields.weekday = Calendar.weekday fields.date.toDays ∧
        fields.hour < 24 ∧ fields.minute < 60 ∧ fields.second < 60) ∧
    (∀ other text, record (Moment.ofNanos nanos offset) = .ok text →
      record (Moment.ofNanos other offset) = .ok text →
        other / 1000000000 = nanos / 1000000000) ∧
    (Date.toDays ⟨1970, 1, 1⟩ = 0 ∧
      ∀ date : Date, date.Valid → date.next.Valid ∧ date.next.toDays = date.toDays + 1) ∧
    (Calendar.weekday 0 = 4 ∧
      ∀ day, Calendar.weekday (day + 1) = (Calendar.weekday day + 1) % 7) := by
  refine ⟨exists_error_iff _, fun error hRecord => kind_of_error hRecord, ?_, ?_, ?_, ?_⟩
  · intro text hRecord
    have hDays := Date.toDays_ofDays (Moment.ofNanos nanos offset).localDay
    have hSecond := secondOfDay_lt (Moment.ofNanos nanos offset)
    refine ⟨fun chunks hChunks => feedChunks_record hRecord hChunks, fieldsOf _,
      read?_record hRecord, unix_fieldsOf _, rfl, valid_date _, ?_, ?_, ?_, ?_⟩
    · exact congrArg Calendar.weekday hDays.symm
    · exact Nat.div_lt_of_lt_mul hSecond
    · exact Nat.mod_lt _ (by decide)
    · exact Nat.mod_lt _ (by decide)
  · intro other text hRecord hOther
    have hFields := (read?_record hRecord).symm.trans (read?_record hOther)
    have hUnix := congrArg Fields.unix (Option.some.inj hFields)
    rw [unix_fieldsOf, unix_fieldsOf] at hUnix
    exact hUnix.symm
  · exact ⟨Date.toDays_epoch, fun _ hValid => ⟨Date.valid_next hValid, Date.toDays_next hValid⟩⟩
  · exact ⟨Calendar.weekday_zero, Calendar.weekday_add_one⟩

/-- Half a second after two o'clock on 1 March, universal time, the leap day is not yet over three
and a half hours behind. -/
theorem record_tells_second_of_leap_day :
    let moment := Moment.ofNanos 951876000500000000 (-12600)
    let text := "timestamp:Tue, 29 Feb 2000 22:30:00 -0330\n"
    record moment = .ok text ∧
      (∃ after, Assembler.feedChunks {} [entry text] = (([entry text], none), after) ∧
        after.pending = []) ∧
      (∃ fields, read? text = some fields ∧ fields.unix = 951876000 ∧
        fields.date = { year := 2000, month := 2, day := 29 } ∧ fields.weekday = 2) ∧
      record (Moment.ofNanos 951876001000000000 (-12600)) ≠ .ok text := by
  intro moment text
  have hRecord : record moment = .ok text := by decide +kernel
  obtain ⟨-, -, hOk, hSame, -⟩ := record_tells_second 951876000500000000 (-12600)
  obtain ⟨hPacket, fields, hRead, hUnix, -, -, hWeekday, -⟩ := hOk text hRecord
  have hFields := Option.some.inj (hRead.symm.trans (read?_record hRecord))
  have hDate : (fieldsOf moment).date = { year := 2000, month := 2, day := 29 } := by
    decide +kernel
  rw [← hFields] at hDate
  rw [hDate] at hWeekday
  refine ⟨hRecord, hPacket [entry text] List.flatten_singleton,
    ⟨fields, hRead, hUnix, hDate, hWeekday.trans (by decide)⟩, ?_⟩
  intro hOther
  exact absurd (hSame _ text hRecord hOther) (by decide)

end Timestamp

end PacketLog
