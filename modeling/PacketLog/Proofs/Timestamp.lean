import PacketLog.Timestamp
import PacketLog.Proofs.Lines

/-!
# A timestamp record is one line

No part of the text of a record holds a newline, and in UTF-8 only a newline is
written with the byte of one, so that the bytes of a record are a line.
-/

namespace PacketLog.Timestamp

open Bytes

/-- Every byte of a longer form is at least 128. -/
theorem newline_not_mem_utf8EncodeChar {c : Char} (hChar : c ≠ '\n') :
    newline ∉ String.utf8EncodeChar c := by
  have hVal : c.val.toNat ≠ 10 := fun h => hChar (Char.ext (UInt32.toNat_inj.mp h))
  have hByte : ∀ n : Nat, n % 256 ≠ 10 → newline ≠ UInt8.ofNat n := fun n hn h =>
    hn (congrArg UInt8.toNat h).symm
  unfold String.utf8EncodeChar
  dsimp only
  split
  · rw [List.mem_singleton]
    exact hByte _ (by omega)
  · split
    · simp only [List.mem_cons, List.not_mem_nil, or_false, not_or]
      exact ⟨hByte _ (by omega), hByte _ (by omega)⟩
    · split
      · simp only [List.mem_cons, List.not_mem_nil, or_false, not_or]
        exact ⟨hByte _ (by omega), hByte _ (by omega), hByte _ (by omega)⟩
      · simp only [List.mem_cons, List.not_mem_nil, or_false, not_or]
        exact ⟨hByte _ (by omega), hByte _ (by omega), hByte _ (by omega), hByte _ (by omega)⟩

/-- There is no newline in the text. -/
def OneLine (text : String) : Prop := '\n' ∉ text.toList

instance (text : String) : Decidable (OneLine text) :=
  inferInstanceAs (Decidable ('\n' ∉ text.toList))

theorem OneLine.append {s t : String} (hs : OneLine s) (ht : OneLine t) : OneLine (s ++ t) := by
  rw [OneLine, String.toList_append, List.mem_append, not_or]
  exact ⟨hs, ht⟩

theorem oneLine_getD {texts : List String} (hTexts : ∀ text ∈ texts, OneLine text) (i : Nat) :
    OneLine (texts.getD i "") := by
  rw [List.getD_eq_getElem?_getD]
  cases hGet : texts[i]? with
  | none => exact List.not_mem_nil
  | some text => exact hTexts text (List.mem_of_getElem? hGet)

theorem toList_padded (width n : Nat) :
    (padded width n).toList =
      List.replicate (width - (Nat.toDigits 10 n).length) '0' ++ Nat.toDigits 10 n := by
  simp [padded, Nat.toString_eq_repr, Nat.toList_repr, ← String.length_toList]

theorem isDigit_of_mem_padded {width n : Nat} {c : Char} (hMem : c ∈ (padded width n).toList) :
    c.isDigit := by
  rw [toList_padded, List.mem_append] at hMem
  rcases hMem with hZero | hDigit
  · rw [List.eq_of_mem_replicate hZero]
    rfl
  · exact Nat.isDigit_of_mem_toDigits (by decide) (by decide) hDigit

theorem not_mem_padded {c : Char} (hChar : c.isDigit = false) (width n : Nat) :
    c ∉ (padded width n).toList := by
  intro hMem
  rw [isDigit_of_mem_padded hMem] at hChar
  cases hChar

theorem oneLine_padded (width n : Nat) : OneLine (padded width n) :=
  not_mem_padded (by decide) width n

theorem oneLine_dateText (date : Date) (weekday : Nat) : OneLine (dateText date weekday) := by
  have hWeekdays : ∀ text ∈ Calendar.weekdayNames, OneLine text := by decide
  have hMonths : ∀ text ∈ Calendar.monthNames, OneLine text := by decide
  have hSpace : OneLine " " := by decide
  have hDay : OneLine (Calendar.weekdayNames.getD weekday "" ++ ", " ++ padded 2 date.day) :=
    ((oneLine_getD hWeekdays _).append (by decide)).append (oneLine_padded _ _)
  have hMonth : OneLine (Calendar.monthNames.getD (date.month - 1) "") := oneLine_getD hMonths _
  exact (((hDay.append hSpace).append hMonth).append hSpace).append (oneLine_padded _ _)

theorem oneLine_timeText (second : Nat) : OneLine (timeText second) := by
  have hColon : OneLine ":" := by decide
  exact ((((oneLine_padded _ _).append hColon).append (oneLine_padded _ _)).append hColon).append
    (oneLine_padded _ _)

theorem oneLine_offsetText (offset : Int) : OneLine (offsetText offset) := by
  have hSign : OneLine (sign offset) := by
    rw [sign]
    split <;> decide
  exact (hSign.append (oneLine_padded _ _)).append (oneLine_padded _ _)

theorem oneLine_momentText (moment : Moment) : OneLine (momentText moment) := by
  have hSpace : OneLine " " := by decide
  exact ((((oneLine_dateText _ _).append hSpace).append (oneLine_timeText _)).append hSpace).append
    (oneLine_offsetText _)

/-- **The bytes of a record are a line.** -/
theorem isLine_entry {moment : Moment} {text : String} (hRecord : record moment = .ok text) :
    IsLine (entry text) := by
  unfold record at hRecord
  split at hRecord
  · cases hRecord
  · split at hRecord
    · cases hRecord
    · obtain rfl := Except.ok.inj hRecord
      have hText : OneLine ("timestamp:" ++ momentText moment) :=
        OneLine.append (by decide) (oneLine_momentText moment)
      refine ⟨("timestamp:" ++ momentText moment).toList.flatMap String.utf8EncodeChar, ?_, ?_⟩
      · rw [List.mem_flatMap]
        rintro ⟨c, hChar, hByte⟩
        exact newline_not_mem_utf8EncodeChar (fun h => hText (h ▸ hChar)) hByte
      · rw [entry, String.toList_append, List.flatMap_append]
        rfl

end PacketLog.Timestamp
