import PacketLog.Text.Escaped

/-!
# Entries

A committed packet: a byte string that never changes again.
-/

namespace PacketLog

abbrev Entry := Bytes

/-- The entry on one line of readable text. -/
def Entry.readable (entry : Entry) : String :=
  "Entry(" ++ Text.escaped entry ++ ")"

end PacketLog
