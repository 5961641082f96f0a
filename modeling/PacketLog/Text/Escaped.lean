import PacketLog.Text.Digits
import PacketLog.Text.Printable
import PacketLog.Text.Utf8

/-!
# Bytes as readable text

Every byte stream can be shown between quotes on one line: printable characters
stand for themselves, all else is escaped.
-/

namespace PacketLog.Text

def escapedByte (n : Nat) : String := "\\x" ++ hexByte n

def escapedChar (c : Char) : String :=
  if c = Char.ofNat 0 then "\\0"
  else if c = '\t' then "\\t"
  else if c = '\n' then "\\n"
  else if c = '\r' then "\\r"
  else if c = '"' then "\\\""
  else if c = '\'' then "\\'"
  else if c = '\\' then "\\\\"
  else if c.toNat < 0x20 ∨ c.toNat = 0x7F then escapedByte c.toNat
  else if printable c then c.toString
  else "\\u\x7b" ++ hexDigits c.toNat ++ "\x7d"

def escapedPiece : Utf8.Piece → String
  | .char c => escapedChar c
  | .stray b => escapedByte b.toNat

/-- The bytes between quotes. -/
def escaped (s : Bytes) : String :=
  "\"" ++ String.join ((Utf8.decode s).map escapedPiece) ++ "\""

end PacketLog.Text
