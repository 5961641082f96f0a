import PacketLog.Bytes

/-!
# Reading bytes as UTF-8

`decode` reads a byte stream as characters and keeps every byte that belongs to
no character as a stray one.
-/

namespace PacketLog.Utf8

inductive Piece
  | char (c : Char)
  | stray (b : UInt8)
deriving DecidableEq

/-- The number that `count` continuation bytes add to `lead`, if so many follow. -/
def continued? (lead : Nat) : Nat → Bytes → Option Nat
  | 0, _ => some lead
  | _ + 1, [] => none
  | count + 1, b :: s =>
    if 0x80 ≤ b.toNat ∧ b.toNat < 0xC0 then
      continued? (lead * 64 + (b.toNat - 0x80)) count s
    else none

/-- The character with the code point `n`, unless a shorter form would do for it. -/
def scalar? (least n : Nat) : Option Char :=
  if least ≤ n ∧ n.isValidChar then some (Char.ofNat n) else none

/-- How many bytes follow the lead byte, its payload, and the least code point of that length. -/
def leadShape? (lead : Nat) : Option (Nat × Nat × Nat) :=
  if lead < 0x80 then some (0, lead, 0)
  else if lead < 0xC0 then none
  else if lead < 0xE0 then some (1, lead - 0xC0, 0x80)
  else if lead < 0xF0 then some (2, lead - 0xE0, 0x800)
  else if lead < 0xF8 then some (3, lead - 0xF0, 0x10000)
  else none

/-- The character that begins with the byte `b`, and how many of the bytes `s` after it it takes. -/
def charAt? (b : UInt8) (s : Bytes) : Option (Char × Nat) := do
  let (count, payload, least) ← leadShape? b.toNat
  let n ← continued? payload count s
  let c ← scalar? least n
  return (c, count)

def decode : Bytes → List Piece
  | [] => []
  | b :: s =>
    match charAt? b s with
    | some (c, count) => .char c :: decode (s.drop count)
    | none => .stray b :: decode s
termination_by s => s.length
decreasing_by
  · simp only [List.length_drop, List.length_cons]; omega
  · simp

end PacketLog.Utf8
