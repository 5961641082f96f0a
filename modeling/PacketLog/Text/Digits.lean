import PacketLog.Bytes

/-!
# Digits

Single digits in any base up to sixteen, numbers in base sixteen, and bytes as
two such digits each.  Digits are written in lower case and read in either.
-/

namespace PacketLog.Text

/-- The value of a digit in base `base`. -/
def digitValue? (base : Nat) (c : Char) : Option Nat :=
  let value? :=
    if c.isDigit then some (c.toNat - '0'.toNat)
    else if 'a' ≤ c ∧ c ≤ 'f' then some (c.toNat - 'a'.toNat + 10)
    else if 'A' ≤ c ∧ c ≤ 'F' then some (c.toNat - 'A'.toNat + 10)
    else none
  value?.filter fun value => value < base

/-- The digits of `n` in base sixteen, without leading zeros. -/
def hexDigits (n : Nat) : String := String.ofList (Nat.toDigits 16 n)

/-- Two digits in base sixteen. -/
def hexByte (n : Nat) : String :=
  String.ofList [Nat.digitChar (n / 16 % 16), Nat.digitChar (n % 16)]

/-- Bytes as two digits each. -/
def hexText (data : Bytes) : String := String.join (data.map fun b => hexByte b.toNat)

/-- The bytes that pairs of digits stand for. -/
def ofHex? : List Char → Option Bytes
  | [] => some []
  | [_] => none
  | a :: b :: rest => do
    let high ← digitValue? 16 a
    let low ← digitValue? 16 b
    return UInt8.ofNat (high * 16 + low) :: (← ofHex? rest)

end PacketLog.Text
