import PacketLog.Text.Digits

/-!
# Socket addresses

An address and a port, as text: `1.2.3.4:80`, or an address of eight groups in
brackets, `[2001:db8::1]:80`, with a scope after `%` if it has one.  `parse?`
accepts every spelling, `text` writes one of them: no leading zeros, and the
first of the longest runs of zero groups as `::`.
-/

namespace PacketLog

inductive SocketAddress
  | v4 (octets : List Nat) (port : Nat)
  | v6 (groups : List Nat) (scope : Nat) (port : Nat)
deriving DecidableEq

namespace SocketAddress

/-! ## Reading

A reader takes characters off the front of a text and leaves the rest. -/

/-- The digits at the front of a text, as values. -/
def readDigits (base : Nat) : List Char → List Nat × List Char
  | [] => ([], [])
  | c :: rest =>
    match Text.digitValue? base c with
    | some value =>
      let (values, rest) := readDigits base rest
      (value :: values, rest)
    | none => ([], c :: rest)

/-- The number that digits stand for. -/
def ofDigits (base : Nat) (digits : List Nat) : Nat :=
  digits.foldl (fun n digit => n * base + digit) 0

/-- A number below `bound`. -/
def readNumber? (base bound : Nat) (text : List Char) : Option (Nat × List Char) :=
  let (digits, rest) := readDigits base text
  let n := ofDigits base digits
  if digits ≠ [] ∧ n < bound then some (n, rest) else none

def readChar? (expected : Char) : List Char → Option (List Char)
  | [] => none
  | c :: rest => if c = expected then some rest else none

/-- A number below 256, without leading zeros and of at most three digits. -/
def readOctet? (text : List Char) : Option (Nat × List Char) :=
  let (digits, rest) := readDigits 10 text
  if digits = [] ∨ 3 < digits.length ∨ (1 < digits.length ∧ digits.head? = some 0) then none
  else
    let n := ofDigits 10 digits
    if n < 256 then some (n, rest) else none

def readV4? (text : List Char) : Option (List Nat × List Char) := do
  let (a, text) ← readOctet? text
  let (b, text) ← readOctet? (← readChar? '.' text)
  let (c, text) ← readOctet? (← readChar? '.' text)
  let (d, text) ← readOctet? (← readChar? '.' text)
  return ([a, b, c, d], text)

/-- One group: at most four digits in base sixteen. -/
def readGroup? (text : List Char) : Option (Nat × List Char) :=
  let (digits, rest) := readDigits 16 text
  if digits = [] ∨ 4 < digits.length then none else some (ofDigits 16 digits, rest)

/-- The colon before every group but the first. -/
def readSeparator? (first : Bool) (text : List Char) : Option (List Char) :=
  if first then some text else readChar? ':' text

/-- The two groups that an address of four octets stands for. -/
def groupsOfOctets (octets : List Nat) : List Nat :=
  match octets with
  | [a, b, c, d] => [a * 256 + b, c * 256 + d]
  | _ => []

/-- Groups as long as they come, at most `room` of them; an address of four octets counts as two
and ends them, which the answer says. -/
def readGroups (first : Bool) (room : Nat) (text : List Char) : List Nat × Bool × List Char :=
  match room with
  | 0 => ([], false, text)
  | room + 1 =>
    let octets? := if room = 0 then none else (readSeparator? first text).bind readV4?
    match octets? with
    | some (octets, rest) => (groupsOfOctets octets, true, rest)
    | none =>
      match (readSeparator? first text).bind readGroup? with
      | none => ([], false, text)
      | some (group, rest) =>
        let (groups, dotted, rest) := readGroups false room rest
        (group :: groups, dotted, rest)

/-- Eight groups, of which at least one may be left out between two colons. -/
def readV6? (text : List Char) : Option (List Nat × List Char) := do
  let (head, dotted, text) := readGroups true 8 text
  if head.length = 8 then return (head, text)
  if dotted then none
  else
    let text ← readChar? ':' (← readChar? ':' text)
    let (tail, _, text) := readGroups true (7 - head.length) text
    return (head ++ List.replicate (8 - head.length - tail.length) 0 ++ tail, text)

def readPort? (text : List Char) : Option (Nat × List Char) := do
  readNumber? 10 65536 (← readChar? ':' text)

/-- The number of scopes, two to the power of 32. -/
def scopeBound : Nat := 4294967296

/-- The number after `%`, or 0 if there is none. -/
def readScope (text : List Char) : Nat × List Char :=
  ((readChar? '%' text).bind (readNumber? 10 scopeBound)).getD (0, text)

def readSocketV4? (text : List Char) : Option (SocketAddress × List Char) := do
  let (octets, text) ← readV4? text
  let (port, text) ← readPort? text
  return (.v4 octets port, text)

def readSocketV6? (text : List Char) : Option (SocketAddress × List Char) := do
  let (groups, text) ← readV6? (← readChar? '[' text)
  let (scope, text) := readScope text
  let (port, text) ← readPort? (← readChar? ']' text)
  return (.v6 groups scope port, text)

/-- The address that a whole text stands for. -/
def parse? (text : String) : Option SocketAddress :=
  match (readSocketV4? text.toList).orElse fun _ => readSocketV6? text.toList with
  | some (address, []) => some address
  | _ => none

/-! ## Writing -/

def octetsText (octets : List Nat) : String := String.intercalate "." (octets.map toString)

def groupsText (groups : List Nat) : String := String.intercalate ":" (groups.map Text.hexDigits)

/-- The length of the run of zeros at the front. -/
def zeroRun (groups : List Nat) : Nat := (groups.takeWhile fun group => group = 0).length

/-- Where the first of the longest runs of zeros begins, and how long it is. -/
def longestZeroRun : List Nat → Nat × Nat
  | [] => (0, 0)
  | group :: rest =>
    let here := zeroRun (group :: rest)
    let (start, length) := longestZeroRun rest
    if length ≤ here then (0, here) else (start + 1, length)

/-- The octets of an address that stands for one of four octets. -/
def mappedOctets? : List Nat → Option (List Nat)
  | [0, 0, 0, 0, 0, 0xFFFF, a, b] => some [a / 256, a % 256, b / 256, b % 256]
  | _ => none

def v6Text (groups : List Nat) : String :=
  match mappedOctets? groups with
  | some octets => "::ffff:" ++ octetsText octets
  | none =>
    let (start, length) := longestZeroRun groups
    if length < 2 then groupsText groups
    else groupsText (groups.take start) ++ "::" ++ groupsText (groups.drop (start + length))

def text : SocketAddress → String
  | v4 octets port => octetsText octets ++ ":" ++ toString port
  | v6 groups scope port =>
    "[" ++ v6Text groups ++ (if scope = 0 then "" else "%" ++ toString scope) ++ "]:"
      ++ toString port

end SocketAddress

end PacketLog
