import PacketLog.Entry
import PacketLog.Error
import PacketLog.Queue
import PacketLog.Word

/-!
# A bounded ring of entries

A ring keeps the newest `capacity` entries, oldest first, and hands back the
oldest one when a new one takes its place.  Byte offsets count from the first
byte of the oldest retained entry; `find` says in which entry a byte lies, and a
read never runs past the end of that entry.
-/

namespace PacketLog

structure Ring where
  capacity : Nat
  retained : Queue Entry := {}
  /-- The sum of the lengths of the retained entries. -/
  totalBytes : Nat := 0
deriving DecidableEq

/-- Where a byte lies. -/
structure Located where
  /-- The position of the entry, counted from the oldest. -/
  index : Nat
  entry : Entry
  /-- The position of the byte within the entry. -/
  offset : Nat
deriving DecidableEq

namespace Ring

/-- The capacity of a ring when none is asked for. -/
def defaultCapacity : Nat := 10

/-- The bytes that the slot of one entry takes. -/
def slotBytes : Nat := 32

/-- The memory that can be addressed at all. -/
def addressableBytes : Nat := Word.signedBound - 1

/-- The least memory that the allocator refuses, 32 GiB: it grants no more than the machine has. -/
def refusedBytes : Nat := 32 * 1024 * 1024 * 1024

def slotsNotReserved (cause : String) : Error :=
  (Error.ofMessage .outOfMemory "failed to reserve ring slots").withCauses [cause]

/-- An empty ring, whose slots are reserved at once. -/
def create? (capacity : Nat) : Except Error Ring :=
  if capacity = 0 then .error (.ofMessage .usage "ring capacity must be non-zero")
  else if addressableBytes < capacity * slotBytes then
    .error (slotsNotReserved
      "memory allocation failed because the computed capacity exceeded the collection's maximum")
  else if refusedBytes ≤ capacity * slotBytes then
    .error (slotsNotReserved
      "memory allocation failed because the memory allocator returned an error")
  else .ok { capacity := capacity }

theorem eq_empty_of_create? {capacity : Nat} {ring : Ring}
    (hCreate : create? capacity = .ok ring) : 0 < capacity ∧ ring = { capacity := capacity } := by
  unfold create? at hCreate
  split at hCreate
  · cases hCreate
  · rename_i hPos
    split at hCreate
    · cases hCreate
    · split at hCreate
      · cases hCreate
      · exact ⟨Nat.pos_of_ne_zero hPos, (Except.ok.inj hCreate).symm⟩

/-- The retained entries, oldest first. -/
def entries (ring : Ring) : List Entry := ring.retained.toList

def length (ring : Ring) : Nat := ring.retained.length

def isEmpty (ring : Ring) : Bool := ring.length = 0

/-- All retained bytes. -/
def contents (ring : Ring) : Bytes := ring.entries.flatten

/-- Makes `entry` the newest one.  A full ring gives up its oldest entry. -/
def append (ring : Ring) (entry : Entry) : Option Entry × Ring :=
  match if ring.length = ring.capacity then ring.retained.pop? else none with
  | some (evicted, kept) =>
    (some evicted,
      { ring with
        retained := kept.push entry
        totalBytes := ring.totalBytes - evicted.length + entry.length })
  | none =>
    (none,
      { ring with
        retained := ring.retained.push entry
        totalBytes := ring.totalBytes + entry.length })

/-- Empties the ring and hands back its entries, oldest first. -/
def drain (ring : Ring) : List Entry × Ring :=
  (ring.entries, { ring with retained := {}, totalBytes := 0 })

/-- A drained ring goes on as a new one. -/
theorem drain_of_create {ring fresh : Ring} (hCreate : create? ring.capacity = .ok fresh) :
    ring.drain = (ring.entries, fresh) := by
  rw [(eq_empty_of_create? hCreate).2]
  rfl

theorem length_entries (ring : Ring) : ring.entries.length = ring.length :=
  ring.retained.length_toList

/-- What an append hands back and what it keeps are the entries before, then the new one. -/
theorem evicted_append_entries (ring : Ring) (entry : Entry) :
    (ring.append entry).1.toList ++ (ring.append entry).2.entries = ring.entries ++ [entry] := by
  unfold append
  split
  · rename_i evicted kept hPop
    split at hPop
    · simp [entries, Queue.toList_push, Queue.toList_of_pop? hPop]
    · cases hPop
  · simp [entries, Queue.toList_push]

/-- The first of `entries` that reaches past `offset`, where the first of them is number `index`
and begins at byte `start`. -/
def locate (index start offset : Nat) : List Entry → Option Located
  | [] => none
  | entry :: rest =>
    if offset < start + entry.length then
      some { index := index, entry := entry, offset := offset - start }
    else locate (index + 1) (start + entry.length) offset rest

/-- The entry that holds the byte at `offset`. -/
def find (ring : Ring) (offset : Nat) : Option Located :=
  if ring.totalBytes ≤ offset then none else locate 0 0 offset ring.entries

/-- At most `count` bytes from `offset` on, within one entry.  There is no answer when the end of
the range asked for is no word. -/
def readAt? (ring : Ring) (offset count : Nat) : Option Bytes :=
  if count = 0 then some []
  else
    match ring.find offset with
    | none => some []
    | some located =>
      (Word.add? located.offset count).map fun _ =>
        (located.entry.drop located.offset).take count

def describe (ring : Ring) : String := "ring(capacity=" ++ toString ring.capacity ++ ")"

end Ring

end PacketLog
