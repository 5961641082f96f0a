import PacketLog.Assembler
import PacketLog.Exclusion
import PacketLog.Ring.Cursor

/-!
# A ring seen as a device

Many handles share one ring and one pending packet.  A write appends through the
pending packet, whichever handle it comes from; a read or a seek moves only the
position of its own handle.
-/

namespace PacketLog

structure Device where
  ring : Ring
  /-- The packet whose newline has not been written yet. -/
  pending : Assembler := {}
deriving DecidableEq

structure Handle where
  position : Nat := 0
deriving DecidableEq

/-- Where a seek counts from. -/
inductive SeekTarget
  | start (offset : Nat)
  | current (delta : Int)
  | finish (delta : Int)
deriving DecidableEq

namespace Device

def create? (capacity : Nat) : Except Error Device :=
  (Ring.create? capacity).map fun ring => { ring := ring }

/-- Takes `buffer` into the pending packet and commits every packet it completes. -/
def accept (device : Device) (buffer : Bytes) (room : Bool := true) : Except Error Nat × Device :=
  let ((packets, failure), pending) := device.pending.feedAll buffer room
  let ring := packets.foldl (fun ring packet => (ring.append packet).2) device.ring
  let answer := match failure with
    | none => .ok buffer.length
    | some error => .error error
  (answer, { ring := ring, pending := pending })

/-- Writes `buffer`; the answer is the number of bytes taken, which is all of them. -/
def write (device : Device) (buffer : Bytes) (attempts : List Attempt) (room : Bool := true) :
    Outcome Nat × Device :=
  if buffer = [] then (.ok 0, device)
  else
    (Patience.interruptible.acquire attempts).enter device fun device =>
      let (answer, device) := device.accept buffer room
      (.ofExcept answer, device)

/-- Writes `buffer` and, each time the wait for the lock is interrupted, tries again. -/
def writeAll (device : Device) (buffer : Bytes) : List (List Attempt) → Outcome Unit × Device
  | [] => (if buffer = [] then .ok () else .waiting, device)
  | attempts :: later =>
    match device.write buffer attempts with
    | (.ok _, device) => (.ok (), device)
    | (.error error, device) =>
      if error.kind = .interrupted then device.writeAll buffer later else (.error error, device)
    | (.crash, device) => (.crash, device)
    | (.waiting, device) => (.waiting, device)

end Device

namespace Handle

/-- Reads at most `count` bytes at the handle's position and moves past them.  There is no answer
when the end of the range asked for is no word. -/
def read? (handle : Handle) (ring : Ring) (count : Nat) : Option (Bytes × Handle) :=
  (ring.readAt? handle.position count).map fun chunk =>
    (chunk, { position := handle.position + chunk.length })

def read (handle : Handle) (device : Device) (count : Nat) (attempts : List Attempt) :
    Outcome Bytes × Handle :=
  if count = 0 then (.ok [], handle)
  else
    (Patience.interruptible.acquire attempts).enter handle fun handle =>
      match handle.read? device.ring count with
      | some (chunk, handle) => (.ok chunk, handle)
      | none => (.crash, handle)

/-- A position before the start of the device, or past the last word. -/
def misplaced (origin : Nat) : Error :=
  (Error.ofMessage .usage "seek before start of device").withOffset origin

/-- Moves the handle by `delta` from `origin`. -/
def moveFrom (handle : Handle) (origin : Nat) (delta : Int) : Outcome Nat × Handle :=
  match Word.addSigned? origin delta with
  | some position => (.ok position, { position := position })
  | none => (.error (misplaced origin), handle)

/-- Only a seek from the end has to look at the ring. -/
def seek (handle : Handle) (device : Device) (target : SeekTarget) (attempts : List Attempt) :
    Outcome Nat × Handle :=
  match target with
  | .start offset => (.ok offset, { position := offset })
  | .current delta => handle.moveFrom handle.position delta
  | .finish delta =>
    (Patience.interruptible.acquire attempts).enter handle fun handle =>
      handle.moveFrom device.ring.totalBytes delta

/-- Exactly `count` bytes, or a failure that leaves what came consumed.  There is no answer when
one of the reads has none. -/
def readExact (handle : Handle) (ring : Ring) (count : Nat) :
    Option (Except IoFailure Bytes) × Handle :=
  let (bytes, overflowed) := (ring.cursor handle.position).collect count
  let handle : Handle := { position := handle.position + bytes.length }
  if overflowed then (none, handle)
  else if bytes.length = count then (some (.ok bytes), handle)
  else (some (.error .unexpectedEnd), handle)

/-- Everything from the position on, read with buffers of `size` bytes. -/
def readToEnd? (handle : Handle) (ring : Ring) (size : Nat := 65536) : Option Bytes × Handle :=
  match ring.walk? handle.position size with
  | none => (none, handle)
  | some chunks => (some chunks.flatten, { position := handle.position + chunks.flatten.length })

end Handle

end PacketLog
