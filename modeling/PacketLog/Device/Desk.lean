import PacketLog.Device

/-!
# A device and its open handles

Handles are known by name, and a name that has not been used yet is a handle at
the start.  An act on one handle may change the device, but no other handle.
-/

namespace PacketLog

structure Desk where
  device : Device
  handles : List (String × Handle) := []
deriving DecidableEq

inductive DeskAct
  /-- Opens the handle anew, at the start. -/
  | reopen
  /-- Writes; `room` says whether the pending packet could make room for the bytes. -/
  | write (data : Bytes) (room : Bool := true)
  /-- Writes, and tries again whenever the wait for the lock is interrupted. -/
  | writeAll (data : Bytes)
  | read (count : Nat)
  | seek (target : SeekTarget)
  | readExact (count : Nat)
  | readToEnd
deriving DecidableEq

inductive DeskAnswer
  | done (outcome : Outcome Unit)
  | number (outcome : Outcome Nat)
  | bytes (outcome : Outcome Bytes)
  /-- All of the bytes asked for, or a failure; nothing if the thread broke off. -/
  | exact (answer : Option (Except IoFailure Bytes))

namespace Desk

def handle (desk : Desk) (name : String) : Handle := (desk.handles.lookup name).getD {}

def setHandle (desk : Desk) (name : String) (handle : Handle) : Desk :=
  { desk with
    handles := (name, handle) :: desk.handles.filter fun entry => entry.1 ≠ name }

/-- Opens a handle that is not open yet. -/
def touch (desk : Desk) (name : String) : Desk :=
  match desk.handles.lookup name with
  | some _ => desk
  | none => desk.setHandle name {}

/-- Acts on a handle; `attempts` are those on the device's lock. -/
def perform (desk : Desk) (name : String) (attempts : List Attempt) :
    DeskAct → DeskAnswer × Desk
  | .reopen => (.done (.ok ()), desk.setHandle name {})
  | .write data room =>
    let (outcome, device) := desk.device.write data attempts room
    (.number outcome, { desk with device := device })
  | .writeAll data =>
    let (outcome, device) := desk.device.writeAll data [attempts]
    (.done outcome, { desk with device := device })
  | .read count =>
    let (outcome, handle) := (desk.handle name).read desk.device count attempts
    (.bytes outcome, desk.setHandle name handle)
  | .seek target =>
    let (outcome, handle) := (desk.handle name).seek desk.device target attempts
    (.number outcome, desk.setHandle name handle)
  | .readExact count =>
    let (answer, handle) := (desk.handle name).readExact desk.device.ring count
    (.exact answer, desk.setHandle name handle)
  | .readToEnd =>
    let (answer, handle) := (desk.handle name).readToEnd? desk.device.ring
    (.bytes (.ofOption answer), desk.setHandle name handle)

end Desk

end PacketLog
