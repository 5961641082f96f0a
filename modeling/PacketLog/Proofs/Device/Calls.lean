import PacketLog.Proofs.Device.Writes

/-!
# Runs of calls through many handles

A run is a list of calls in the order in which they had the device's lock, each
through a handle of its own choice, and a record of what they answered.  `written`
reads off the record the bytes that went in.  Only those bytes decide what the
device becomes, `device_run`: neither the handles nor the cuts between calls do, nor
the reads and seeks in between.
-/

namespace PacketLog

open Bytes

/-- One call through a handle; `attempts` are those on the device's lock. -/
structure DeskCall where
  name : String
  attempts : List Attempt
  act : DeskAct
deriving DecidableEq

/-- The bytes that an act put into the device, as its answer says. -/
def DeskAct.written : DeskAct → DeskAnswer → Bytes
  | .write data _, .number (.ok _) => data
  | .writeAll data, .done (.ok ()) => data
  | _, _ => []

def DeskAct.writes : DeskAct → Bool
  | .write _ _ | .writeAll _ => true
  | _ => false

namespace Desk

def run (desk : Desk) : List DeskCall → List (DeskCall × DeskAnswer) × Desk
  | [] => ([], desk)
  | call :: later =>
    let (answer, desk) := desk.perform call.name call.attempts call.act
    let (record, desk) := desk.run later
    ((call, answer) :: record, desk)

def written (record : List (DeskCall × DeskAnswer)) : Bytes :=
  record.flatMap fun entry => entry.1.act.written entry.2

/-- The call takes the device from the stream `s` to `s` and what it wrote, and one that reports a
count has written as much. -/
structure Continues (desk : Desk) (s : Bytes) (act : DeskAct) (answer : DeskAnswer)
    (after : Desk) : Prop where
  capacity_eq : after.device.ring.capacity = desk.device.ring.capacity
  holds : after.device.Holds (s ++ act.written answer)
  count_eq : ∀ data room count, act = .write data room → answer = .number (.ok count) →
    count = data.length

theorem continues_quietly {desk after : Desk} {s : Bytes} {act : DeskAct} {answer : DeskAnswer}
    (hHolds : desk.device.Holds s) (hDevice : after.device = desk.device)
    (hWritten : act.written answer = [])
    (hAct : ∀ data room, act = .write data room → ∀ count, answer ≠ .number (.ok count)) :
    desk.Continues s act answer after where
  capacity_eq := by rw [hDevice]
  holds := by rwa [hDevice, hWritten, List.append_nil]
  count_eq := fun data room count hWrite hAnswer => absurd hAnswer (hAct data room hWrite count)

theorem continues_perform {desk : Desk} {s : Bytes} (hHolds : desk.device.Holds s) (name : String)
    (attempts : List Attempt) (act : DeskAct) :
    desk.Continues s act (desk.perform name attempts act).1
      (desk.perform name attempts act).2 := by
  cases act with
  | write data room =>
    rw [perform]
    rcases hWrite : desk.device.write data attempts room with ⟨outcome, device⟩
    rcases hHolds.write data attempts room with ⟨hAnswer, hCapacity, hAfter⟩ | ⟨hAnswer, hSame⟩
    · rw [hWrite] at hAnswer hCapacity hAfter
      obtain rfl : outcome = .ok data.length := hAnswer
      refine ⟨hCapacity, hAfter, fun other _ count hAct hCount => ?_⟩
      obtain ⟨rfl, -⟩ := DeskAct.write.inj hAct
      exact (Outcome.ok.inj (DeskAnswer.number.inj hCount)).symm
    · rw [hWrite] at hAnswer hSame
      refine continues_quietly hHolds hSame ?_ fun _ _ _ count hCount =>
        hAnswer count (DeskAnswer.number.inj hCount)
      cases outcome with
      | ok count => exact absurd rfl (hAnswer count)
      | error error => rfl
      | crash => rfl
      | waiting => rfl
  | writeAll data =>
    rw [perform]
    rcases hWrite : desk.device.writeAll data [attempts] with ⟨outcome, device⟩
    rcases hHolds.writeAll data [attempts] with ⟨hAnswer, hCapacity, hAfter⟩ | ⟨hAnswer, hSame⟩
    · rw [hWrite] at hAnswer hCapacity hAfter
      obtain rfl : outcome = .ok () := hAnswer
      exact ⟨hCapacity, hAfter, nofun⟩
    · rw [hWrite] at hAnswer hSame
      refine continues_quietly hHolds hSame ?_ nofun
      cases outcome with
      | ok _ => exact absurd rfl hAnswer
      | error error => rfl
      | crash => rfl
      | waiting => rfl
  | reopen => exact continues_quietly hHolds rfl rfl nofun
  | read count => exact continues_quietly hHolds rfl rfl nofun
  | seek target => exact continues_quietly hHolds rfl rfl nofun
  | readExact count => exact continues_quietly hHolds rfl rfl nofun
  | readToEnd => exact continues_quietly hHolds rfl rfl nofun

theorem handle_perform_of_writes {act : DeskAct} (hAct : act.writes) (desk : Desk) (name : String)
    (attempts : List Attempt) (other : String) :
    (desk.perform name attempts act).2.handle other = desk.handle other := by
  cases act with
  | write data room => rfl
  | writeAll data => rfl
  | _ => cases hAct

theorem run_cons (desk : Desk) (call : DeskCall) (later : List DeskCall) :
    desk.run (call :: later) =
      ((call, (desk.perform call.name call.attempts call.act).1) ::
          ((desk.perform call.name call.attempts call.act).2.run later).1,
        ((desk.perform call.name call.attempts call.act).2.run later).2) := rfl

theorem holds_run (desk : Desk) {s : Bytes} (hHolds : desk.device.Holds s)
    (calls : List DeskCall) :
    (desk.run calls).2.device.ring.capacity = desk.device.ring.capacity ∧
    (desk.run calls).2.device.Holds (s ++ written (desk.run calls).1) ∧
    ∀ entry ∈ (desk.run calls).1, ∀ data room count, entry.1.act = .write data room →
      entry.2 = .number (.ok count) → count = data.length := by
  induction calls generalizing desk s with
  | nil =>
    rw [run, written, List.flatMap_nil, List.append_nil]
    exact ⟨rfl, hHolds, fun _ hMem => absurd hMem List.not_mem_nil⟩
  | cons call later ih =>
    obtain ⟨hCapacity, hHere, hCount⟩ := continues_perform hHolds call.name call.attempts call.act
    obtain ⟨hCapacities, hLater, hCounts⟩ := ih _ hHere
    rw [List.append_assoc] at hLater
    rw [run_cons, written, List.flatMap_cons]
    exact ⟨hCapacities.trans hCapacity, hLater, List.forall_mem_cons.mpr ⟨hCount, hCounts⟩⟩

/-- The desks that calls on an empty device lead to, through whatever handles. -/
inductive Reached : Desk → Prop
  | create {capacity : Nat} (hPos : 0 < capacity) (handles : List (String × Handle)) :
      Reached { device := { ring := { capacity := capacity } }, handles := handles }
  | run {desk : Desk} (hReached : Reached desk) (calls : List DeskCall) : Reached (desk.run calls).2

theorem Reached.exists_holds {desk : Desk} (hReached : desk.Reached) :
    ∃ s, desk.device.Holds s := by
  induction hReached with
  | create hPos handles => exact ⟨[], Device.holds_empty hPos⟩
  | @run desk hReached calls ih =>
    obtain ⟨s, hHolds⟩ := ih
    obtain ⟨-, hLater, -⟩ := holds_run desk hHolds calls
    exact ⟨_, hLater⟩

/-- **Only the bytes written count.**  After any run of calls on an empty device, as every device is
when it is created, the ring holds the newest lines of everything written, in the order of the
calls, and the pending packet is what follows the last newline; a successful write has taken its
whole buffer, and no write moves a handle.  Another run that wrote the same bytes, through whatever
handles and in whatever pieces, leaves the same device. -/
theorem device_run {capacity : Nat} (hPos : 0 < capacity) (handles : List (String × Handle))
    (calls : List DeskCall) :
    let device : Device := { ring := { capacity := capacity } }
    let outcome := run { device := device, handles := handles } calls
    let s := written outcome.1
    (∀ created, Device.create? capacity = .ok created → created = device) ∧
    outcome.2.device.ring.entries = (lines s).rtake capacity ∧
    outcome.2.device.ring.length = min capacity (lines s).length ∧
    outcome.2.device.pending.pending = unterminated s ∧
    (∀ entry ∈ outcome.1, ∀ data room count, entry.1.act = .write data room →
      entry.2 = .number (.ok count) → count = data.length) ∧
    (∀ name attempts act other, act.writes →
      ((outcome.2.perform name attempts act).2.handle other).position =
        (outcome.2.handle other).position) ∧
    ∀ handles' calls', written (run { device := device, handles := handles' } calls').1 = s →
      let device' := (run { device := device, handles := handles' } calls').2.device
      device'.ring.entries = outcome.2.device.ring.entries ∧
      device'.ring.totalBytes = outcome.2.device.ring.totalBytes ∧
      device'.pending = outcome.2.device.pending := by
  intro device outcome s
  have hRuns : ∀ handles calls,
      (run { device := device, handles := handles } calls).2.device.ring.capacity = capacity ∧
      (run { device := device, handles := handles } calls).2.device.Holds
        (written (run { device := device, handles := handles } calls).1) := fun handles calls => by
    obtain ⟨hCapacity, hHolds, -⟩ := holds_run
      { device := device, handles := handles } (Device.holds_empty hPos) calls
    exact ⟨hCapacity, hHolds⟩
  obtain ⟨hAfter, hHolds⟩ := hRuns handles calls
  obtain ⟨-, -, hCounts⟩ := holds_run
    { device := device, handles := handles } (Device.holds_empty hPos) calls
  refine ⟨fun _ => Device.eq_empty_of_create?, ?_, ?_, hHolds.pending, hCounts,
    fun name attempts act other hAct => by rw [handle_perform_of_writes hAct],
    fun handles' calls' hSame => ?_⟩
  · rw [hHolds.ring.entries_eq, hAfter]
  · rw [hHolds.ring.length_eq, hAfter]
  · obtain ⟨hAfter', hHolds'⟩ := hRuns handles' calls'
    rw [hSame] at hHolds'
    exact hHolds'.unique hHolds (hAfter'.trans hAfter.symm)

/-- Two handles share one packet, and its end evicts the oldest line. -/
theorem device_run_of_two_handles :
    let calls : List DeskCall :=
      [⟨"x", [⟨true, false⟩], .write [97, 10, 98] true⟩, ⟨"y", [⟨true, false⟩], .seek (.start 7)⟩,
        ⟨"y", [⟨false, true⟩], .write [120] true⟩,
        ⟨"y", [⟨true, false⟩], .write [10, 99, 10, 100] true⟩]
    let outcome := run { device := { ring := { capacity := 2 } } } calls
    0 < 2 ∧ written outcome.1 = [97, 10, 98, 10, 99, 10, 100] ∧
      outcome.2.device.ring.entries = [[98, 10], [99, 10]] ∧
      outcome.2.device.pending.pending = [100] := by
  intro calls outcome
  have hPos : 0 < 2 := by decide
  obtain ⟨-, hEntries, -, hPending, -⟩ := device_run hPos [] calls
  have hWritten : written outcome.1 = [97, 10, 98, 10, 99, 10, 100] := by decide +kernel
  rw [hWritten] at hEntries hPending
  exact ⟨hPos, hWritten, hEntries, hPending⟩

end Desk

end PacketLog
