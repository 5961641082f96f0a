import PacketLog.Device.Desk
import PacketLog.Proofs.Assembler.Search
import PacketLog.Proofs.Ring.History

/-!
# What a device makes of everything written to it

Many handles write to one device, a line may come in parts through several of them,
and one call may complete several lines.  `Holds device s` says that the device is
what the one stream `s` makes of it: the ring keeps the newest lines of `s`, and the
shared pending packet is what follows the last newline.  A call that succeeds
appends its buffer to the stream and any other call leaves the device alone
(`Holds.write`, `Holds.writeAll`).
-/

namespace PacketLog

open Bytes

namespace Assembler

theorem ahead_drain {assembler : Assembler} (hFailure : assembler.drain.1.2 = none) :
    assembler.drain.2.ahead = [] := by
  fun_induction drain assembler with
  | case1 assembler packet after hPoll packets failure last hDrain ih =>
    rw [hDrain] at ih
    exact ih hFailure
  | case2 assembler after hPoll =>
    unfold poll at hPoll
    split at hPoll
    · split at hPoll <;> cases hPoll
    · dsimp only at hPoll
      split at hPoll
      · cases hPoll
      · rw [← (Prod.mk.inj hPoll).2]
        rfl
  | case3 assembler error after hPoll => cases hFailure

theorem eq_of_pending_eq {a b : Assembler} (hLimit : a.limit = b.limit) (hA : a.ahead = [])
    (hB : b.ahead = []) (hPending : a.pending = b.pending) : a = b := by
  obtain ⟨limit, searched, scanned, ahead, hLength, hNewline⟩ := a
  obtain ⟨limit', searched', scanned', ahead', hLength', hNewline'⟩ := b
  subst hLimit hA hB hLength hLength'
  simp only [pending, List.append_nil, List.reverse_inj] at hPending
  subst hPending
  rfl

end Assembler

namespace Device

/-- The device is what the stream `s` makes of it. -/
structure Holds (device : Device) (s : Bytes) : Prop where
  ring : device.ring.Keeps (lines s)
  limit : device.pending.limit = none
  pending : device.pending.pending = unterminated s
  ahead : device.pending.ahead = []

variable {device : Device} {s : Bytes}

theorem holds_empty {capacity : Nat} (hPos : 0 < capacity) :
    ({ ring := { capacity := capacity } } : Device).Holds [] :=
  ⟨Ring.keeps_empty hPos, rfl, rfl, rfl⟩

theorem eq_empty_of_create? {capacity : Nat} {device : Device}
    (hCreate : create? capacity = .ok device) : device = { ring := { capacity := capacity } } := by
  unfold create? at hCreate
  cases hRing : Ring.create? capacity with
  | error error => rw [hRing] at hCreate; cases hCreate
  | ok ring =>
    rw [hRing] at hCreate
    obtain rfl := Except.ok.inj hCreate
    rw [(Ring.eq_empty_of_create? hRing).2]

/-- Two devices that the same stream made differ in nothing that can be observed. -/
theorem Holds.unique {other : Device} (hHolds : device.Holds s) (hOther : other.Holds s)
    (hCapacity : device.ring.capacity = other.ring.capacity) :
    device.ring.entries = other.ring.entries ∧ device.ring.totalBytes = other.ring.totalBytes ∧
      device.pending = other.pending := by
  have hEntries : device.ring.entries = other.ring.entries := by
    rw [hHolds.ring.entries_eq, hOther.ring.entries_eq, hCapacity]
  refine ⟨hEntries, ?_, ?_⟩
  · rw [hHolds.ring.totalBytes_eq, hOther.ring.totalBytes_eq, Ring.contents, Ring.contents,
      hEntries]
  · refine Assembler.eq_of_pending_eq ?_ hHolds.ahead hOther.ahead ?_
    · rw [hHolds.limit, hOther.limit]
    · rw [hHolds.pending, hOther.pending]

/-- What the lock lets in is taken whole: every line it completes is committed, however many. -/
theorem Holds.accept (hHolds : device.Holds s) {buffer : Bytes} (hBuffer : buffer ≠ []) :
    (device.accept buffer).1 = .ok buffer.length ∧
      (device.accept buffer).2.ring.capacity = device.ring.capacity ∧
      (device.accept buffer).2.Holds (s ++ buffer) := by
  have hLines : lines device.pending.pending = [] := hHolds.pending ▸ lines_unterminated s
  have hDelivers := Assembler.delivers_feedAll hLines (by rw [hHolds.limit]; rfl) buffer
  have hAhead : (device.pending.feedAll buffer).1.2 = none →
      (device.pending.feedAll buffer).2.ahead = [] := by
    rw [Assembler.feedAll_eq_drain hBuffer]
    exact Assembler.ahead_drain
  rw [hHolds.limit, hHolds.pending] at hDelivers
  rw [Device.accept]
  rcases hFeed : device.pending.feedAll buffer with ⟨⟨packets, failure⟩, after⟩
  rw [hFeed] at hDelivers hAhead
  obtain rfl : failure = none := hDelivers.failure_eq_none_iff.mpr (Assembler.admissible_none _)
  have hPackets : packets = lines (unterminated s ++ buffer) :=
    hDelivers.packets_eq.trans (Assembler.admitted_eq_lines (Assembler.admissible_none _))
  obtain ⟨hCapacity, hRing⟩ := hHolds.ring.appendAll packets
  refine ⟨rfl, hCapacity, ?_, hDelivers.limit_eq, ?_, hAhead rfl⟩
  · rw [lines_append, ← hPackets]
    exact hRing
  · rw [unterminated_append]
    exact hDelivers.pending_eq rfl

theorem Holds.write (hHolds : device.Holds s) (buffer : Bytes) (attempts : List Attempt)
    (room : Bool) :
    ((device.write buffer attempts room).1 = .ok buffer.length ∧
      (device.write buffer attempts room).2.ring.capacity = device.ring.capacity ∧
      (device.write buffer attempts room).2.Holds (s ++ buffer)) ∨
    ((∀ count, (device.write buffer attempts room).1 ≠ .ok count) ∧
      (device.write buffer attempts room).2 = device) := by
  rw [Device.write]
  split
  · rename_i hBuffer
    subst hBuffer
    exact Or.inl ⟨rfl, rfl, by rwa [List.append_nil]⟩
  · rename_i hBuffer
    cases Patience.interruptible.acquire attempts with
    | interrupted => exact Or.inr ⟨fun _ hCount => (by cases hCount), rfl⟩
    | waiting => exact Or.inr ⟨fun _ hCount => (by cases hCount), rfl⟩
    | acquired =>
      dsimp only [Acquisition.enter]
      cases room with
      | true =>
        obtain ⟨hAnswer, hCapacity, hAfter⟩ := hHolds.accept hBuffer
        exact Or.inl ⟨by rw [hAnswer]; rfl, hCapacity, hAfter⟩
      | false =>
        refine Or.inr ?_
        rw [Device.accept, Assembler.feedAll, Assembler.feed, if_neg hBuffer]
        exact ⟨fun _ hCount => (by cases hCount), rfl⟩

theorem Holds.writeAll (hHolds : device.Holds s) (buffer : Bytes) (tries : List (List Attempt)) :
    ((device.writeAll buffer tries).1 = .ok () ∧
      (device.writeAll buffer tries).2.ring.capacity = device.ring.capacity ∧
      (device.writeAll buffer tries).2.Holds (s ++ buffer)) ∨
    ((device.writeAll buffer tries).1 ≠ .ok () ∧
      (device.writeAll buffer tries).2 = device) := by
  induction tries with
  | nil =>
    rw [Device.writeAll]
    by_cases hBuffer : buffer = []
    · subst hBuffer
      rw [if_pos rfl]
      exact Or.inl ⟨rfl, rfl, by rwa [List.append_nil]⟩
    · rw [if_neg hBuffer]
      exact Or.inr ⟨nofun, rfl⟩
  | cons attempts later ih =>
    rw [Device.writeAll]
    rcases hHolds.write buffer attempts true with ⟨hAnswer, hAfter⟩ | ⟨hAnswer, hSame⟩
    · rcases hWrite : device.write buffer attempts with ⟨outcome, after⟩
      rw [hWrite] at hAnswer hAfter
      obtain rfl : outcome = .ok buffer.length := hAnswer
      exact Or.inl ⟨rfl, hAfter⟩
    · rcases hWrite : device.write buffer attempts with ⟨outcome, after⟩
      rw [hWrite] at hAnswer hSame
      obtain rfl : after = device := hSame
      cases outcome with
      | ok count => exact absurd rfl (hAnswer count)
      | error error =>
        dsimp only
        split
        · exact ih
        · exact Or.inr ⟨nofun, rfl⟩
      | crash => exact Or.inr ⟨nofun, rfl⟩
      | waiting => exact Or.inr ⟨nofun, rfl⟩

end Device

end PacketLog
