import PacketLog.Proofs.Device.Calls
import PacketLog.Proofs.Lookup
import PacketLog.Proofs.Ring.Reads

/-!
# What a reader that never seeks receives

Number the bytes of all packets ever committed, in the order of the commits.  The ring
has lost the first of them, which it handed back in its `evictions`, and holds the rest
(`Ring.Keeps.drop_evictedBytes`), so a byte of the ring has its position's number plus the
number of bytes evicted.  A read brings consecutive bytes of one retained packet
(`Ring.exists_of_readAt?`).

An eviction does not move a handle, so it only takes it forward in the stream, and so does
a read: `Advances` says so of one call and `Receives` of a run.  What a handle receives
therefore has higher and higher numbers, and nothing is left out before the first eviction
(`delivered_run`).
-/

namespace PacketLog

open Bytes

/-! ## Numbered bytes -/

/-- Bytes received with their numbers in a stream, which go up from `start`. -/
structure Numbered (stream : Bytes) (start : Nat) (received : List (UInt8 × Nat)) : Prop where
  le_number : ∀ entry ∈ received, start ≤ entry.2
  increasing : received.Pairwise fun earlier later => earlier.2 < later.2
  byte_eq : ∀ entry ∈ received, stream[entry.2]? = some entry.1

namespace Numbered

variable {stream : Bytes} {start : Nat}

theorem nil : Numbered stream start [] where
  le_number := nofun
  increasing := .nil
  byte_eq := nofun

theorem zipIdx {chunk : Bytes} (hChunk : chunk <+: stream.drop start) :
    Numbered stream start (chunk.zipIdx start) where
  le_number := fun entry hEntry => (List.mem_zipIdx hEntry).1
  increasing := by
    have hNumbers : ((chunk.zipIdx start).map Prod.snd).Pairwise (· < ·) := by
      rw [List.zipIdx_map_snd]
      exact List.pairwise_lt_range'
    exact List.pairwise_map.mp hNumbers
  byte_eq := fun entry hEntry => by
    obtain ⟨rest, hRest⟩ := hChunk
    obtain ⟨hLe, hByte⟩ := List.mem_zipIdx_iff_le_and_getElem?_sub.mp hEntry
    obtain ⟨hLt, -⟩ := List.getElem?_eq_some_iff.mp hByte
    rw [← Nat.add_sub_cancel' hLe, ← List.getElem?_drop, ← hRest, List.getElem?_append_left hLt,
      hByte]

/-- Later bytes have higher numbers, and the stream may have grown meanwhile. -/
theorem append {longer : Bytes} {next : Nat} {received more : List (UInt8 × Nat)}
    (hStream : stream <+: longer) (hNext : start ≤ next)
    (hFirst : Numbered stream start received) (hBelow : ∀ entry ∈ received, entry.2 < next)
    (hMore : Numbered longer next more) : Numbered longer start (received ++ more) where
  le_number := fun entry hEntry => by
    rcases List.mem_append.mp hEntry with hHere | hLater
    · exact hFirst.le_number entry hHere
    · exact hNext.trans (hMore.le_number entry hLater)
  increasing := List.pairwise_append.mpr ⟨hFirst.increasing, hMore.increasing,
    fun entry hHere other hLater => (hBelow entry hHere).trans_le (hMore.le_number other hLater)⟩
  byte_eq := fun entry hEntry => by
    rcases List.mem_append.mp hEntry with hHere | hLater
    · obtain ⟨rest, rfl⟩ := hStream
      have hByte := hFirst.byte_eq entry hHere
      obtain ⟨hLt, -⟩ := List.getElem?_eq_some_iff.mp hByte
      rw [List.getElem?_append_left hLt, hByte]
    · exact hMore.byte_eq entry hLater

end Numbered

/-! ## A handle that is never sought -/

/-- The bytes that an act brought its caller, as its answer says. -/
def DeskAct.brought : DeskAct → DeskAnswer → Bytes
  | .read _, .bytes (.ok chunk) => chunk
  | _, _ => []

/-- The bytes that a call brought to a handle, if it was made through that handle. -/
def DeskCall.broughtTo (name : String) (call : DeskCall) (answer : DeskAnswer) : Bytes :=
  if call.name = name then call.act.brought answer else []

/-- A plain read or a write: the position moves by what is read, if at all. -/
def DeskAct.movesOn : DeskAct → Bool
  | .read _ | .write _ _ | .writeAll _ => true
  | _ => false

namespace Desk

/-- The number of bytes that the device has evicted, after the stream `s` was written to it. -/
def evicted (desk : Desk) (s : Bytes) : Nat :=
  Ring.evictedBytes desk.device.ring.capacity (lines s)

/-- The bytes that the reads through one handle bring, each with its number among the bytes of all
packets committed: the device begins as the stream `s` has made it. -/
def delivered (name : String) (desk : Desk) (s : Bytes) : List DeskCall → List (UInt8 × Nat)
  | [] => []
  | call :: later =>
    let (answer, after) := desk.perform call.name call.attempts call.act
    (call.broughtTo name answer).zipIdx (desk.evicted s + (desk.handle name).position) ++
      after.delivered name (s ++ call.act.written answer) later

variable {desk : Desk} {s : Bytes}

theorem handle_setHandle_self (desk : Desk) (name : String) (handle : Handle) :
    (desk.setHandle name handle).handle name = handle := by
  simp [Desk.handle, setHandle]

theorem handle_setHandle_of_ne (desk : Desk) {name other : String} (hNe : other ≠ name)
    (handle : Handle) : (desk.setHandle name handle).handle other = desk.handle other := by
  rw [Desk.handle, setHandle, List.lookup_cons, beq_false_of_ne hNe]
  dsimp only
  rw [lookup_filter_of_ne desk.handles hNe, Desk.handle]

theorem handle_perform_of_ne (desk : Desk) {name other : String} (hNe : other ≠ name)
    (attempts : List Attempt) (act : DeskAct) :
    (desk.perform name attempts act).2.handle other = desk.handle other := by
  cases act with
  | write data room => rfl
  | writeAll data => rfl
  | reopen => exact handle_setHandle_of_ne desk hNe _
  | read count => exact handle_setHandle_of_ne desk hNe _
  | seek target => exact handle_setHandle_of_ne desk hNe _
  | readExact count => exact handle_setHandle_of_ne desk hNe _
  | readToEnd => exact handle_setHandle_of_ne desk hNe _

end Desk

/-- A read brings what the ring has at the handle's position, and takes the handle past it. -/
theorem Handle.read_cases (handle : Handle) (device : Device) (count : Nat)
    (attempts : List Attempt) :
    (∃ chunk, handle.read device count attempts =
        (.ok chunk, { position := handle.position + chunk.length }) ∧
      device.ring.readAt? handle.position count = some chunk) ∨
    ((∀ chunk, (handle.read device count attempts).1 ≠ .ok chunk) ∧
      (handle.read device count attempts).2 = handle) := by
  rw [Handle.read]
  by_cases hCount : count = 0
  · rw [if_pos hCount]
    exact Or.inl ⟨[], rfl, by rw [Ring.readAt?, if_pos hCount]⟩
  · rw [if_neg hCount]
    cases Patience.interruptible.acquire attempts with
    | interrupted => exact Or.inr ⟨fun chunk hOk => (by cases hOk), rfl⟩
    | waiting => exact Or.inr ⟨fun chunk hOk => (by cases hOk), rfl⟩
    | acquired =>
      dsimp only [Acquisition.enter]
      rw [Handle.read?]
      cases hRead : device.ring.readAt? handle.position count with
      | none => exact Or.inr ⟨fun chunk hOk => (by cases hOk), rfl⟩
      | some chunk => exact Or.inl ⟨chunk, rfl, rfl⟩

namespace Desk

variable {desk after : Desk} {s t : Bytes} {name : String}

/-- What one call through the handle brings is what the stream of packets has there. -/
theorem brought_perform (hHolds : desk.device.Holds s) (attempts : List Attempt) {act : DeskAct}
    (hAct : act.movesOn) :
    act.brought (desk.perform name attempts act).1 <+:
      (lines s).flatten.drop (desk.evicted s + (desk.handle name).position) ∧
    ((desk.perform name attempts act).2.handle name).position =
      (desk.handle name).position + (act.brought (desk.perform name attempts act).1).length := by
  cases act with
  | write data room => exact ⟨List.nil_prefix, rfl⟩
  | writeAll data => exact ⟨List.nil_prefix, rfl⟩
  | read count =>
    rw [perform]
    rcases Handle.read_cases (desk.handle name) desk.device count attempts with
      ⟨chunk, hRead, hHere⟩ | ⟨hFailed, hSame⟩
    · rw [hRead]
      refine ⟨?_, by rw [handle_setHandle_self]; rfl⟩
      rw [← List.drop_drop, evicted, hHolds.ring.drop_evictedBytes]
      exact Ring.isPrefix_of_readAt? hHere
    · rcases hRead : (desk.handle name).read desk.device count attempts with ⟨outcome, handle⟩
      rw [hRead] at hFailed hSame
      obtain rfl : handle = desk.handle name := hSame
      have hNone : (DeskAct.read count).brought (.bytes outcome) = [] := by
        cases outcome with
        | ok chunk => exact absurd rfl (hFailed chunk)
        | _ => rfl
      dsimp only
      rw [hNone, handle_setHandle_self]
      exact ⟨List.nil_prefix, rfl⟩
  | _ => cases hAct

/-- One call brought `chunk` to the handle and took the stream from `s` to `t`. -/
structure Advances (name : String) (desk : Desk) (s chunk : Bytes) (after : Desk) (t : Bytes) :
    Prop where
  holds : after.device.Holds t
  chunk_isPrefix :
    chunk <+: (lines s).flatten.drop (desk.evicted s + (desk.handle name).position)
  position_eq : (after.handle name).position = (desk.handle name).position + chunk.length
  evicted_le : desk.evicted s ≤ after.evicted t
  stream_isPrefix : (lines s).flatten <+: (lines t).flatten

/-- A call through the handle reads on or writes, and a call through another one does not touch
it. -/
theorem advances_perform (hHolds : desk.device.Holds s) (call : DeskCall)
    (hReader : call.name = name → call.act.movesOn) :
    let answer := (desk.perform call.name call.attempts call.act).1
    Advances name desk s (call.broughtTo name answer)
      (desk.perform call.name call.attempts call.act).2 (s ++ call.act.written answer) := by
  intro answer
  obtain ⟨hCapacity, hAfter, -⟩ := continues_perform hHolds call.name call.attempts call.act
  have hHere : call.broughtTo name answer <+:
        (lines s).flatten.drop (desk.evicted s + (desk.handle name).position) ∧
      ((desk.perform call.name call.attempts call.act).2.handle name).position =
        (desk.handle name).position + (call.broughtTo name answer).length := by
    rw [DeskCall.broughtTo]
    by_cases hName : call.name = name
    · rw [if_pos hName]
      subst hName
      exact brought_perform hHolds call.attempts (hReader rfl)
    · rw [if_neg hName, handle_perform_of_ne desk (Ne.symm hName)]
      exact ⟨List.nil_prefix, rfl⟩
  refine ⟨hAfter, hHere.1, hHere.2, ?_, ?_⟩
  · rw [evicted, evicted, hCapacity, lines_append]
    exact Ring.evictedBytes_le_append _ _ _
  · exact List.IsPrefix.flatten (lines_prefix_append s _)

/-- Over a run the handle received `received`, and the stream went from `s` to `t`. -/
structure Receives (name : String) (desk : Desk) (s : Bytes) (received : List (UInt8 × Nat))
    (last : Desk) (t : Bytes) : Prop where
  holds : last.device.Holds t
  numbered :
    Numbered (lines t).flatten (desk.evicted s + (desk.handle name).position) received
  position_eq : (last.handle name).position = (desk.handle name).position + received.length
  evicted_le : desk.evicted s ≤ last.evicted t
  stream_isPrefix : (lines s).flatten <+: (lines t).flatten
  whole : last.evicted t = 0 →
    received.map Prod.fst <+: (lines t).flatten.drop (desk.handle name).position

theorem Receives.nil (hHolds : desk.device.Holds s) : Receives name desk s [] desk s where
  holds := hHolds
  numbered := .nil
  position_eq := rfl
  evicted_le := Nat.le_refl _
  stream_isPrefix := List.prefix_refl _
  whole := fun _ => List.nil_prefix

/-- Between two calls the numbers do not fall back: what the handle skips has been evicted. -/
theorem Receives.cons {chunk u : Bytes} {received : List (UInt8 × Nat)} {last : Desk}
    (hStep : Advances name desk s chunk after t) (hLater : Receives name after t received last u) :
    Receives name desk s
      (chunk.zipIdx (desk.evicted s + (desk.handle name).position) ++ received) last u where
  holds := hLater.holds
  numbered := by
    have hMoved := hStep.position_eq
    have hLe := hStep.evicted_le
    refine .append (hStep.stream_isPrefix.trans hLater.stream_isPrefix) (by omega)
      (.zipIdx hStep.chunk_isPrefix) (fun entry hEntry => ?_) hLater.numbered
    have hLt := (List.mem_zipIdx hEntry).2.1
    omega
  position_eq := by
    rw [hLater.position_eq, hStep.position_eq, List.length_append, List.length_zipIdx,
      Nat.add_assoc]
  evicted_le := hStep.evicted_le.trans hLater.evicted_le
  stream_isPrefix := hStep.stream_isPrefix.trans hLater.stream_isPrefix
  whole := fun hNone => by
    have hBefore : desk.evicted s = 0 := by
      have hLe := hStep.evicted_le.trans hLater.evicted_le
      omega
    have hChunk := hStep.chunk_isPrefix
    rw [hBefore, Nat.zero_add] at hChunk
    obtain ⟨rest, hRest⟩ := hChunk.trans
      (List.IsPrefix.drop (hStep.stream_isPrefix.trans hLater.stream_isPrefix) _)
    have hMore := hLater.whole hNone
    rw [hStep.position_eq, ← List.drop_drop, ← hRest, List.drop_left] at hMore
    rw [List.map_append, List.zipIdx_map_fst, ← hRest]
    exact (List.prefix_append_right_inj chunk).mpr hMore

theorem delivered_cons (name : String) (desk : Desk) (s : Bytes) (call : DeskCall)
    (later : List DeskCall) :
    delivered name desk s (call :: later) =
      (call.broughtTo name (desk.perform call.name call.attempts call.act).1).zipIdx
          (desk.evicted s + (desk.handle name).position) ++
        (desk.perform call.name call.attempts call.act).2.delivered name
          (s ++ call.act.written (desk.perform call.name call.attempts call.act).1) later := rfl

theorem receives_delivered (hHolds : desk.device.Holds s) {calls : List DeskCall}
    (hReader : ∀ call ∈ calls, call.name = name → call.act.movesOn) :
    Receives name desk s (delivered name desk s calls) (desk.run calls).2
      (s ++ written (desk.run calls).1) := by
  induction calls generalizing desk s with
  | nil =>
    rw [run, written, List.flatMap_nil, List.append_nil]
    exact .nil hHolds
  | cons call later ih =>
    obtain ⟨hFirst, hLater⟩ := List.forall_mem_cons.mp hReader
    have hStep := advances_perform hHolds call hFirst
    rw [run_cons, delivered_cons, written, List.flatMap_cons, ← List.append_assoc]
    exact .cons hStep (ih hStep.holds hLater)

theorem readAt?_of_perform_read {count : Nat} {attempts : List Attempt} {chunk : Bytes}
    (hRead : (desk.perform name attempts (.read count)).1 = .bytes (.ok chunk)) :
    desk.device.ring.readAt? (desk.handle name).position count = some chunk := by
  rw [perform] at hRead
  have hOutcome := DeskAnswer.bytes.inj hRead
  rcases Handle.read_cases (desk.handle name) desk.device count attempts with
    ⟨found, hFound, hHere⟩ | ⟨hFailed, -⟩
  · rw [hFound] at hOutcome
    rw [hHere, Outcome.ok.inj hOutcome]
  · exact absurd hOutcome (hFailed chunk)

/-- **A reader that never seeks receives the stream in order.**  Number the bytes of all packets
committed.  Whatever is written to an empty device, through whatever handles, each read through a
new handle that is only read and written brings consecutive bytes of that stream, which begin at
the number of bytes evicted and the handle's position, and all lie in one retained packet; it brings
none only if it asks for none or is past the last byte.  So the numbers of the bytes received go
up over the whole run, and until a packet is evicted the bytes received are the stream up to the
handle's position. -/
theorem delivered_run {capacity : Nat} (hPos : 0 < capacity) {handles : List (String × Handle)}
    {name : String} {calls : List DeskCall}
    (hNew : ({ device := { ring := { capacity := capacity } }, handles := handles } :
      Desk).handle name = {})
    (hReader : ∀ call ∈ calls, call.name = name → call.act.movesOn) :
    let start : Desk := { device := { ring := { capacity := capacity } }, handles := handles }
    let desk := (start.run calls).2
    let packets := lines (written (start.run calls).1)
    let evicted := (({ capacity := capacity } : Ring).evictions packets)
    let position := (desk.handle name).position
    let received := delivered name start [] calls
    (∀ count attempts chunk,
      (desk.perform name attempts (.read count)).1 = .bytes (.ok chunk) →
      chunk <+: packets.flatten.drop (evicted.flatten.length + position) ∧
      (chunk ≠ [] → ∃ earlier entry later skipped,
        desk.device.ring.entries = earlier ++ entry :: later ∧
        position = earlier.flatten.length + skipped ∧ chunk = (entry.drop skipped).take count) ∧
      (chunk = [] → count = 0 ∨ desk.device.ring.contents.length ≤ position)) ∧
    (∀ byte number, (byte, number) ∈ received → packets.flatten[number]? = some byte) ∧
    (received.map Prod.snd).Pairwise (· < ·) ∧
    received.length = position ∧
    (evicted = [] → received.map Prod.fst = packets.flatten.take position) := by
  intro start desk packets evicted position received
  have hReceives : Receives name start [] received desk (written (start.run calls).1) :=
    receives_delivered (Device.holds_empty hPos) hReader
  obtain ⟨hCapacity, -, -⟩ := holds_run start (Device.holds_empty hPos) calls
  have hEvicted : desk.evicted (written (start.run calls).1) = evicted.flatten.length := by
    rw [Desk.evicted, hCapacity, Ring.evictedBytes, ← Ring.evictions_eq_rdrop hPos]
  have hStart : (start.handle name).position = 0 := by rw [hNew]
  have hPosition : position = received.length := by
    rw [← Nat.zero_add received.length, ← hStart]
    exact hReceives.position_eq
  refine ⟨fun count attempts chunk hRead => ?_, fun byte number hMem => ?_, ?_, hPosition.symm,
    fun hNone => ?_⟩
  · have hHere := readAt?_of_perform_read hRead
    have hRing := hReceives.holds.ring
    refine ⟨?_, Ring.exists_of_readAt? hHere, fun hChunk => ?_⟩
    · rw [← List.drop_drop, ← hEvicted, Desk.evicted, hRing.drop_evictedBytes]
      exact Ring.isPrefix_of_readAt? hHere
    · by_cases hCount : count = 0
      · exact Or.inl hCount
      · exact Or.inr (Ring.length_le_of_readAt?_eq_nil hRing.totalBytes_eq hCount (hChunk ▸ hHere))
  · exact hReceives.numbered.byte_eq _ hMem
  · exact List.pairwise_map.mpr hReceives.numbered.increasing
  · have hWhole := hReceives.whole (by rw [hEvicted, hNone]; rfl)
    rw [hStart, List.drop_zero] at hWhole
    rw [List.prefix_iff_eq_take.mp hWhole, List.length_map, ← hPosition]

/-- The oldest line is evicted while the handle is in the middle of it. -/
theorem delivered_run_of_eviction :
    let calls : List DeskCall :=
      [⟨"w", [⟨true, false⟩], .write [97, 98, 10, 99, 10] true⟩, ⟨"r", [⟨true, false⟩], .read 1⟩,
        ⟨"x", [⟨true, false⟩], .write [100, 101, 102, 10, 103] true⟩,
        ⟨"w", [⟨true, false⟩], .seek (.finish (-1))⟩, ⟨"r", [⟨true, false⟩], .read 9⟩,
        ⟨"r", [⟨true, false⟩], .read 2⟩]
    let start : Desk := { device := { ring := { capacity := 2 } } }
    let desk := (start.run calls).2
    let packets := lines (written (start.run calls).1)
    0 < 2 ∧ start.handle "r" = {} ∧ (∀ call ∈ calls, call.name = "r" → call.act.movesOn) ∧
      packets = [[97, 98, 10], [99, 10], [100, 101, 102, 10]] ∧
      delivered "r" start [] calls = [(97, 0), (10, 4), (100, 5), (101, 6)] ∧
      (desk.handle "r").position = 4 ∧ packets.flatten[5]? = some 100 ∧
      (desk.perform "r" [⟨true, false⟩] (.read 3)).1 = .bytes (.ok [102, 10]) ∧
      [102, 10] <+: packets.flatten.drop (3 + 4) := by
  intro calls start desk packets
  have hPos : 0 < 2 := by decide
  have hNew : start.handle "r" = {} := rfl
  have hReader : ∀ call ∈ calls, call.name = "r" → call.act.movesOn := by decide
  have hDelivered :
      delivered "r" start [] calls = [(97, 0), (10, 4), (100, 5), (101, 6)] := by decide +kernel
  have hPackets : packets = [[97, 98, 10], [99, 10], [100, 101, 102, 10]] := by decide +kernel
  have hAnswer : ((desk.handle "r").read desk.device 3 [⟨true, false⟩]).1 = .ok [102, 10] := by
    decide +kernel
  have hNext : (desk.perform "r" [⟨true, false⟩] (.read 3)).1 = .bytes (.ok [102, 10]) :=
    congrArg DeskAnswer.bytes hAnswer
  have hEvicted : (({ capacity := 2 } : Ring).evictions packets).flatten.length = 3 := by
    decide +kernel
  obtain ⟨hRead, hByte, -, hLength, -⟩ := delivered_run hPos hNew hReader
  rw [hDelivered] at hByte hLength
  have hPosition : (desk.handle "r").position = 4 := hLength.symm
  obtain ⟨hAhead, -⟩ := hRead 3 _ _ hNext
  rw [hEvicted, hPosition] at hAhead
  exact ⟨hPos, hNew, hReader, hPackets, hDelivered, hPosition, hByte 100 5 (by decide), hNext,
    hAhead⟩

end Desk

end PacketLog
