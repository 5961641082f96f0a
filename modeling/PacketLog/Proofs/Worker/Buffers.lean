import PacketLog.Proofs.Assembler.Calls
import PacketLog.Proofs.Worker.Commits

/-!
# How much a worker buffers

The limit on packets is looked at after a chunk has been buffered, and then for the
first packet only, so by itself it bounds neither the chunk nor the packets behind the
first.  What bounds the buffer is that a worker empties it of packets before it reads:
at a read nothing is pending but a piece of one line, no longer than the limit, and
all that can come on top is one chunk (`Confined`).  `pending_le_of_run` says so of
every run, whatever the peer sends.
-/

namespace PacketLog

open Bytes

namespace Assembler

theorem length_pending_perform_le (assembler : Assembler) (call : AssemblerCall) :
    (assembler.perform call).2.pending.length ≤
      assembler.pending.length + call.fed.length := by
  have hCall := assembler.accounts_perform call
  cases hClears : AssemblerEntry.clears ⟨call, (assembler.perform call).1⟩ with
  | true =>
    rw [(hCall.cleared hClears).1]
    exact Nat.zero_le _
  | false =>
    have hLength := congrArg List.length (hCall.kept hClears)
    simp only [List.length_append] at hLength
    omega

/-- Where a search finds no packet, a piece of one line is pending, and it is not too long. -/
theorem pending_of_poll_none {assembler after : Assembler} {most : Nat}
    (hLimit : assembler.limit = some most) (hPoll : assembler.poll = (.ok none, after)) :
    newline ∉ after.pending ∧ after.pending.length ≤ most := by
  obtain ⟨hLines, hFits, hSame⟩ := of_poll_none hPoll
  rw [hSame]
  rw [hLimit] at hFits
  exact ⟨(lines_eq_nil_iff _).mp hLines, of_decide_eq_true hFits⟩

theorem pending_of_feed_none {assembler after : Assembler} {chunk : Bytes} {room : Bool}
    {most : Nat} (hLimit : assembler.limit = some most) (hChunk : chunk ≠ [])
    (hFeed : assembler.feed chunk room = (.ok none, after)) :
    newline ∉ after.pending ∧ after.pending.length ≤ most := by
  obtain ⟨whole, hWhole, -, hPoll⟩ | hRoom := feed_cases hChunk hFeed
  · exact pending_of_poll_none (hWhole.trans hLimit) hPoll
  · cases hRoom

end Assembler

namespace Worker

variable {worker next : Worker} {most : Nat}

/-- No more is buffered than one packet and one chunk, and before a read no more than a piece of a
packet. -/
structure Confined (most : Nat) (worker : Worker) : Prop where
  limit_eq : worker.assembler.limit = some most
  length_pending_le : worker.assembler.pending.length ≤ most + worker.chunkSize
  of_drained : worker.phase.drained →
    newline ∉ worker.assembler.pending ∧ worker.assembler.pending.length ≤ most

theorem confined_create (id maxPacketBytes chunkSize : Nat) :
    Confined maxPacketBytes (create id maxPacketBytes chunkSize) where
  limit_eq := rfl
  length_pending_le := Nat.zero_le _
  of_drained := nofun

namespace Confined

theorem congr (hConfined : Confined most worker) (hAssembler : next.assembler = worker.assembler)
    (hChunk : next.chunkSize = worker.chunkSize)
    (hDrained : next.phase.drained → worker.phase.drained) : Confined most next := by
  refine ⟨?_, ?_, fun hNext => ?_⟩
  · rw [hAssembler, hConfined.limit_eq]
  · rw [hAssembler, hChunk]
    exact hConfined.length_pending_le
  · rw [hAssembler]
    exact hConfined.of_drained (hDrained hNext)

/-- A step that makes a call on the buffer, which brings no more than a chunk to what is there
before a read. -/
theorem call (hConfined : Confined most worker) (call : AssemblerCall)
    {answer : Except Error (Option Entry)} {after : Assembler} {phase : WorkerPhase}
    (hCall : worker.assembler.perform call = (answer, after))
    (hFed : call.fed = [] ∨ worker.phase.drained ∧ call.fed.length ≤ worker.chunkSize)
    (hDrained : phase.drained → newline ∉ after.pending ∧ after.pending.length ≤ most) :
    Confined most { worker with assembler := after, phase := phase } := by
  have hLimit := worker.assembler.limit_perform call
  have hLength := worker.assembler.length_pending_perform_le call
  rw [hCall] at hLimit hLength
  dsimp only at hLimit hLength
  refine ⟨hLimit.trans hConfined.limit_eq, ?_, hDrained⟩
  dsimp only
  obtain hNothing | ⟨hHere, hChunk⟩ := hFed
  · have hBefore := hConfined.length_pending_le
    rw [hNothing, List.length_nil] at hLength
    omega
  · obtain ⟨-, hPiece⟩ := hConfined.of_drained hHere
    omega

theorem fed_of_chunk {chunk : Bytes} {room : Bool} (hPhase : worker.phase = .receiving)
    (hLength : chunk.length ≤ worker.chunkSize) :
    (AssemblerCall.feed chunk room).fed = [] ∨
      worker.phase.drained ∧ (AssemblerCall.feed chunk room).fed.length ≤ worker.chunkSize := by
  cases room with
  | false => exact Or.inl rfl
  | true => exact Or.inr ⟨by rw [hPhase]; rfl, hLength⟩

theorem step (hConfined : Confined most worker) {event : WorkerEvent}
    (hStep : Transition worker event next) : Confined most next := by
  cases hStep with
  | packetPolled hPhase hPoll => exact hConfined.call .poll hPoll (Or.inl rfl) nofun
  | nothingPolled hPhase hPoll =>
    exact hConfined.call .poll hPoll (Or.inl rfl) fun _ =>
      Assembler.pending_of_poll_none hConfined.limit_eq hPoll
  | pollFailed hPhase hPoll => exact hConfined.call .poll hPoll (Or.inl rfl) nofun
  | @packetReceived chunk room packet after hPhase hChunk hLength hFeed =>
    exact hConfined.call (.feed chunk room) hFeed (fed_of_chunk hPhase hLength) nofun
  | @nothingReceived chunk room after hPhase hChunk hLength hFeed =>
    exact hConfined.call (.feed chunk room) hFeed (fed_of_chunk hPhase hLength) fun _ =>
      Assembler.pending_of_feed_none hConfined.limit_eq hChunk hFeed
  | @feedFailed chunk room error after hPhase hChunk hLength hFeed =>
    exact hConfined.call (.feed chunk room) hFeed (fed_of_chunk hPhase hLength) nofun
  | cleared hPhase | receiveRetried hPhase =>
    exact hConfined.congr rfl rfl fun _ => by rw [hPhase]; rfl
  | snapshotted hPhase | sent hPhase =>
    refine hConfined.congr rfl rfl fun hNext => ?_
    dsimp only at hNext
    split at hNext <;> cases hNext
  | _ => exact hConfined.congr rfl rfl nofun

end Confined

theorem Transition.chunkSize_eq {event : WorkerEvent} (hStep : Transition worker event next) :
    next.chunkSize = worker.chunkSize := by
  cases hStep <;> rfl

theorem Confined.run (hConfined : Confined most worker) {events : List WorkerEvent}
    {last : Worker} (hRun : worker.run? events = some last) :
    Confined most last ∧ last.chunkSize = worker.chunkSize := by
  induction events generalizing worker with
  | nil =>
    obtain rfl := Option.some.inj hRun
    exact ⟨hConfined, rfl⟩
  | cons event later ih =>
    obtain ⟨next, hStep, hRest⟩ := run?_cons hRun
    have hTransition := transition_of_step? hStep
    obtain ⟨hLast, hChunk⟩ := ih (hConfined.step hTransition) hRest
    exact ⟨hLast, hChunk.trans hTransition.chunkSize_eq⟩

/-- **What a peer can make a worker buffer.**  Whenever a worker reads, its buffer holds no newline
and at most `maxPacketBytes` bytes.  At no time does it hold more than a chunk on top of that, not
even while what a read has brought is searched for a packet. -/
theorem pending_le_of_run {id maxPacketBytes chunkSize : Nat} {events : List WorkerEvent}
    {last : Worker} (hRun : (create id maxPacketBytes chunkSize).run? events = some last) :
    (last.phase = .receiving →
      newline ∉ last.assembler.pending ∧ last.assembler.pending.length ≤ maxPacketBytes) ∧
    last.assembler.pending.length ≤ maxPacketBytes + max chunkSize 1 ∧
    ∀ chunk room next, last.step? (.received (.received chunk) room) = some next →
      (last.assembler.pending ++ chunk).length ≤ maxPacketBytes + max chunkSize 1 := by
  obtain ⟨hConfined, hChunk⟩ := (confined_create id maxPacketBytes chunkSize).run hRun
  have hSize : last.chunkSize = max chunkSize 1 := hChunk
  have hReading : last.phase = .receiving →
      newline ∉ last.assembler.pending ∧ last.assembler.pending.length ≤ maxPacketBytes :=
    fun hPhase => hConfined.of_drained (by rw [hPhase]; rfl)
  refine ⟨hReading, hSize ▸ hConfined.length_pending_le, fun chunk room next hStep => ?_⟩
  have hArrived : last.phase = .receiving ∧ chunk.length ≤ last.chunkSize := by
    cases transition_of_step? hStep with
    | peerClosed hPhase => exact ⟨hPhase, Nat.zero_le _⟩
    | packetReceived hPhase hChunk hLength => exact ⟨hPhase, hLength⟩
    | nothingReceived hPhase hChunk hLength => exact ⟨hPhase, hLength⟩
    | feedFailed hPhase hChunk hLength => exact ⟨hPhase, hLength⟩
  obtain ⟨hPhase, hLength⟩ := hArrived
  obtain ⟨-, hPiece⟩ := hReading hPhase
  rw [List.length_append]
  omega

/-- The bound is met: a piece as long as a packet may be, and then a whole chunk. -/
theorem pending_le_of_run_of_full_buffer :
    let events : List WorkerEvent :=
      [.polled, .looked false, .received (.received [97, 98]) true, .looked false]
    ∃ last next, (create 1 2 3).run? events = some last ∧
      last.step? (.received (.received [99, 100, 101]) true) = some next ∧
      newline ∉ last.assembler.pending ∧ last.assembler.pending.length ≤ 2 ∧
      (last.assembler.pending ++ [99, 100, 101]).length ≤ 5 ∧
      (last.assembler.pending ++ [99, 100, 101]).length = 5 := by
  intro events
  obtain ⟨last, next, hLast, hPhase, hNext, hFull⟩ : ∃ last next,
      (create 1 2 3).run? events = some last ∧ last.phase = .receiving ∧
      last.step? (.received (.received [99, 100, 101]) true) = some next ∧
      (last.assembler.pending ++ [99, 100, 101]).length = 5 := ⟨_, _, rfl, rfl, rfl, rfl⟩
  obtain ⟨hReading, -, hChunk⟩ := pending_le_of_run hLast
  obtain ⟨hNewline, hPiece⟩ := hReading hPhase
  exact ⟨last, next, hLast, hNext, hNewline, hPiece, hChunk _ _ _ hNext, hFull⟩

end Worker

end PacketLog
