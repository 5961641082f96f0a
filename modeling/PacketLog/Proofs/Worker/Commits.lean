import Mathlib.Data.List.Basic
import PacketLog.Proofs.Assembler.Search
import PacketLog.Proofs.Worker.Steps

/-!
# What a worker commits

Nothing that a worker receives is lost on the way, and nothing is made up: while it
runs, the bytes received are the packets committed, the packet in hand and what the
assembler has pending, in this order (`Balanced`).  Before a read the pending bytes
hold no line, so a worker that stops in the middle of reading has committed every
line up to the first one that is too long.  `Balanced.step` says what one step makes
of the balance, and `Balanced.run` what a run does.
-/

namespace PacketLog

open Bytes

def WorkerEvent.bytes : WorkerEvent → Bytes
  | .received (.received chunk) _ => chunk
  | _ => []

namespace WorkerPhase

/-- The packet that is being committed. -/
def inHand : WorkerPhase → List Entry
  | .committing packet _ => [packet]
  | _ => []

/-- The worker looks for a packet, in its buffer or from its peer. -/
def readsPacket : WorkerPhase → Bool
  | .polling | .watching | .receiving => true
  | _ => false

/-- No packet is left in the buffer. -/
def drained : WorkerPhase → Bool
  | .watching | .receiving => true
  | _ => false

def isOver : WorkerPhase → Bool
  | .finished _ | .broken => true
  | _ => false

end WorkerPhase

/-- How a search for a packet ends for good, but for want of memory. -/
inductive WorkerExit.EndsReading (limit : Option Nat) : WorkerExit → Prop
  | peerClosed : EndsReading limit .peerClosed
  | aborted : EndsReading limit .aborted
  | receiveFailed (failure : IoFailure) : EndsReading limit (.failed (Worker.notReceived failure))
  | oversized {most : Nat} (hLimit : limit = some most) (length : Nat) :
      EndsReading limit (.failed (.oversizedPacket most length))

namespace Worker

def receivedIn (events : List WorkerEvent) : Bytes := events.flatMap WorkerEvent.bytes

def commitOf (worker : Worker) : WorkerEvent → List Entry
  | .committed (.ok ()) => worker.phase.inHand
  | _ => []

def committedIn (worker : Worker) : List WorkerEvent → List Entry
  | [] => []
  | event :: later =>
    worker.commitOf event ++ ((worker.step? event).map fun next => next.committedIn later).getD []

variable {worker next : Worker} {limit : Option Nat} {received : Bytes} {committed : List Entry}

theorem committedIn_cons {event : WorkerEvent} (hStep : worker.step? event = some next)
    (later : List WorkerEvent) :
    worker.committedIn (event :: later) = worker.commitOf event ++ next.committedIn later := by
  rw [committedIn, hStep]
  rfl

theorem committedIn_append {earlier : List WorkerEvent} (hEarlier : worker.run? earlier = some next)
    (later : List WorkerEvent) :
    worker.committedIn (earlier ++ later) =
      worker.committedIn earlier ++ next.committedIn later := by
  induction earlier generalizing worker with
  | nil =>
    obtain rfl := Option.some.inj hEarlier
    rfl
  | cons event earlier ih =>
    obtain ⟨middle, hStep, hRest⟩ := run?_cons hEarlier
    rw [List.cons_append, committedIn_cons hStep, committedIn_cons hStep, ih hRest,
      List.append_assoc]

theorem committedIn_concat {earlier : List WorkerEvent} {event : WorkerEvent} {last : Worker}
    (hEarlier : worker.run? earlier = some next) (hStep : next.step? event = some last) :
    worker.committedIn (earlier ++ [event]) =
      worker.committedIn earlier ++ next.commitOf event := by
  rw [committedIn_append hEarlier, committedIn_cons hStep, committedIn, List.append_nil]

theorem receivedIn_concat (earlier : List WorkerEvent) (event : WorkerEvent) :
    receivedIn (earlier ++ [event]) = receivedIn earlier ++ event.bytes := by
  rw [receivedIn, receivedIn, List.flatMap_append, List.flatMap_singleton]

/-- The bytes received are accounted for: what is committed, what is in hand, what is pending. -/
structure Balanced (limit : Option Nat) (worker : Worker) (received : Bytes)
    (committed : List Entry) : Prop where
  live : worker.phase.isOver = false
  limit_eq : worker.assembler.limit = limit
  received_eq : received =
    (committed ++ worker.phase.inHand).flatten ++ worker.assembler.pending
  packets : ∀ packet ∈ committed ++ worker.phase.inHand,
    IsLine packet ∧ Assembler.fits limit packet
  lines_pending : worker.phase.drained → lines worker.assembler.pending = []

namespace Balanced

theorem admitted_eq (hBalanced : Balanced limit worker received committed) (more : Bytes) :
    Assembler.admitted limit (received ++ more) = (committed ++ worker.phase.inHand) ++
      Assembler.admitted limit (worker.assembler.pending ++ more) := by
  rw [hBalanced.received_eq, List.append_assoc, Assembler.admitted,
    lines_flatten_append_of_isLine (fun packet hMem => (hBalanced.packets packet hMem).1),
    List.takeWhile_append_of_pos fun packet hMem => (hBalanced.packets packet hMem).2,
    Assembler.admitted]

theorem inHand_isPrefix (hBalanced : Balanced limit worker received committed) (more : Bytes) :
    committed ++ worker.phase.inHand <+: Assembler.admitted limit (received ++ more) :=
  ⟨_, (hBalanced.admitted_eq more).symm⟩

theorem committed_isPrefix (hBalanced : Balanced limit worker received committed)
    {event : WorkerEvent} (hCommit : worker.commitOf event = []) (more : Bytes) :
    committed ++ worker.commitOf event <+: Assembler.admitted limit (received ++ more) := by
  rw [hCommit, List.append_nil]
  exact (List.prefix_append _ _).trans (hBalanced.inHand_isPrefix more)

/-- Where no packet is buffered or in hand, everything that may be is committed. -/
theorem committed_eq (hBalanced : Balanced limit worker received committed)
    (hDrained : worker.phase.drained) : committed = Assembler.admitted limit received := by
  have hHand : worker.phase.inHand = [] := by
    cases hPhase : worker.phase <;> rw [hPhase] at hDrained <;> first | rfl | cases hDrained
  have hPending : Assembler.admitted limit worker.assembler.pending = [] := by
    rw [Assembler.admitted, hBalanced.lines_pending hDrained, List.takeWhile_nil]
  have hAdmitted := hBalanced.admitted_eq []
  rw [List.append_nil, List.append_nil, hHand, List.append_nil, hPending, List.append_nil]
    at hAdmitted
  exact hAdmitted.symm

theorem goTo (hBalanced : Balanced limit worker received committed) {event : WorkerEvent}
    {phase : WorkerPhase} (hLive : phase.isOver = false)
    (hHand : worker.phase.inHand = phase.inHand)
    (hDrained : phase.drained → worker.phase.drained) (hBytes : event.bytes = [])
    (hCommit : worker.commitOf event = []) :
    Balanced limit { worker with phase := phase } (received ++ event.bytes)
      (committed ++ worker.commitOf event) := by
  rw [hBytes, hCommit, List.append_nil, List.append_nil]
  obtain ⟨-, hLimit, hReceived, hPackets, hLines⟩ := hBalanced
  rw [hHand] at hReceived hPackets
  exact ⟨hLive, hLimit, hReceived, hPackets, fun h => hLines (hDrained h)⟩

theorem takePacket (hBalanced : Balanced limit worker received committed)
    (hHand : worker.phase.inHand = []) {assembler after : Assembler} {event : WorkerEvent}
    {packet : Entry} {patience : Patience} (hLimit : assembler.limit = worker.assembler.limit)
    (hPending : assembler.pending = worker.assembler.pending ++ event.bytes)
    (hPoll : assembler.poll = (.ok (some packet), after)) (hCommit : worker.commitOf event = []) :
    Balanced limit { worker with assembler := after, phase := .committing packet patience }
      (received ++ event.bytes) (committed ++ worker.commitOf event) := by
  obtain ⟨hLine, hFits, hTaken⟩ := Assembler.of_poll_some hPoll
  have hReceived := hBalanced.received_eq
  have hPackets := hBalanced.packets
  rw [hHand, List.append_nil] at hReceived hPackets
  rw [hLimit, hBalanced.limit_eq] at hFits
  rw [hCommit, List.append_nil]
  refine ⟨rfl, ?_, ?_, ?_, nofun⟩
  · rw [← hBalanced.limit_eq, ← hLimit, ← assembler.limit_poll, hPoll]
  · rw [WorkerPhase.inHand, List.flatten_append, List.flatten_singleton, List.append_assoc,
      ← hTaken, hPending, hReceived, List.append_assoc]
  · rw [WorkerPhase.inHand, List.forall_mem_append, List.forall_mem_singleton]
    exact ⟨hPackets, hLine, hFits⟩

/-- Where none is found the buffer holds no line, and the worker may go and read. -/
theorem findNothing (hBalanced : Balanced limit worker received committed)
    (hHand : worker.phase.inHand = []) {assembler after : Assembler} {event : WorkerEvent}
    (hLimit : assembler.limit = worker.assembler.limit)
    (hPending : assembler.pending = worker.assembler.pending ++ event.bytes)
    (hPoll : assembler.poll = (.ok none, after)) (hCommit : worker.commitOf event = []) :
    Balanced limit { worker with assembler := after, phase := .watching }
      (received ++ event.bytes) (committed ++ worker.commitOf event) := by
  obtain ⟨hLines, -, hKept⟩ := Assembler.of_poll_none hPoll
  have hReceived := hBalanced.received_eq
  have hPackets := hBalanced.packets
  rw [hHand, List.append_nil] at hReceived hPackets
  rw [hCommit, List.append_nil]
  refine ⟨rfl, ?_, ?_, ?_, fun _ => ?_⟩
  · rw [← hBalanced.limit_eq, ← hLimit, ← assembler.limit_poll, hPoll]
  · change received ++ event.bytes = (committed ++ []).flatten ++ after.pending
    rw [List.append_nil, hKept, hPending, hReceived, List.append_assoc]
  · change ∀ packet ∈ committed ++ [], _
    rwa [List.append_nil]
  · rw [hKept, hLines]

theorem commit (hBalanced : Balanced limit worker received committed) :
    Balanced limit { worker with packets := worker.packets + 1, phase := .reading .interruptible }
      (received ++ []) (committed ++ worker.phase.inHand) := by
  obtain ⟨-, hLimit, hReceived, hPackets, -⟩ := hBalanced
  rw [List.append_nil]
  refine ⟨rfl, hLimit, ?_, ?_, nofun⟩
  · change received = (committed ++ worker.phase.inHand ++ []).flatten ++ worker.assembler.pending
    rwa [List.append_nil]
  · change ∀ packet ∈ committed ++ worker.phase.inHand ++ [], _
    rwa [List.append_nil]

/-- A search that ends in an error finds the packet that comes next to be too long. -/
theorem committed_eq_of_poll_error (hBalanced : Balanced limit worker received committed)
    (hHand : worker.phase.inHand = []) {assembler after : Assembler} {more : Bytes} {error : Error}
    (hLimit : assembler.limit = worker.assembler.limit)
    (hPending : assembler.pending = worker.assembler.pending ++ more)
    (hPoll : assembler.poll = (.error error, after)) :
    committed = Assembler.admitted limit (received ++ more) ∧
      ∃ most length, limit = some most ∧ error = .oversizedPacket most length := by
  obtain ⟨hAdmitted, -, most, length, hMost, -, hError⟩ := Assembler.of_poll_error hPoll
  rw [hLimit, hBalanced.limit_eq] at hAdmitted hMost
  refine ⟨?_, most, length, hMost, hError⟩
  rw [hBalanced.admitted_eq, ← hPending, hAdmitted, hHand, List.append_nil, List.append_nil]

end Balanced

/-- The worker is over, and has committed nothing out of turn; if it was looking for a packet, it
has committed every packet there was, unless it ran out of memory. -/
structure Ends (limit : Option Nat) (worker next : Worker) (received : Bytes)
    (committed : List Entry) : Prop where
  isOver : next.phase.isOver
  committed_isPrefix : committed <+: Assembler.admitted limit received
  read : worker.phase.readsPacket → next.phase = .finished (.failed .noRoomToGrow) ∨
    ∃ exit, next.phase = .finished exit ∧ exit.EndsReading limit ∧
      committed = Assembler.admitted limit received

theorem Balanced.ends_elsewhere (hBalanced : Balanced limit worker received committed)
    {event : WorkerEvent} (hOver : next.phase.isOver) (hReads : worker.phase.readsPacket = false)
    (hCommit : worker.commitOf event = []) :
    Ends limit worker next (received ++ event.bytes) (committed ++ worker.commitOf event) where
  isOver := hOver
  committed_isPrefix := hBalanced.committed_isPrefix hCommit _
  read := fun h => by rw [hReads] at h; cases h

theorem ends_reading {exit : WorkerExit} (hPhase : next.phase = .finished exit)
    (hExit : exit.EndsReading limit) (hAll : committed = Assembler.admitted limit received) :
    Ends limit worker next received committed where
  isOver := by rw [hPhase]; rfl
  committed_isPrefix := hAll ▸ List.prefix_refl _
  read := fun _ => Or.inr ⟨exit, hPhase, hExit, hAll⟩

theorem Balanced.ends_drained (hBalanced : Balanced limit worker received committed)
    {event : WorkerEvent} {exit : WorkerExit} (hPhase : next.phase = .finished exit)
    (hExit : exit.EndsReading limit) (hDrained : worker.phase.drained)
    (hBytes : event.bytes = []) (hCommit : worker.commitOf event = []) :
    Ends limit worker next (received ++ event.bytes) (committed ++ worker.commitOf event) := by
  rw [hBytes, hCommit, List.append_nil, List.append_nil]
  exact ends_reading hPhase hExit (hBalanced.committed_eq hDrained)

theorem Balanced.ends_oversized (hBalanced : Balanced limit worker received committed)
    (hHand : worker.phase.inHand = []) {assembler after : Assembler} {event : WorkerEvent}
    {error : Error} (hLimit : assembler.limit = worker.assembler.limit)
    (hPending : assembler.pending = worker.assembler.pending ++ event.bytes)
    (hPoll : assembler.poll = (.error error, after)) (hCommit : worker.commitOf event = []) :
    Ends limit worker { worker with assembler := after, phase := .finished (.failed error) }
      (received ++ event.bytes) (committed ++ worker.commitOf event) := by
  obtain ⟨hAll, most, length, hMost, rfl⟩ :=
    hBalanced.committed_eq_of_poll_error hHand hLimit hPending hPoll
  rw [hCommit, List.append_nil]
  exact ends_reading rfl (.oversized hMost length) hAll

/-- The balance is kept, or the worker is over. -/
theorem Balanced.step (hBalanced : Balanced limit worker received committed) {event : WorkerEvent}
    (hStep : Transition worker event next) :
    Balanced limit next (received ++ event.bytes) (committed ++ worker.commitOf event) ∨
      Ends limit worker next (received ++ event.bytes) (committed ++ worker.commitOf event) := by
  cases hStep with
  | packetPolled hPhase hPoll =>
    have hSame := (List.append_nil worker.assembler.pending).symm
    exact Or.inl (hBalanced.takePacket (by rw [hPhase]; rfl) rfl hSame hPoll rfl)
  | nothingPolled hPhase hPoll =>
    have hSame := (List.append_nil worker.assembler.pending).symm
    exact Or.inl (hBalanced.findNothing (by rw [hPhase]; rfl) rfl hSame hPoll rfl)
  | pollFailed hPhase hPoll =>
    have hSame := (List.append_nil worker.assembler.pending).symm
    exact Or.inr (hBalanced.ends_oversized (by rw [hPhase]; rfl) rfl hSame hPoll rfl)
  | aborted hPhase =>
    exact Or.inr (hBalanced.ends_drained rfl .aborted (by rw [hPhase]; rfl) rfl rfl)
  | cleared hPhase =>
    exact Or.inl (hBalanced.goTo rfl (by rw [hPhase]; rfl) (fun _ => by rw [hPhase]; rfl) rfl rfl)
  | peerClosed hPhase =>
    exact Or.inr (hBalanced.ends_drained rfl .peerClosed (by rw [hPhase]; rfl) rfl rfl)
  | packetReceived hPhase hChunk hLength hFeed =>
    obtain ⟨whole, hLimit, hPending, hPoll⟩ | hRoom := Assembler.feed_cases hChunk hFeed
    · exact Or.inl (hBalanced.takePacket (by rw [hPhase]; rfl) hLimit hPending hPoll rfl)
    · cases hRoom
  | nothingReceived hPhase hChunk hLength hFeed =>
    obtain ⟨whole, hLimit, hPending, hPoll⟩ | hRoom := Assembler.feed_cases hChunk hFeed
    · exact Or.inl (hBalanced.findNothing (by rw [hPhase]; rfl) hLimit hPending hPoll rfl)
    · cases hRoom
  | feedFailed hPhase hChunk hLength hFeed =>
    obtain ⟨whole, hLimit, hPending, hPoll⟩ | hRoom := Assembler.feed_cases hChunk hFeed
    · exact Or.inr (hBalanced.ends_oversized (by rw [hPhase]; rfl) hLimit hPending hPoll rfl)
    · obtain ⟨hError, rfl⟩ := Prod.mk.inj hRoom
      obtain rfl := Except.error.inj hError
      exact Or.inr ⟨rfl, hBalanced.committed_isPrefix rfl _, fun _ => Or.inl rfl⟩
  | receiveRetried hPhase hRetry =>
    exact Or.inl (hBalanced.goTo rfl (by rw [hPhase]; rfl) (fun _ => by rw [hPhase]; rfl) rfl rfl)
  | @receiveFailed failure room hPhase hRetry =>
    exact Or.inr (hBalanced.ends_drained rfl (.receiveFailed failure) (by rw [hPhase]; rfl) rfl rfl)
  | committed hPhase =>
    exact Or.inl hBalanced.commit
  | commitRepeated hPhase hAgain =>
    exact Or.inl (hBalanced.goTo rfl (by rw [hPhase]; rfl) nofun rfl rfl)
  | commitFailed hPhase hAgain =>
    exact Or.inr (hBalanced.ends_elsewhere rfl (by rw [hPhase]; rfl) rfl)
  | commitBroken hPhase =>
    exact Or.inr (hBalanced.ends_elsewhere rfl (by rw [hPhase]; rfl) rfl)
  | snapshotted hPhase =>
    refine Or.inl (hBalanced.goTo ?_ ?_ (fun h => ?_) rfl rfl)
    · split <;> rfl
    · rw [hPhase]
      split <;> rfl
    · split at h <;> cases h
  | snapshotRepeated hPhase hAgain =>
    exact Or.inl (hBalanced.goTo rfl (by rw [hPhase]; rfl) (fun h => by cases h) rfl rfl)
  | snapshotFailed hPhase hAgain =>
    exact Or.inr (hBalanced.ends_elsewhere rfl (by rw [hPhase]; rfl) rfl)
  | snapshotBroken hPhase =>
    exact Or.inr (hBalanced.ends_elsewhere rfl (by rw [hPhase]; rfl) rfl)
  | sentNothing hPhase =>
    exact Or.inr (hBalanced.ends_elsewhere rfl (by rw [hPhase]; rfl) rfl)
  | sent hPhase hPos hCount =>
    refine Or.inl (hBalanced.goTo ?_ ?_ (fun h => ?_) rfl rfl)
    · split <;> rfl
    · rw [hPhase]
      split <;> rfl
    · split at h <;> cases h
  | sendStalled hPhase hRetry =>
    exact Or.inl (hBalanced.goTo rfl (by rw [hPhase]; rfl) (fun h => by cases h) rfl rfl)
  | sendFailed hPhase hRetry =>
    exact Or.inr (hBalanced.ends_elsewhere rfl (by rw [hPhase]; rfl) rfl)
  | gaveUp hPhase =>
    exact Or.inr (hBalanced.ends_elsewhere rfl (by rw [hPhase]; rfl) rfl)
  | resumed hPhase =>
    exact Or.inl (hBalanced.goTo rfl (by rw [hPhase]; rfl) (fun h => by cases h) rfl rfl)

theorem not_transition_of_isOver {event : WorkerEvent} (hOver : worker.phase.isOver) :
    ¬ Transition worker event next := by
  intro hStep
  cases hStep <;> simp_all [WorkerPhase.isOver]

theorem run?_of_isOver (hOver : worker.phase.isOver) {events : List WorkerEvent} {last : Worker}
    (hRun : worker.run? events = some last) : events = [] ∧ last = worker := by
  cases events with
  | nil => exact ⟨rfl, (Option.some.inj hRun).symm⟩
  | cons event later =>
    obtain ⟨next, hStep, -⟩ := run?_cons hRun
    exact absurd (transition_of_step? hStep) (not_transition_of_isOver hOver)

/-- The balance holds to the end, or the worker is over. -/
theorem Balanced.run (hBalanced : Balanced limit worker received committed)
    {events : List WorkerEvent} {last : Worker} (hRun : worker.run? events = some last) :
    Balanced limit last (received ++ receivedIn events) (committed ++ worker.committedIn events) ∨
      last.phase.isOver ∧ committed ++ worker.committedIn events <+:
        Assembler.admitted limit (received ++ receivedIn events) := by
  induction events generalizing worker received committed with
  | nil =>
    obtain rfl := Option.some.inj hRun
    rw [receivedIn, List.flatMap_nil, committedIn, List.append_nil, List.append_nil]
    exact Or.inl hBalanced
  | cons event later ih =>
    obtain ⟨next, hStep, hRest⟩ := run?_cons hRun
    rw [receivedIn, List.flatMap_cons, committedIn_cons hStep, ← List.append_assoc,
      ← List.append_assoc]
    obtain hNext | hEnds := hBalanced.step (transition_of_step? hStep)
    · exact ih hNext hRest
    · -- After the end no event can happen, so this was the last one.
      obtain ⟨rfl, rfl⟩ := run?_of_isOver hEnds.isOver hRest
      rw [List.flatMap_nil, committedIn, List.append_nil, List.append_nil]
      exact Or.inr ⟨hEnds.isOver, hEnds.committed_isPrefix⟩

theorem balanced_create (id maxPacketBytes chunkSize : Nat) :
    Balanced (some maxPacketBytes) (create id maxPacketBytes chunkSize) [] [] where
  live := rfl
  limit_eq := rfl
  received_eq := rfl
  packets := fun _ hMem => absurd hMem List.not_mem_nil
  lines_pending := nofun

theorem isOver_of_readsPacket (hReads : worker.phase.readsPacket) :
    worker.phase.isOver = false := by
  cases hPhase : worker.phase <;> rw [hPhase] at hReads <;> first | rfl | cases hReads

theorem inHand_of_isOver (hOver : worker.phase.isOver) : worker.phase.inHand = [] := by
  cases hPhase : worker.phase <;> rw [hPhase] at hOver <;> first | rfl | cases hOver

/-- The last step of a run that stops while the worker looks for a packet. -/
theorem Balanced.ends_of_readsPacket (hBalanced : Balanced limit worker received committed)
    {earlier : List WorkerEvent} {event : WorkerEvent} {middle last : Worker}
    (hEarlier : worker.run? earlier = some middle) (hStep : middle.step? event = some last)
    (hReads : middle.phase.readsPacket) (hOver : last.phase.isOver) :
    Ends limit middle last (received ++ receivedIn (earlier ++ [event]))
      (committed ++ worker.committedIn (earlier ++ [event])) := by
  rw [receivedIn_concat, committedIn_concat hEarlier hStep, ← List.append_assoc,
    ← List.append_assoc]
  obtain hMiddle | ⟨hMiddleOver, -⟩ := hBalanced.run hEarlier
  · obtain hLast | hEnds := hMiddle.step (transition_of_step? hStep)
    · rw [hLast.live] at hOver
      cases hOver
    · exact hEnds
  · rw [isOver_of_readsPacket hReads] at hMiddleOver
    cases hMiddleOver

theorem readsPacket_of_peerClosed {event : WorkerEvent} (hStep : Transition worker event next)
    (hClosed : next.phase = .finished .peerClosed) : worker.phase.readsPacket := by
  have hError : ∀ error, WorkerExit.ofError error ≠ .peerClosed := fun error h => by
    rw [WorkerExit.ofError] at h
    split at h <;> cases h
  cases hStep with
  | packetPolled hPhase | nothingPolled hPhase | pollFailed hPhase | aborted hPhase
  | cleared hPhase | peerClosed hPhase | packetReceived hPhase | nothingReceived hPhase
  | feedFailed hPhase | receiveRetried hPhase | receiveFailed hPhase => rw [hPhase]; rfl
  | commitFailed hPhase hAgain | snapshotFailed hPhase hAgain | sendFailed hPhase hRetry
  | gaveUp hPhase => exact absurd (WorkerPhase.finished.inj hClosed) (hError _)
  | snapshotted hPhase | sent hPhase hPos hCount =>
    dsimp only at hClosed
    split at hClosed <;> cases hClosed
  | _ => cases hClosed

/-- **A worker commits the lines it receives, in order and each once.**  With the packet in hand,
what it has committed is the beginning of the lines received up to the first one longer than
`maxPacketBytes`.  If it stops while it looks for a packet, because the peer closed, a read failed,
the signal was raised or the next packet is too long, it has committed all of them. -/
theorem committedIn_prefix_lines {id maxPacketBytes chunkSize : Nat} {events : List WorkerEvent}
    {last : Worker} (hRun : (create id maxPacketBytes chunkSize).run? events = some last) :
    let worker := create id maxPacketBytes chunkSize
    let committed := worker.committedIn events
    let admitted := (lines (receivedIn events)).takeWhile fun line => line.length ≤ maxPacketBytes
    committed <+: lines (receivedIn events) ∧
    (∀ packet ∈ committed, packet.length ≤ maxPacketBytes) ∧
    committed ++ last.phase.inHand <+: admitted ∧
    (last.phase = .finished .peerClosed → committed = admitted) ∧
    ∀ earlier event middle, events = earlier ++ [event] → worker.run? earlier = some middle →
      middle.phase.readsPacket → ∀ exit, last.phase = .finished exit →
        exit = .failed .noRoomToGrow ∨
          exit.EndsReading (some maxPacketBytes) ∧ committed = admitted := by
  intro worker committed admitted
  have hStart := balanced_create id maxPacketBytes chunkSize
  have hPrefix : committed ++ last.phase.inHand <+: admitted := by
    obtain hBalanced | ⟨hOver, hCommitted⟩ := hStart.run hRun
    · have hHand := hBalanced.inHand_isPrefix []
      rwa [List.append_nil] at hHand
    · rw [inHand_of_isOver hOver, List.append_nil]
      exact hCommitted
  have hCommitted : committed <+: admitted := (List.prefix_append _ _).trans hPrefix
  have hRead : ∀ earlier event middle, events = earlier ++ [event] →
      worker.run? earlier = some middle → middle.phase.readsPacket → ∀ exit,
        last.phase = .finished exit → exit = .failed .noRoomToGrow ∨
          exit.EndsReading (some maxPacketBytes) ∧ committed = admitted := by
    rintro earlier event middle rfl hEarlier hReads exit hExit
    have hStep := step?_of_run?_concat hEarlier hRun
    have hEnds := hStart.ends_of_readsPacket hEarlier hStep hReads (by rw [hExit]; rfl)
    obtain hRoom | ⟨found, hFound, hEnding, hAll⟩ := hEnds.read hReads
    · exact Or.inl (WorkerPhase.finished.inj (hExit.symm.trans hRoom))
    · obtain rfl := WorkerPhase.finished.inj (hExit.symm.trans hFound)
      exact Or.inr ⟨hEnding, hAll⟩
  refine ⟨hCommitted.trans (List.takeWhile_prefix _), fun packet hMem => ?_, hPrefix,
    fun hClosed => ?_, hRead⟩
  · have hFits := List.mem_takeWhile_imp (hCommitted.subset hMem)
    exact of_decide_eq_true hFits
  · obtain rfl | ⟨earlier, event, rfl⟩ := List.eq_nil_or_concat' events
    · obtain rfl := Option.some.inj hRun
      cases hClosed
    · obtain ⟨middle, hEarlier, hLast⟩ := run?_concat hRun
      have hReads := readsPacket_of_peerClosed (transition_of_step? hLast) hClosed
      obtain hRoom | ⟨-, hAll⟩ := hRead earlier event middle rfl hEarlier hReads _ hClosed
      · cases hRoom
      · exact hAll

/-- The short line of a chunk is committed before the long one behind it is refused. -/
theorem committedIn_prefix_lines_of_long_line :
    let worker := create 1 4 16
    let earlier : List WorkerEvent :=
      [.polled, .looked false, .received (.received [97, 98, 10, 99, 100, 101, 102, 10]) true,
        .committed (.ok ()), .snapshotted (.ok [97, 98, 10]), .sent (.sent 3)]
    ∃ last, worker.run? (earlier ++ [.polled]) = some last ∧
      last.phase = .finished (.failed (.oversizedPacket 4 5)) ∧
      worker.committedIn (earlier ++ [.polled]) = [[97, 98, 10]] := by
  intro worker earlier
  obtain ⟨last, hLast, hPhase⟩ : ∃ last, worker.run? (earlier ++ [.polled]) = some last ∧
      last.phase = .finished (.failed (.oversizedPacket 4 5)) := ⟨_, rfl, rfl⟩
  obtain ⟨middle, hMiddle, hReads⟩ : ∃ middle, worker.run? earlier = some middle ∧
      middle.phase.readsPacket := ⟨_, rfl, rfl⟩
  obtain ⟨-, -, -, -, hRead⟩ := committedIn_prefix_lines hLast
  obtain hRoom | ⟨-, hAll⟩ := hRead earlier .polled middle rfl hMiddle hReads _ hPhase
  · cases hRoom
  · exact ⟨last, hLast, hPhase, hAll⟩

end Worker

end PacketLog
