import PacketLog.Worker

/-!
# What one step of a worker can be

`Transition` lists the steps of a worker, guards included, and
`transition_of_step?` says that there are no others.  A run, `run?`, meets any list of
events none of which is out of place.
-/

namespace PacketLog.Worker

/-- One step, with what it was allowed by and all it changed. -/
inductive Transition (worker : Worker) : WorkerEvent → Worker → Prop
  /-- A packet was buffered already. -/
  | packetPolled {packet : Entry} {after : Assembler} (hPhase : worker.phase = .polling)
      (hPoll : worker.assembler.poll = (.ok (some packet), after)) :
      Transition worker .polled
        { worker with assembler := after, phase := .committing packet .interruptible }
  | nothingPolled {after : Assembler} (hPhase : worker.phase = .polling)
      (hPoll : worker.assembler.poll = (.ok none, after)) :
      Transition worker .polled { worker with assembler := after, phase := .watching }
  | pollFailed {error : Error} {after : Assembler} (hPhase : worker.phase = .polling)
      (hPoll : worker.assembler.poll = (.error error, after)) :
      Transition worker .polled
        { worker with assembler := after, phase := .finished (.failed error) }
  | aborted (hPhase : worker.phase = .watching) :
      Transition worker (.looked true) { worker with phase := .finished .aborted }
  | cleared (hPhase : worker.phase = .watching) :
      Transition worker (.looked false) { worker with phase := .receiving }
  | peerClosed {room : Bool} (hPhase : worker.phase = .receiving) :
      Transition worker (.received (.received []) room)
        { worker with phase := .finished .peerClosed }
  | packetReceived {chunk : Bytes} {room : Bool} {packet : Entry} {after : Assembler}
      (hPhase : worker.phase = .receiving) (hChunk : chunk ≠ [])
      (hLength : chunk.length ≤ worker.chunkSize)
      (hFeed : worker.assembler.feed chunk room = (.ok (some packet), after)) :
      Transition worker (.received (.received chunk) room)
        { worker with assembler := after, phase := .committing packet .interruptible }
  | nothingReceived {chunk : Bytes} {room : Bool} {after : Assembler}
      (hPhase : worker.phase = .receiving) (hChunk : chunk ≠ [])
      (hLength : chunk.length ≤ worker.chunkSize)
      (hFeed : worker.assembler.feed chunk room = (.ok none, after)) :
      Transition worker (.received (.received chunk) room)
        { worker with assembler := after, phase := .watching }
  /-- What came is too long for a packet, or there is no room for it. -/
  | feedFailed {chunk : Bytes} {room : Bool} {error : Error} {after : Assembler}
      (hPhase : worker.phase = .receiving) (hChunk : chunk ≠ [])
      (hLength : chunk.length ≤ worker.chunkSize)
      (hFeed : worker.assembler.feed chunk room = (.error error, after)) :
      Transition worker (.received (.received chunk) room)
        { worker with assembler := after, phase := .finished (.failed error) }
  | receiveRetried {failure : IoFailure} {room : Bool} (hPhase : worker.phase = .receiving)
      (hRetry : failure.retryable = true) :
      Transition worker (.received (.failed failure) room) { worker with phase := .watching }
  | receiveFailed {failure : IoFailure} {room : Bool} (hPhase : worker.phase = .receiving)
      (hRetry : failure.retryable = false) :
      Transition worker (.received (.failed failure) room)
        { worker with phase := .finished (.failed (notReceived failure)) }
  | committed {packet : Entry} {patience : Patience}
      (hPhase : worker.phase = .committing packet patience) :
      Transition worker (.committed (.ok ()))
        { worker with packets := worker.packets + 1, phase := .reading .interruptible }
  | commitRepeated {packet : Entry} {patience : Patience} {error : Error}
      (hPhase : worker.phase = .committing packet patience) (hAgain : again error patience = true) :
      Transition worker (.committed (.error error))
        { worker with phase := .committing packet .blocking }
  | commitFailed {packet : Entry} {patience : Patience} {error : Error}
      (hPhase : worker.phase = .committing packet patience)
      (hAgain : again error patience = false) :
      Transition worker (.committed (.error error))
        { worker with phase := .finished (.ofError error) }
  | commitBroken {packet : Entry} {patience : Patience}
      (hPhase : worker.phase = .committing packet patience) :
      Transition worker (.committed .crash) { worker with phase := .broken }
  | snapshotted {patience : Patience} {contents : Bytes}
      (hPhase : worker.phase = .reading patience) :
      Transition worker (.snapshotted (.ok contents))
        { worker with phase := if contents = [] then .polling else .sending contents }
  | snapshotRepeated {patience : Patience} {error : Error}
      (hPhase : worker.phase = .reading patience) (hAgain : again error patience = true) :
      Transition worker (.snapshotted (.error error)) { worker with phase := .reading .blocking }
  | snapshotFailed {patience : Patience} {error : Error}
      (hPhase : worker.phase = .reading patience) (hAgain : again error patience = false) :
      Transition worker (.snapshotted (.error error))
        { worker with phase := .finished (.ofError error) }
  | snapshotBroken {patience : Patience} (hPhase : worker.phase = .reading patience) :
      Transition worker (.snapshotted .crash) { worker with phase := .broken }
  | sentNothing {rest : Bytes} (hPhase : worker.phase = .sending rest) :
      Transition worker (.sent (.sent 0))
        { worker with
          phase := .finished (.failed (.ofMessage .io "peer accepted zero bytes")) }
  | sent {rest : Bytes} {count : Nat} (hPhase : worker.phase = .sending rest) (hPos : 0 < count)
      (hCount : count ≤ rest.length) :
      Transition worker (.sent (.sent count))
        { worker with
          phase := if count = rest.length then .polling else .sending (rest.drop count) }
  | sendStalled {rest : Bytes} {failure : IoFailure} (hPhase : worker.phase = .sending rest)
      (hRetry : failure.retryable = true) :
      Transition worker (.sent (.failed failure)) { worker with phase := .stalled rest }
  | sendFailed {rest : Bytes} {failure : IoFailure} (hPhase : worker.phase = .sending rest)
      (hRetry : failure.retryable = false) :
      Transition worker (.sent (.failed failure))
        { worker with
          phase := .finished (.ofError
            ((Error.ofMessage .io "failed to send to peer").withFailure failure)) }
  | gaveUp {rest : Bytes} (hPhase : worker.phase = .stalled rest) :
      Transition worker (.looked true)
        { worker with phase := .finished (.ofError .interrupted) }
  | resumed {rest : Bytes} (hPhase : worker.phase = .stalled rest) :
      Transition worker (.looked false) { worker with phase := .sending rest }

variable {worker next : Worker}

theorem transition_of_onReceived {answer : ReceiveAnswer} {room : Bool}
    (hPhase : worker.phase = .receiving) (hStep : worker.onReceived room answer = some next) :
    Transition worker (.received answer room) next := by
  cases answer with
  | received chunk =>
    rw [onReceived] at hStep
    split at hStep
    · cases hStep
    · rename_i hLength
      split at hStep
      · rename_i hChunk
        obtain rfl := Option.some.inj hStep
        subst hChunk
        exact .peerClosed hPhase
      · rename_i hChunk
        obtain rfl := Option.some.inj hStep
        rcases hFeed : worker.assembler.feed chunk room with ⟨error | _ | packet, after⟩
        · exact .feedFailed hPhase hChunk (Nat.le_of_not_lt hLength) hFeed
        · exact .nothingReceived hPhase hChunk (Nat.le_of_not_lt hLength) hFeed
        · exact .packetReceived hPhase hChunk (Nat.le_of_not_lt hLength) hFeed
  | failed failure =>
    rw [onReceived] at hStep
    split at hStep
    · rename_i hRetry
      obtain rfl := Option.some.inj hStep
      exact .receiveRetried hPhase hRetry
    · rename_i hRetry
      obtain rfl := Option.some.inj hStep
      exact .receiveFailed hPhase (Bool.eq_false_iff.mpr hRetry)

theorem transition_of_onCommitted {packet : Entry} {patience : Patience} {outcome : Outcome Unit}
    (hPhase : worker.phase = .committing packet patience)
    (hStep : worker.onCommitted packet patience outcome = some next) :
    Transition worker (.committed outcome) next := by
  cases outcome with
  | ok value =>
    obtain rfl := Option.some.inj hStep
    exact .committed hPhase
  | error error =>
    rw [onCommitted] at hStep
    split at hStep
    · rename_i hAgain
      obtain rfl := Option.some.inj hStep
      exact .commitRepeated hPhase hAgain
    · rename_i hAgain
      obtain rfl := Option.some.inj hStep
      exact .commitFailed hPhase (Bool.eq_false_iff.mpr hAgain)
  | crash =>
    obtain rfl := Option.some.inj hStep
    exact .commitBroken hPhase
  | waiting => cases hStep

theorem transition_of_onSnapshotted {patience : Patience} {outcome : Outcome Bytes}
    (hPhase : worker.phase = .reading patience)
    (hStep : worker.onSnapshotted patience outcome = some next) :
    Transition worker (.snapshotted outcome) next := by
  cases outcome with
  | ok contents =>
    obtain rfl := Option.some.inj hStep
    exact .snapshotted hPhase
  | error error =>
    rw [onSnapshotted] at hStep
    split at hStep
    · rename_i hAgain
      obtain rfl := Option.some.inj hStep
      exact .snapshotRepeated hPhase hAgain
    · rename_i hAgain
      obtain rfl := Option.some.inj hStep
      exact .snapshotFailed hPhase (Bool.eq_false_iff.mpr hAgain)
  | crash =>
    obtain rfl := Option.some.inj hStep
    exact .snapshotBroken hPhase
  | waiting => cases hStep

theorem transition_of_onSent {rest : Bytes} {answer : SendAnswer}
    (hPhase : worker.phase = .sending rest) (hStep : worker.onSent rest answer = some next) :
    Transition worker (.sent answer) next := by
  cases answer with
  | sent count =>
    rw [onSent] at hStep
    split at hStep
    · rename_i hZero
      obtain rfl := Option.some.inj hStep
      subst hZero
      exact .sentNothing hPhase
    · rename_i hPos
      split at hStep
      · cases hStep
      · rename_i hCount
        obtain rfl := Option.some.inj hStep
        exact .sent hPhase (Nat.pos_of_ne_zero hPos) (Nat.le_of_not_lt hCount)
  | failed failure =>
    rw [onSent] at hStep
    split at hStep
    · rename_i hRetry
      obtain rfl := Option.some.inj hStep
      exact .sendStalled hPhase hRetry
    · rename_i hRetry
      obtain rfl := Option.some.inj hStep
      exact .sendFailed hPhase (Bool.eq_false_iff.mpr hRetry)

theorem step?_committed {packet : Entry} {patience : Patience}
    (hPhase : worker.phase = .committing packet patience) (outcome : Outcome Unit) :
    worker.step? (.committed outcome) = worker.onCommitted packet patience outcome := by
  unfold step?
  rw [hPhase]

theorem step?_snapshotted {patience : Patience} (hPhase : worker.phase = .reading patience)
    (outcome : Outcome Bytes) :
    worker.step? (.snapshotted outcome) = worker.onSnapshotted patience outcome := by
  unfold step?
  rw [hPhase]

/-- There are no other steps. -/
theorem transition_of_step? {event : WorkerEvent} (hStep : worker.step? event = some next) :
    Transition worker event next := by
  unfold step? at hStep
  split at hStep
  · rename_i hPhase
    obtain rfl := Option.some.inj hStep
    rcases hPoll : worker.assembler.poll with ⟨error | _ | packet, after⟩
    · exact .pollFailed hPhase hPoll
    · exact .nothingPolled hPhase hPoll
    · exact .packetPolled hPhase hPoll
  · rename_i aborted hPhase
    obtain rfl := Option.some.inj hStep
    cases aborted with
    | true => exact .aborted hPhase
    | false => exact .cleared hPhase
  · rename_i hPhase
    exact transition_of_onReceived hPhase hStep
  · rename_i hPhase
    exact transition_of_onCommitted hPhase hStep
  · rename_i hPhase
    exact transition_of_onSnapshotted hPhase hStep
  · rename_i hPhase
    exact transition_of_onSent hPhase hStep
  · rename_i aborted hPhase
    obtain rfl := Option.some.inj hStep
    cases aborted with
    | true => exact .gaveUp hPhase
    | false => exact .resumed hPhase
  · cases hStep

/-! ## Runs -/

/-- What a worker becomes when it meets the events in order, if each of them can happen. -/
def run? (worker : Worker) : List WorkerEvent → Option Worker
  | [] => some worker
  | event :: later => (worker.step? event).bind fun next => next.run? later

theorem run?_cons {event : WorkerEvent} {later : List WorkerEvent} {last : Worker}
    (hRun : worker.run? (event :: later) = some last) :
    ∃ next, worker.step? event = some next ∧ next.run? later = some last :=
  Option.bind_eq_some_iff.mp hRun

theorem run?_append (worker : Worker) (earlier later : List WorkerEvent) :
    worker.run? (earlier ++ later) = (worker.run? earlier).bind fun next => next.run? later := by
  induction earlier generalizing worker with
  | nil => rfl
  | cons event earlier ih =>
    rw [List.cons_append, run?, run?, Option.bind_assoc]
    exact congrArg _ (funext fun next => ih next)

theorem run?_concat {earlier : List WorkerEvent} {event : WorkerEvent} {last : Worker}
    (hRun : worker.run? (earlier ++ [event]) = some last) :
    ∃ middle, worker.run? earlier = some middle ∧ middle.step? event = some last := by
  rw [run?_append] at hRun
  obtain ⟨middle, hEarlier, hLast⟩ := Option.bind_eq_some_iff.mp hRun
  obtain ⟨next, hStep, hNext⟩ := run?_cons hLast
  obtain rfl := Option.some.inj hNext
  exact ⟨middle, hEarlier, hStep⟩

theorem step?_of_run?_concat {earlier : List WorkerEvent} {event : WorkerEvent}
    {middle last : Worker} (hEarlier : worker.run? earlier = some middle)
    (hRun : worker.run? (earlier ++ [event]) = some last) : middle.step? event = some last := by
  obtain ⟨found, hFound, hStep⟩ := run?_concat hRun
  obtain rfl := Option.some.inj (hEarlier.symm.trans hFound)
  exact hStep

end PacketLog.Worker
