import PacketLog.Proofs.FileStore.WriteCalls
import PacketLog.Proofs.Worker.Ending

/-!
# Why a worker ends

A worker ends because its peer has nothing more to send, because it sees the abort signal raised, or
because something has failed: a packet is too long, the buffer cannot grow, a read from the peer or
a write to it fails for good, or the store does.  `Contender.Exits` lists these reasons, each with
the exit that the worker reports, and `exists_exits` finds the one that has ended a run.

To be interrupted is none of them.  The store never is; a call that is interrupted has given up at
the lock, and is made again (`Contender.exits_of_returned`).  A failure of the connection that may
be repeated takes the worker to a look at the abort signal, and from there back to where it was
(`Worker.step_of_isRetryable`).  A write call of a file that is interrupted is made again without
such a look, and leaves no trace (`Store.append_eq_filter`).
-/

namespace PacketLog

open Bytes

namespace WorkerEvent

/-- The connection fails in a way that may be repeated. -/
def isRetryable : WorkerEvent → Bool
  | .received (.failed failure) _ => failure.retryable
  | .sent (.failed failure) => failure.retryable
  | _ => false

end WorkerEvent

/-! ## Failures that may be repeated -/

namespace Worker

variable {worker next last : Worker} {event : WorkerEvent} {events : List WorkerEvent}

/-- After a failure that may be repeated, nothing but the abort signal keeps the worker from going
back to where it was. -/
theorem step_of_isRetryable (hStep : worker.step? event = some next)
    (hRetry : event.isRetryable = true) :
    next.phase.isOver = false ∧ next.step? (.looked false) = some worker ∧
      next.step? (.looked true) = some (next.finish .aborted) := by
  obtain ⟨id, assembler, chunkSize, packets, phase⟩ := worker
  have hTransition := transition_of_step? hStep
  cases hTransition with
  | receiveRetried hPhase =>
    obtain rfl : phase = .receiving := hPhase
    exact ⟨rfl, rfl, rfl⟩
  | @sendStalled rest failure hPhase =>
    obtain rfl : phase = .sending rest := hPhase
    exact ⟨rfl, rfl, rfl⟩
  | receiveFailed hPhase hFatal | sendFailed hPhase hFatal =>
    rw [WorkerEvent.isRetryable, hFatal] at hRetry
    cases hRetry
  | _ => cases hRetry

theorem peerClosed_of_mem (hRun : worker.run? events = some last) {room : Bool}
    (hMem : .received (.received []) room ∈ events) : last.phase = .finished .peerClosed := by
  induction events generalizing worker with
  | nil => cases hMem
  | cons event later ih =>
    obtain ⟨next, hStep, hRest⟩ := run?_cons hRun
    rcases List.mem_cons.mp hMem with rfl | hLater
    · have hClosed : next.phase = .finished .peerClosed := by
        cases transition_of_step? hStep with
        | peerClosed hPhase => rfl
        | packetReceived hPhase hChunk | nothingReceived hPhase hChunk | feedFailed hPhase hChunk =>
          exact absurd rfl hChunk
      obtain ⟨-, rfl⟩ := run?_of_isOver (by rw [hClosed]; rfl) hRest
      exact hClosed
    · exact ih hRest hLater

/-- The store ends a worker only with an error after which the call is not made again. -/
theorem exists_callError? {request : StoreRequest} {exit : WorkerExit}
    (hRequest : (Producer.ofWorker worker).request? = some request)
    (hStep : worker.step? event = some next) (hExit : next.phase = .finished exit) :
    ∃ error, event.callError? = some error ∧ exit = .ofError error ∧
      again error request.patience = false := by
  cases request with
  | commit packet patience =>
    have hPhase := phase_of_request_commit hRequest
    cases transition_of_step? hStep with
    | @commitFailed _ _ error hFailed hAgain =>
      obtain ⟨-, rfl⟩ := WorkerPhase.committing.inj (hFailed.symm.trans hPhase)
      exact ⟨error, rfl, (WorkerPhase.finished.inj hExit).symm, hAgain⟩
    | _ => simp_all
  | snapshot patience =>
    have hPhase := phase_of_request_snapshot hRequest
    cases transition_of_step? hStep with
    | @snapshotFailed _ error hFailed hAgain =>
      obtain rfl := WorkerPhase.reading.inj (hFailed.symm.trans hPhase)
      exact ⟨error, rfl, (WorkerPhase.finished.inj hExit).symm, hAgain⟩
    | snapshotted =>
      dsimp only at hExit
      split at hExit <;> cases hExit
    | _ => simp_all

end Worker

/-- An append is what it would be without the write calls that were interrupted. -/
theorem FileStore.append_eq_filter (store : FileStore) (files : FileSystem) (bytes : Bytes)
    (answers : List WriteAnswer) :
    store.append files bytes answers =
      store.append files bytes (answers.filter fun answer => !answer.interrupts) := by
  induction store, files, bytes, answers using append_induction with
  | done => rw [append_nil]
  | waiting store files bytes hBytes => rw [List.filter_nil, append, if_neg hBytes]
  | zero store files bytes later hBytes =>
    rw [List.filter_cons_of_pos rfl, append_zero _ _ _ hBytes]
  | accepted store files bytes count later hBytes ih =>
    rw [List.filter_cons_of_pos rfl, append_accepted _ _ _ hBytes, ih]
  | interrupted store files bytes failure later hBytes hAgain ih =>
    rw [List.filter_cons_of_neg (by simp [WriteAnswer.interrupts, hAgain]), ih]
  | failed store files bytes failure later hBytes hFinal =>
    rw [List.filter_cons_of_pos (by simp [WriteAnswer.interrupts, hFinal]),
      append_failed _ _ _ hBytes hFinal]

theorem Store.append_eq_filter (store : Store) (files : FileSystem) (entry : Entry)
    (answers : List WriteAnswer) :
    store.append files entry answers =
      store.append files entry (answers.filter fun answer => !answer.interrupts) := by
  cases store with
  | inMemory ring => rfl
  | inFile file => rw [append, append, file.append_eq_filter]

/-! ## What ends a worker -/

/-- The store fails with this error, when it appends or when it is read. -/
inductive Context.StoreFails (context : Context) (error : Error) : Prop
  | append {entry : Entry} {answers : List WriteAnswer} {after : Store × FileSystem}
      (hAppend : context.store.value.append context.files entry answers = (.error error, after))
  | read {answer : ReadAnswer}
      (hRead : (context.store.value.read context.files answer).1 = .error error)

theorem Context.StoreFails.kind {context : Context} {error : Error}
    (hFails : context.StoreFails error) : error.kind = .io ∨ error.kind = .outOfMemory := by
  cases hFails with
  | append hAppend => exact Or.inl ((Store.of_append hAppend).2 error rfl)
  | read hRead => exact Store.kind_of_read hRead

namespace Contender

/-- The event that ends a worker, and the exit that the worker reports. -/
inductive Exits (contender : Contender) : WorkerEvent → WorkerExit → Prop
  | peerClosed {room : Bool} : Exits contender (.received (.received []) room) .peerClosed
  | aborted (hRaised : contender.context.aborted = true) : Exits contender (.looked true) .aborted
  /-- What is buffered has a packet, complete or not, that is longer than the limit. -/
  | oversized {event : WorkerEvent} {most length : Nat}
      (hEvent : event = .polled ∨ event.bytes ≠ [])
      (hLimit : contender.worker.assembler.limit = some most) (hLength : most < length)
      (hRefused : ¬ Assembler.Admissible (some most)
        (contender.worker.assembler.pending ++ event.bytes)) :
      Exits contender event (.failed (.oversizedPacket most length))
  | noRoom {chunk : Bytes} :
      Exits contender (.received (.received chunk) false) (.failed .noRoomToGrow)
  | notReceived {failure : IoFailure} {room : Bool} (hFatal : failure.retryable = false) :
      Exits contender (.received (.failed failure) room) (.failed (Worker.notReceived failure))
  | storeFailed {event : WorkerEvent} {error : Error} (hError : event.callError? = some error)
      (hFails : contender.context.StoreFails error) : Exits contender event (.failed error)
  | nothingSent :
      Exits contender (.sent (.sent 0)) (.failed (.ofMessage .io "peer accepted zero bytes"))
  | notSent {failure : IoFailure} (hFatal : failure.retryable = false) :
      Exits contender (.sent (.failed failure))
        (.failed ((Error.ofMessage .io "failed to send to peer").withFailure failure))

variable {contender next last : Contender} {event : ContenderEvent} {events : List ContenderEvent}
  {met : WorkerEvent} {exit : WorkerExit}

theorem Exits.kind_ne {error : Error} (hExits : contender.Exits met (.failed error)) :
    error.kind ≠ .interrupted := by
  cases hExits with
  | storeFailed hError hFails =>
    rcases hFails.kind with hKind | hKind <;> rw [hKind] <;> decide
  | _ => exact nofun

theorem Exits.not_isRetryable (hExits : contender.Exits met exit) : met.isRetryable = false := by
  cases hExits with
  | oversized hEvent =>
    rcases hEvent with rfl | hBytes
    · rfl
    · cases met with
      | received answer room =>
        cases answer with
        | received chunk => rfl
        | failed failure => exact absurd rfl hBytes
      | _ => exact absurd rfl hBytes
  | notReceived hFatal | notSent hFatal => exact hFatal
  | @storeFailed _ error hError =>
    cases met with
    | committed | snapshotted => rfl
    | _ => cases hError
  | _ => rfl

/-- A packet that is too long stops the worker, whether it came just now or was buffered. -/
theorem exits_of_poll_error {assembler after : Assembler} {error : Error}
    (hEvent : met = .polled ∨ met.bytes ≠ [])
    (hLimit : assembler.limit = contender.worker.assembler.limit)
    (hPending : assembler.pending = contender.worker.assembler.pending ++ met.bytes)
    (hPoll : assembler.poll = (.error error, after)) : contender.Exits met (.failed error) := by
  obtain ⟨-, hRefused, most, length, hMost, hLength, rfl⟩ := Assembler.of_poll_error hPoll
  rw [hMost] at hRefused hLimit
  exact .oversized hEvent hLimit.symm hLength (hPending ▸ hRefused)

theorem exits_of_moved {worker : Worker} (hIdle : contender.request? = none)
    (hSees : contender.sees met = true) (hStep : contender.worker.step? met = some worker)
    (hExit : worker.phase = .finished exit) : contender.Exits met exit := by
  have hRequest : (Producer.ofWorker contender.worker).request? = none := hIdle
  cases Worker.transition_of_step? hStep with
  | pollFailed hPhase hPoll =>
    obtain rfl := WorkerPhase.finished.inj hExit
    exact exits_of_poll_error (Or.inl rfl) rfl (List.append_nil _).symm hPoll
  | @feedFailed chunk room error after hPhase hChunk hLength hFeed =>
    obtain rfl := WorkerPhase.finished.inj hExit
    cases room with
    | true =>
      obtain ⟨whole, hLimit, hPending, hPoll⟩ :=
        Assembler.exists_feed_eq_poll hChunk contender.worker.assembler
      exact exits_of_poll_error (Or.inr hChunk) hLimit hPending (hPoll.symm.trans hFeed)
    | false =>
      rw [Assembler.feed_of_no_room hChunk] at hFeed
      obtain ⟨hError, -⟩ := Prod.mk.inj hFeed
      obtain rfl := Except.error.inj hError
      exact .noRoom
  | aborted hPhase | gaveUp hPhase =>
    obtain rfl := WorkerPhase.finished.inj hExit
    exact .aborted (of_decide_eq_true hSees).symm
  | peerClosed hPhase =>
    obtain rfl := WorkerPhase.finished.inj hExit
    exact .peerClosed
  | receiveFailed hPhase hRetry =>
    obtain rfl := WorkerPhase.finished.inj hExit
    exact .notReceived hRetry
  | sentNothing hPhase =>
    obtain rfl := WorkerPhase.finished.inj hExit
    exact .nothingSent
  | sendFailed hPhase hRetry =>
    obtain rfl := WorkerPhase.finished.inj hExit
    exact .notSent hRetry
  | commitFailed hPhase | snapshotFailed hPhase =>
    rw [Producer.request?, hPhase] at hRequest
    cases hRequest
  | snapshotted hPhase | sent hPhase =>
    dsimp only at hExit
    split at hExit <;> cases hExit
  | _ => cases hExit

theorem exits_of_storeFails {error : Error} (hError : met.callError? = some error)
    (hFails : contender.context.StoreFails error) : contender.Exits met (.ofError error) := by
  have hKind : error.kind ≠ .interrupted := by
    rcases hFails.kind with hKind | hKind <;> rw [hKind] <;> decide
  rw [WorkerExit.ofError, if_neg hKind]
  exact .storeFailed hError hFails

theorem exits_of_returned {call : Call} {worker : Worker} (hReturned : call.Returned)
    (hBefore : call.before = contender.context)
    (hRequest : contender.request? = some call.request)
    (hStep : contender.worker.step? call.event = some worker)
    (hExit : worker.phase = .finished exit) : contender.Exits call.event exit := by
  obtain ⟨error, hError, rfl, hAgain⟩ := Worker.exists_callError? hRequest hStep hExit
  refine exits_of_storeFails hError ?_
  cases hReturned with
  | @committed _ _ _ _ _ _ outcome hAppend =>
    cases outcome with
    | error found =>
      obtain rfl : found = error := Option.some.inj hError
      rw [← hBefore]
      exact .append hAppend
    | _ => cases hError
  | @snapshotted _ _ _ _ _ outcome _ hRead =>
    cases outcome with
    | error found =>
      obtain rfl : found = error := Option.some.inj hError
      rw [← hBefore]
      exact .read (congrArg Prod.fst hRead)
    | ok bytes => cases hError
  | @givenUp request _ _ hPatience =>
    obtain rfl : Error.interrupted = error := by cases request <;> exact Option.some.inj hError
    dsimp only at hAgain
    rw [hPatience] at hAgain
    cases hAgain

/-! ## Steps and runs -/

/-- What a step away from the worker's own doing is to the worker: nothing, or a call returns. -/
theorem returned_of_attempted? (hSound : contender.Sound) {request : StoreRequest}
    {tried : Context} {answers : List WriteAnswer} {answer : ReadAnswer}
    (hRequest : contender.request? = some request)
    (hStep : contender.attempted? request tried answers answer = some next) :
    next.worker = contender.worker ∨
      ∃ call : Call, call.Returned ∧ call.before = contender.context ∧
        contender.request? = some call.request ∧ next.calls = contender.calls ++ [call] ∧
        contender.worker.step? call.event = some next.worker := by
  rw [attempted?] at hStep
  dsimp only at hStep
  split at hStep
  · obtain rfl := Option.some.inj hStep
    exact Or.inl rfl
  · next hOver =>
    obtain ⟨worker, hWorker, rfl⟩ := Option.map_eq_some_iff.mp hStep
    obtain ⟨hReturned, -⟩ := Call.returned_of_call hSound.unplanned
      (hSound.acquire_eq hRequest) rfl hOver rfl
    exact Or.inr ⟨_, hReturned, rfl, hRequest, rfl, hWorker⟩

/-- **A step that ends the worker** is one event for it, and one that ends it. -/
theorem exits_of_step? (hSound : contender.Sound) (hStep : contender.step? event = some next)
    (hLive : contender.worker.phase.isOver = false) (hExit : next.worker.phase = .finished exit) :
    ∃ met, contender.metOf event = [met] ∧ contender.Exits met exit := by
  have hMoves : next.worker ≠ contender.worker := by
    intro hSame
    rw [← hSame, hExit] at hLive
    cases hLive
  have hCalled (hMet : contender.metOf event =
        (next.calls.drop contender.calls.length).map Call.event)
      {request : StoreRequest} {tried : Context} {answers : List WriteAnswer} {answer : ReadAnswer}
      (hRequest : contender.request? = some request)
      (hAttempt : contender.attempted? request tried answers answer = some next) :
      ∃ met, contender.metOf event = [met] ∧ contender.Exits met exit := by
    obtain hSame | ⟨call, hReturned, hBefore, hCall, hCalls, hWorker⟩ :=
      returned_of_attempted? hSound hRequest hAttempt
    · exact absurd hSame hMoves
    · rw [hCalls, List.drop_left, List.map_singleton] at hMet
      exact ⟨call.event, hMet, exits_of_returned hReturned hBefore hCall hWorker hExit⟩
  cases event with
  | elsewhere left =>
    obtain rfl := Option.some.inj hStep
    exact absurd rfl hMoves
  | moved met =>
    rw [step?] at hStep
    split at hStep
    · next hAllowed =>
      obtain ⟨worker, hWorker, rfl⟩ := Option.map_eq_some_iff.mp hStep
      exact ⟨met, rfl, exits_of_moved hAllowed.1 hAllowed.2 hWorker hExit⟩
    · cases hStep
  | tried answers answer =>
    have hMet := metOf_eq (by rintro _ ⟨⟩) hStep
    rw [step?] at hStep
    split at hStep
    · next request _ hRequest =>
      split at hStep
      · obtain rfl := Option.some.inj hStep
        exact absurd rfl hMoves
      · exact hCalled hMet hRequest hStep
    · cases hStep
  | looked =>
    have hMet := metOf_eq (by rintro _ ⟨⟩) hStep
    rw [step?] at hStep
    split at hStep
    · next tried request _ hRequest => exact hCalled hMet hRequest hStep
    · cases hStep

theorem run?_append (contender : Contender) (earlier later : List ContenderEvent) :
    contender.run? (earlier ++ later) =
      (contender.run? earlier).bind fun middle => middle.run? later := by
  induction earlier generalizing contender with
  | nil => rfl
  | cons event earlier ih =>
    simp only [List.cons_append, run?, ih, Option.bind_assoc]

theorem metIn_append {earlier : List ContenderEvent} (hEarlier : contender.run? earlier = some next)
    (later : List ContenderEvent) :
    contender.metIn (earlier ++ later) = contender.metIn earlier ++ next.metIn later := by
  induction earlier generalizing contender with
  | nil =>
    obtain rfl := Option.some.inj hEarlier
    rfl
  | cons event earlier ih =>
    obtain ⟨middle, hStep, hRest⟩ := Option.bind_eq_some_iff.mp hEarlier
    rw [List.cons_append, metIn_cons hStep, metIn_cons hStep, ih hRest, List.append_assoc]

theorem exists_exits (hSound : contender.Sound) (hLive : contender.worker.phase.isOver = false)
    (hRun : contender.run? events = some last) (hExit : last.worker.phase = .finished exit) :
    ∃ earlier event later middle met, events = earlier ++ event :: later ∧
      contender.run? earlier = some middle ∧ middle.worker.phase.isOver = false ∧
      middle.metOf event = [met] ∧ middle.Exits met exit := by
  induction events generalizing contender with
  | nil =>
    obtain rfl := Option.some.inj hRun
    rw [hExit] at hLive
    cases hLive
  | cons event later ih =>
    obtain ⟨next, hStep, hRest⟩ := Option.bind_eq_some_iff.mp hRun
    cases hOver : next.worker.phase.isOver with
    | true =>
      -- The worker stays as it is from here on.
      obtain ⟨-, hSame⟩ := Worker.run?_of_isOver hOver (run?_metIn hRest)
      rw [hSame] at hExit
      obtain ⟨met, hMet, hExits⟩ := exits_of_step? hSound hStep hLive hExit
      exact ⟨[], event, later, contender, met, rfl, rfl, hLive, hMet, hExits⟩
    | false =>
      obtain ⟨earlier, ending, rest, middle, met, rfl, hEarlier, hMiddle, hMet, hExits⟩ :=
        ih (hSound.step (transition_of_step? hStep)) hOver hRest
      refine ⟨event :: earlier, ending, rest, middle, met, rfl, ?_, hMiddle, hMet, hExits⟩
      rw [run?, hStep]
      exact hEarlier

/-- **What a worker's exit says.**  However others act, take the lock and raise the abort signal
while a worker serves its connection over a ring or a file: it reports that its peer has closed just
when a read brought nothing.  Every other exit has a step of its own, too: the worker saw the signal
raised, or a packet was too long, the buffer could not grow, or a read, the store or a write failed
for good.  So it reports that it was aborted only if the signal was raised while it ran, and the
error of a failure is never an interruption.

A failure of the connection that may be repeated ends nothing: unless the signal is raised, the
worker is then back where it was.  Nor does a write call of a file that is interrupted: the append
is what it would be without it. -/
theorem exits_run {id maxPacketBytes chunkSize : Nat} {context : Context}
    (hUnplanned : context.faults.plan = [])
    (hRun : (start id maxPacketBytes chunkSize context).run? events = some last) :
    let first := start id maxPacketBytes chunkSize context
    (last.worker.phase = .finished .peerClosed ↔
      ∃ room, .received (.received []) room ∈ first.metIn events) ∧
    (last.worker.phase = .finished .aborted → ∃ earlier later middle,
      events = earlier ++ later ∧ first.run? earlier = some middle ∧
      middle.worker.phase.isOver = false ∧ middle.context.aborted = true) ∧
    (∀ error, last.worker.phase = .finished (.failed error) → error.kind ≠ .interrupted) ∧
    (∀ exit, last.worker.phase = .finished exit → ∃ earlier event later middle met,
      events = earlier ++ event :: later ∧ first.run? earlier = some middle ∧
      middle.metOf event = [met] ∧ middle.Exits met exit ∧ met.isRetryable = false) ∧
    (∀ worker event next, Worker.step? worker event = some next → event.isRetryable = true →
      next.phase.isOver = false ∧ next.step? (.looked false) = some worker ∧
      next.step? (.looked true) = some (next.finish .aborted)) ∧
    ∀ (store : Store) files entry answers, store.append files entry answers =
      store.append files entry (answers.filter fun answer => !answer.interrupts) := by
  intro first
  have hExits : ∀ exit, last.worker.phase = .finished exit → ∃ earlier event later middle met,
      events = earlier ++ event :: later ∧ first.run? earlier = some middle ∧
      middle.worker.phase.isOver = false ∧ middle.metOf event = [met] ∧
      middle.Exits met exit := by
    intro exit hExit
    exact exists_exits (sound_start id maxPacketBytes chunkSize hUnplanned) rfl hRun hExit
  refine ⟨⟨?_, ?_⟩, ?_, ?_, ?_, fun worker event next => Worker.step_of_isRetryable,
    Store.append_eq_filter⟩
  · intro hClosed
    obtain ⟨earlier, event, later, middle, met, rfl, hEarlier, -, hMet, hEnds⟩ := hExits _ hClosed
    rw [run?_append, hEarlier, Option.bind_some] at hRun
    obtain ⟨next, hStep, -⟩ := Option.bind_eq_some_iff.mp hRun
    cases hEnds with
    | @peerClosed room =>
      refine ⟨room, ?_⟩
      rw [metIn_append hEarlier, metIn_cons hStep, hMet]
      simp
  · rintro ⟨room, hMem⟩
    exact Worker.peerClosed_of_mem (run?_metIn hRun) hMem
  · intro hAborted
    obtain ⟨earlier, event, later, middle, met, hEvents, hEarlier, hLive, -, hEnds⟩ :=
      hExits _ hAborted
    cases hEnds with
    | aborted hRaised => exact ⟨earlier, event :: later, middle, hEvents, hEarlier, hLive, hRaised⟩
  · intro error hFailed
    obtain ⟨earlier, event, later, middle, met, -, -, -, -, hEnds⟩ := hExits _ hFailed
    exact hEnds.kind_ne
  · intro exit hExit
    obtain ⟨earlier, event, later, middle, met, hEvents, hEarlier, -, hMet, hEnds⟩ :=
      hExits exit hExit
    exact ⟨earlier, event, later, middle, met, hEvents, hEarlier, hMet, hEnds,
      hEnds.not_isRetryable⟩

/-- A read times out and a write call is interrupted; then the disk is full. -/
theorem exits_run_of_full_disk :
    let file : FileStore := { path := "/a", inode := 1 }
    let context : Context :=
      { store := { value := .inFile file }
        files := { nodes := [.directory 0 [("a", 1)], .file []], locked := [1] } }
    let timeout : IoFailure := ⟨.wouldBlock, "Resource temporarily unavailable (os error 11)"⟩
    let events : List ContenderEvent :=
      [.moved .polled, .moved (.looked false), .moved (.received (.failed timeout) true),
        .moved (.looked false), .moved (.received (.received [97, 10]) true),
        .tried [.failed .interruptedCall, .failed .noSpace] .whole]
    let error := (file.appendFailure "failed to append to data file").withFailure
      SystemFailure.noSpace.toIoFailure
    ∃ last, (start 1 16 16 context).run? events = some last ∧
      last.worker.phase = .finished (.failed error) ∧ error.kind ≠ .interrupted ∧
      ∃ (middle : Contender) (met : WorkerEvent), middle.Exits met (.failed error) ∧
        met.isRetryable = false := by
  intro file context timeout events error
  obtain ⟨last, hRun, hFailed⟩ : ∃ last, (start 1 16 16 context).run? events = some last ∧
      last.worker.phase = .finished (.failed error) := ⟨_, rfl, rfl⟩
  obtain ⟨-, -, hKind, hEnds, -⟩ := exits_run (by rfl) hRun
  obtain ⟨-, -, -, middle, met, -, -, -, hExits, hFatal⟩ := hEnds _ hFailed
  exact ⟨last, hRun, hFailed, hKind error hFailed, middle, met, hExits, hFatal⟩

end Contender

end PacketLog
