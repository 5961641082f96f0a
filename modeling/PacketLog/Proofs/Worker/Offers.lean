import PacketLog.Proofs.Worker.Contention

/-!
# Every packet is offered to the store once

A worker that shares its context with others makes a commit again if it gave up at the lock, and
only then.  `Worker.GoesOn` says what it makes of the answer to a call: the packet it had in hand
has gone to the store, or it is in hand still.  `Contender.Sound` keeps the books of a whole run:
the packets offered to the store, and the one in hand, are the packets taken, each of them once
(`Sound.step`, `Sound.run`).  `offered_run` puts this together with what a call can come to.
-/

namespace PacketLog

/-! ## What the worker makes of it -/

namespace Worker

variable {worker next : Worker}

theorem live_of_idle {event : WorkerEvent} (hIdle : (Producer.ofWorker worker).request? = none)
    (hStep : Transition worker event next) : next.phase ≠ .broken := by
  intro hBroken
  cases hStep with
  | commitBroken hPhase | snapshotBroken hPhase =>
    rw [Producer.request?, hPhase] at hIdle
    cases hIdle
  | snapshotted hPhase | sent hPhase hPos hCount =>
    dsimp only at hBroken
    split at hBroken <;> cases hBroken
  | _ => cases hBroken

/-- What a worker has made of the answer to its call: of the packets it had in hand, those `offered`
have gone to the store. -/
structure GoesOn (worker : Worker) (event : WorkerEvent) (offered : List Entry) (next : Worker) :
    Prop where
  inHand_eq : offered ++ next.phase.inHand = worker.phase.inHand
  live : next.phase ≠ .broken
  failed : ∀ error, event = .committed (.error error) → error.kind ≠ .interrupted →
    next.phase = .finished (.failed error)

/-- A commit that has reached the store is not made again. -/
theorem goesOn_committed {entry : Entry} {patience : Patience} {outcome : Outcome (Option Entry)}
    (hPhase : worker.phase = .committing entry patience) (hCrash : outcome ≠ .crash)
    (hError : ∀ error, outcome = .error error → error.kind = .io)
    (hStep : worker.step? (.committed (outcome.map fun _ => ())) = some next) :
    GoesOn worker (.committed (outcome.map fun _ => ())) [entry] next := by
  have hHand : worker.phase.inHand = [entry] := by rw [hPhase]; rfl
  rw [step?_committed hPhase] at hStep
  cases outcome with
  | ok value =>
    obtain rfl := Option.some.inj hStep
    exact ⟨hHand.symm, (by rintro ⟨⟩), (by rintro error ⟨⟩)⟩
  | error error =>
    have hKind : error.kind ≠ .interrupted := by rw [hError error rfl]; decide
    have hNever : again error patience = false := by rw [again, decide_eq_false hKind]; rfl
    rw [Outcome.map, onCommitted, hNever] at hStep
    obtain rfl := Option.some.inj hStep
    refine ⟨hHand.symm, (by rintro ⟨⟩), ?_⟩
    rintro _ ⟨⟩ -
    show WorkerPhase.finished (.ofError error) = _
    rw [WorkerExit.ofError, if_neg hKind]
  | crash => exact absurd rfl hCrash
  | waiting => cases hStep

theorem goesOn_snapshotted {patience : Patience} {result : Except Error Bytes}
    (hPhase : worker.phase = .reading patience)
    (hStep : worker.step? (.snapshotted (.ofExcept result)) = some next) :
    GoesOn worker (.snapshotted (.ofExcept result)) [] next := by
  have hHand : worker.phase.inHand = [] := by rw [hPhase]; rfl
  rw [step?_snapshotted hPhase] at hStep
  cases result with
  | ok contents =>
    obtain rfl := Option.some.inj hStep
    refine ⟨?_, ?_, (by rintro error ⟨⟩)⟩
    · rw [hHand, goTo]
      split <;> rfl
    · rw [goTo]
      split <;> rintro ⟨⟩
  | error error =>
    rw [Outcome.ofExcept, onSnapshotted] at hStep
    split at hStep
    · obtain rfl := Option.some.inj hStep
      exact ⟨hHand.symm, (by rintro ⟨⟩), (by rintro error ⟨⟩)⟩
    · obtain rfl := Option.some.inj hStep
      exact ⟨hHand.symm, (by rintro ⟨⟩), (by rintro error ⟨⟩)⟩

theorem goesOn_givenUp {request : StoreRequest} (hPatience : request.patience = .interruptible)
    (hRequest : (Producer.ofWorker worker).request? = some request)
    (hStep : worker.step? request.givenUp = some next) :
    GoesOn worker request.givenUp [] next := by
  cases request with
  | commit entry patience =>
    obtain rfl : patience = .interruptible := hPatience
    have hPhase := phase_of_request_commit hRequest
    rw [StoreRequest.givenUp, step?_committed hPhase] at hStep
    obtain rfl := Option.some.inj hStep
    refine ⟨by rw [hPhase]; rfl, (by rintro ⟨⟩), ?_⟩
    rintro _ ⟨⟩ hKind
    exact absurd rfl hKind
  | snapshot patience =>
    obtain rfl : patience = .interruptible := hPatience
    have hPhase := phase_of_request_snapshot hRequest
    rw [StoreRequest.givenUp, step?_snapshotted hPhase] at hStep
    obtain rfl := Option.some.inj hStep
    exact ⟨by rw [hPhase]; rfl, (by rintro ⟨⟩), (by rintro error ⟨⟩)⟩

/-- **A worker goes on after a call.**  The packet it had in hand has been offered to the store, or
is in hand still. -/
theorem goesOn_of_returned {call : Call} (hReturned : call.Returned)
    (hRequest : (Producer.ofWorker worker).request? = some call.request)
    (hStep : worker.step? call.event = some next) : GoesOn worker call.event call.offered next := by
  cases hReturned with
  | committed hAppend =>
    obtain ⟨hCrash, hError⟩ := Store.of_append hAppend
    exact goesOn_committed (phase_of_request_commit hRequest) hCrash hError hStep
  | snapshotted hRead hStore hFiles =>
    exact goesOn_snapshotted (phase_of_request_snapshot hRequest) hStep
  | @givenUp request tried before hPatience hHeld hAborted =>
    have hNone : Call.offered
        { request := request
          tried := tried
          acquisition := .interrupted
          before := before
          event := request.givenUp
          after := before } = [] := by cases request <;> rfl
    rw [hNone]
    exact goesOn_givenUp hPatience hRequest hStep

end Worker

/-! ## Steps and runs -/

namespace Contender

variable {contender next last : Contender}

/-- The books are right: the packets offered to the store, and the one in hand, are those taken. -/
structure Sound (contender : Contender) : Prop where
  unplanned : contender.context.Unplanned
  waiting : contender.attempts = [] ∨ ∃ request, contender.request? = some request ∧
    request.patience.acquire contender.attempts = .waiting
  live : contender.worker.phase ≠ .broken
  returned : ∀ call ∈ contender.calls, call.Returned
  taken_eq :
    contender.calls.flatMap Call.offered ++ contender.worker.phase.inHand = contender.taken
  packets_eq : contender.worker.packets = contender.calls.countP Call.succeeded
  /-- An append that fails is the end. -/
  failed : ∀ call ∈ contender.calls, ∀ error, call.event = .committed (.error error) →
    error.kind ≠ .interrupted → contender.worker.phase = .finished (.failed error)

theorem sound_start (id maxPacketBytes chunkSize : Nat) {context : Context}
    (hUnplanned : context.Unplanned) : (start id maxPacketBytes chunkSize context).Sound where
  unplanned := hUnplanned
  waiting := Or.inl rfl
  live := nofun
  returned := fun _ hCall => absurd hCall List.not_mem_nil
  taken_eq := rfl
  packets_eq := rfl
  failed := fun _ hCall => absurd hCall List.not_mem_nil

theorem Sound.acquire_eq (hSound : contender.Sound) {request : StoreRequest}
    (hRequest : contender.request? = some request) :
    request.patience.acquire contender.attempts = .waiting := by
  obtain hNone | ⟨found, hFound, hWaiting⟩ := hSound.waiting
  · rw [hNone, Patience.acquire]
  · obtain rfl := Option.some.inj (hFound.symm.trans hRequest)
    exact hWaiting

/-- As long as the worker goes on, no append has failed. -/
theorem Sound.not_failed (hSound : contender.Sound) {event : WorkerEvent} {worker : Worker}
    (hStep : contender.worker.step? event = some worker) {call : Call}
    (hCall : call ∈ contender.calls) {error : Error}
    (hError : call.event = .committed (.error error)) : error.kind = .interrupted := by
  by_contra hKind
  have hOver := hSound.failed call hCall error hError hKind
  exact Worker.not_transition_of_isOver (by rw [hOver]; rfl) (Worker.transition_of_step? hStep)

theorem Sound.moved (hSound : contender.Sound) {event : WorkerEvent} {worker : Worker}
    (hIdle : contender.request? = none) (hStep : contender.worker.step? event = some worker) :
    ({ contender with
        worker := worker, taken := contender.taken ++ worker.phase.inHand } : Contender).Sound := by
  have hMoved : (Producer.ofWorker contender.worker).step? (.ofWorker event) =
      some (.ofWorker worker) := by rw [Producer.step?, hStep]; rfl
  obtain ⟨-, hPackets, -⟩ := Producer.of_step? hIdle hMoved
  have hTaken := hSound.taken_eq
  rw [Worker.inHand_of_idle hIdle, List.append_nil] at hTaken
  exact
    { unplanned := hSound.unplanned
      waiting := by
        obtain hNone | ⟨request, hRequest, -⟩ := hSound.waiting
        · exact Or.inl hNone
        · rw [hIdle] at hRequest
          cases hRequest
      live := Worker.live_of_idle hIdle (Worker.transition_of_step? hStep)
      returned := hSound.returned
      taken_eq := by rw [hTaken]
      packets_eq := hPackets.trans hSound.packets_eq
      failed := fun call hCall error hError hKind =>
        absurd (hSound.not_failed hStep hCall hError) hKind }

theorem Sound.goOn (hSound : contender.Sound) {call : Call} {worker : Worker}
    (hReturned : call.Returned) (hUnplanned : call.after.Unplanned)
    (hRequest : contender.request? = some call.request)
    (hStep : contender.worker.step? call.event = some worker) :
    (contender.afterCall call worker).Sound := by
  obtain ⟨hHand, hLive, hFailed⟩ := Worker.goesOn_of_returned hReturned hRequest hStep
  have hTaken : (contender.calls ++ [call]).flatMap Call.offered ++ worker.phase.inHand =
      contender.taken := by
    rw [List.flatMap_append, List.flatMap_singleton, List.append_assoc, hHand, hSound.taken_eq]
  have hPackets : worker.packets = (contender.calls ++ [call]).countP Call.succeeded := by
    rw [List.countP_append, List.countP_singleton, ← hSound.packets_eq,
      Worker.packets_of_transition (Worker.transition_of_step? hStep), Call.succeeded]
    simp only [decide_eq_true_eq]
  exact
    { unplanned := hUnplanned
      waiting := Or.inl rfl
      live := hLive
      returned := List.forall_mem_append.mpr
        ⟨hSound.returned, List.forall_mem_singleton.mpr hReturned⟩
      taken_eq := hTaken
      packets_eq := hPackets
      failed := List.forall_mem_append.mpr
        ⟨fun old hOld error hError hKind => absurd (hSound.not_failed hStep hOld hError) hKind,
          List.forall_mem_singleton.mpr hFailed⟩ }

/-- Whatever the worker and the others do, the books stay right. -/
theorem Sound.step (hSound : contender.Sound) (hStep : Transition contender next) :
    next.Sound := by
  cases hStep with
  | elsewhere left => exact { hSound with unplanned := hSound.unplanned }
  | moved hIdle hWorker => exact hSound.moved hIdle hWorker
  | missed hHeld => exact { hSound with }
  | waited hRequest hWaiting => exact { hSound with waiting := Or.inr ⟨_, hRequest, hWaiting⟩ }
  | returned hRequest hAttempts hOver hCall hWorker =>
    obtain ⟨hReturned, hUnplanned⟩ := Call.returned_of_call hSound.unplanned
      (hSound.acquire_eq hRequest) hAttempts hOver hCall
    exact hSound.goOn hReturned hUnplanned hRequest hWorker

theorem Sound.run (hSound : contender.Sound) {events : List ContenderEvent}
    (hRun : contender.run? events = some last) : last.Sound := by
  induction events generalizing contender with
  | nil =>
    obtain rfl := Option.some.inj hRun
    exact hSound
  | cons event later ih =>
    obtain ⟨next, hStep, hRest⟩ := Option.bind_eq_some_iff.mp hRun
    exact ih (hSound.step (transition_of_step? hStep)) hRest

/-- A packet in hand is offered to the store as soon as the lock is tried while it is free, whatever
the abort signal says. -/
theorem Sound.offer (hSound : contender.Sound) {packet : Entry} {patience : Patience}
    (hPhase : contender.worker.phase = .committing packet patience)
    (hMissed : contender.missed? = none) (hFree : contender.context.store.held = false)
    {answers : List WriteAnswer} {outcome : Outcome (Option Entry)} {store : Store}
    {files : FileSystem}
    (hAppend : contender.context.store.value.append contender.context.files packet answers =
      (outcome, store, files))
    (hReturns : outcome ≠ .waiting) (answer : ReadAnswer) :
    ∃ next call, contender.step? (.tried answers answer) = some next ∧
      next.calls = contender.calls ++ [call] ∧ call.offered = [packet] ∧
      next.context.store.value = store ∧ next.context.files = files := by
  have hRequest : contender.request? = some (.commit packet patience) := by
    rw [request?, Producer.request?, hPhase]
  have hAcquired : patience.acquire (contender.attempts ++
      [contender.context.store.attempt contender.context.aborted]) = .acquired :=
    (Patience.acquire_append (hSound.acquire_eq hRequest) _).trans
      (Patience.acquire_of_free (by rw [Exclusion.attempt, hFree]; rfl))
  obtain ⟨after, hHeld, hStore, hFiles⟩ : ∃ after : Context,
      contender.context.appendHeld packet answers = (outcome.map fun _ => (), after) ∧
      after.store.value = store ∧ after.files = files :=
    ⟨_, Context.appendHeld_eq hSound.unplanned hAppend, rfl, rfl⟩
  have hCall : StoreRequest.call contender.context (contender.attempts ++
      [contender.context.store.attempt contender.context.aborted]) answers answer
      (.commit packet patience) = (.committed (outcome.map fun _ => ()), after) := by
    rw [StoreRequest.call, Context.commit, hAcquired, Acquisition.enter, hHeld]
  obtain ⟨worker, hWorker⟩ : ∃ worker, contender.worker.step?
      (.committed (outcome.map fun _ => ())) = some worker := by
    rw [Worker.step?_committed hPhase]
    cases outcome with
    | ok value => exact ⟨_, rfl⟩
    | error error =>
      rw [Outcome.map, Worker.onCommitted]
      split <;> exact ⟨_, rfl⟩
    | crash => exact ⟨_, rfl⟩
    | waiting => exact absurd rfl hReturns
  refine ⟨contender.afterCall
    { request := .commit packet patience
      tried := contender.context
      acquisition := .acquired
      before := contender.context
      event := .committed (outcome.map fun _ => ())
      after := after } worker, _, ?_, rfl, rfl, hStore, hFiles⟩
  rw [step?, hMissed, hRequest]
  dsimp only
  rw [hFree, if_neg Bool.false_ne_true]
  exact attempted?_of_acquired hAcquired hCall hWorker

/-- **Every packet is offered to the store once.**  However others act, take the lock and raise the
abort signal while a worker serves its connection over a ring or a file: a call is interrupted only
if it waits interruptibly, the lock was held at its last attempt and the signal is raised, and then
it has changed nothing.  The packets offered to the store, and the one in hand, are the packets
taken in hand, each once: a commit is one append, or gave up at the lock and left all as it was; any
other call moves no more than the position of a file, and an append that fails is the worker's last.
A packet in hand is offered as soon as the lock is tried while it is free, signal or not.  The
worker's count is that of the appends that succeeded, in its summary too, however it ends, and then
no packet is in hand. -/
theorem offered_run {id maxPacketBytes chunkSize : Nat} {context : Context}
    (hUnplanned : context.faults.plan = []) {events : List ContenderEvent}
    (hRun : (start id maxPacketBytes chunkSize context).run? events = some last) :
    (∀ call ∈ last.calls, ∀ error, call.event.callError? = some error →
      error.kind = .interrupted →
        call.request.patience = .interruptible ∧ call.tried.store.held = true ∧
        call.before.aborted = true ∧ call.after = call.before) ∧
    last.calls.flatMap Call.offered ++ last.worker.phase.inHand = last.taken ∧
    (∀ call ∈ last.calls, ∀ entry patience, call.request = .commit entry patience →
      (call.offered = [entry] ∧ ∃ answers outcome,
        call.before.store.value.append call.before.files entry answers =
          (outcome, call.after.store.value, call.after.files) ∧
        call.event = .committed (outcome.map fun _ => ())) ∨
      call.offered = [] ∧ call.event = .committed (.error .interrupted) ∧
        call.after = call.before) ∧
    (∀ call ∈ last.calls, call.offered = [] →
      (∃ position, call.after.store =
        { call.before.store with value := call.before.store.value.seek position }) ∧
      call.after.files = call.before.files) ∧
    (∀ call ∈ last.calls, ∀ error, call.event = .committed (.error error) →
      error.kind ≠ .interrupted → last.worker.phase = .finished (.failed error)) ∧
    (∀ packet patience, last.worker.phase = .committing packet patience →
      last.missed? = none → last.context.store.held = false →
      ∀ answers outcome store files, last.context.store.value.append last.context.files packet
        answers = (outcome, store, files) → outcome ≠ .waiting →
      ∀ answer, ∃ next call, last.step? (.tried answers answer) = some next ∧
        next.calls = last.calls ++ [call] ∧ call.offered = [packet] ∧
        next.context.store.value = store ∧ next.context.files = files) ∧
    last.worker.packets = last.calls.countP Call.succeeded ∧
    last.worker.thread ≠ .broken ∧
    ∀ summary, last.worker.thread = .ended summary →
      summary.packets = last.calls.countP Call.succeeded ∧
      last.calls.flatMap Call.offered = last.taken := by
  have hSound : last.Sound := (sound_start id maxPacketBytes chunkSize hUnplanned).run hRun
  refine ⟨fun call hCall => (hSound.returned call hCall).of_interrupted, hSound.taken_eq,
    fun call hCall => (hSound.returned call hCall).of_commit,
    fun call hCall => (hSound.returned call hCall).exists_seek, hSound.failed,
    fun packet patience hPhase hMissed hFree answers outcome store files hAppend hReturns answer =>
      hSound.offer hPhase hMissed hFree hAppend hReturns answer,
    hSound.packets_eq, fun hBroken => ?_, fun summary hEnded => ?_⟩
  · unfold Worker.thread at hBroken
    split at hBroken
    · cases hBroken
    · next hPhase => exact hSound.live hPhase
    · cases hBroken
  · unfold Worker.thread at hEnded
    split at hEnded
    · next exit hPhase =>
      obtain rfl := ThreadState.ended.inj hEnded
      have hTaken := hSound.taken_eq
      rw [Worker.inHand_of_isOver (by rw [hPhase]; rfl), List.append_nil] at hTaken
      exact ⟨hSound.packets_eq, hTaken⟩
    · cases hEnded
    · cases hEnded

/-- The lock is held by another, who raises the abort signal meanwhile: the commit is interrupted,
waits out an attempt, and is made when the lock is free. -/
theorem offered_run_of_contention :
    let context : Context := { store := { value := .inMemory { capacity := 2 } } }
    let busy : Context := { store := { value := .inMemory { capacity := 2 }, held := true } }
    let events : List ContenderEvent :=
      [.moved .polled, .moved (.looked false), .moved (.received (.received [97, 10]) true),
        .elsewhere busy, .tried [] .whole, .elsewhere busy.raise, .looked,
        .tried [] .whole, .looked, .elsewhere context, .tried [] .whole, .tried [] .whole,
        .moved (.sent (.sent 2)), .moved .polled, .moved (.looked true)]
    ∃ last, (start 1 16 16 context).run? events = some last ∧ context.faults.plan = [] ∧
      last.calls.length = 3 ∧ last.taken = [[97, 10]] ∧
      last.calls.flatMap Call.offered = [[97, 10]] ∧
      last.worker.thread = .ended { id := 1, packets := 1, exit := .aborted } ∧
      last.calls.countP Call.succeeded = 1 := by
  intro context busy events
  obtain ⟨last, hRun, hCalls, hTaken, hEnded⟩ : ∃ last,
      (start 1 16 16 context).run? events = some last ∧ last.calls.length = 3 ∧
      last.taken = [[97, 10]] ∧
      last.worker.thread = .ended { id := 1, packets := 1, exit := .aborted } :=
    ⟨_, rfl, rfl, rfl, rfl⟩
  have hUnplanned : context.faults.plan = [] := rfl
  obtain ⟨-, -, -, -, -, -, -, -, hSummary⟩ := offered_run hUnplanned hRun
  obtain ⟨hPackets, hOffered⟩ := hSummary _ hEnded
  exact ⟨last, hRun, hUnplanned, hCalls, hTaken, hOffered.trans hTaken, hEnded, hPackets.symm⟩

end Contender

end PacketLog
