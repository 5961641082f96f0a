import PacketLog.Proofs.Store.Calls
import PacketLog.Proofs.Workshop.Producers

/-!
# A worker among others at the store

A worker shares its context with others, who take the lock and give it back, change the store
while they have it, and raise the abort signal, all at any time.  An attempt on the lock has two
parts, the lock and a look at the abort signal, and others act in between.  A contender is such a
worker, with the packets it has taken in hand and the calls of the store that have returned to it.

`Contender.Transition` lists what a step of the whole can be, and `Call.Returned` what a call can
come to: it has reached the store, or it gave up at the lock and changed nothing
(`Call.returned_of_call`).  Nothing but the lock interrupts a call (`Call.Returned.of_interrupted`),
so a commit that was interrupted is safe to repeat.
-/

namespace PacketLog

namespace StoreRequest

def patience : StoreRequest → Patience
  | commit _ patience => patience
  | snapshot patience => patience

/-- Makes the call after the given attempts: what the worker hears of it, and what it leaves. -/
def call (context : Context) (attempts : List Attempt) (answers : List WriteAnswer)
    (answer : ReadAnswer) : StoreRequest → WorkerEvent × Context
  | commit entry patience =>
    let (outcome, context) := context.commit patience attempts entry answers
    (.committed outcome, context)
  | snapshot patience =>
    let (outcome, context) := context.snapshot patience attempts answer
    (.snapshotted outcome, context)

/-- What the worker hears of a call that gave up at the lock. -/
def givenUp : StoreRequest → WorkerEvent
  | commit _ _ => .committed (.error .interrupted)
  | snapshot _ => .snapshotted (.error .interrupted)

end StoreRequest

def WorkerEvent.callError? : WorkerEvent → Option Error
  | .committed (.error error) => some error
  | .snapshotted (.error error) => some error
  | _ => none

/-- A call of the store that has returned. -/
structure Call where
  request : StoreRequest
  /-- What the context was when the lock was last tried. -/
  tried : Context
  /-- What the wait for the lock came to, and what the context was when it was over. -/
  acquisition : Acquisition
  before : Context
  event : WorkerEvent
  after : Context
deriving DecidableEq

namespace Call

def offered (call : Call) : List Entry :=
  match call.request, call.acquisition with
  | .commit entry _, .acquired => [entry]
  | _, _ => []

def succeeded (call : Call) : Bool := call.event = .committed (.ok ())

end Call

structure Contender where
  worker : Worker
  context : Context
  /-- The attempts on the lock in the present call. -/
  attempts : List Attempt := []
  /-- What the context was at an attempt in vain, until the worker looks at the abort signal. -/
  missed? : Option Context := none
  /-- The packets taken in hand. -/
  taken : List Entry := []
  calls : List Call := []
deriving DecidableEq

inductive ContenderEvent
  /-- Others have acted, and leave the context like this. -/
  | elsewhere (left : Context)
  /-- The worker goes on without the store. -/
  | moved (event : WorkerEvent)
  /-- The worker tries the lock.  If it is free the call is made; the calls that write and read a
  file answer as given. -/
  | tried (answers : List WriteAnswer) (answer : ReadAnswer)
  /-- The worker looks at the abort signal after an attempt in vain. -/
  | looked

namespace Contender

def start (id maxPacketBytes chunkSize : Nat) (context : Context) : Contender :=
  { worker := .create id maxPacketBytes chunkSize, context := context }

def request? (contender : Contender) : Option StoreRequest :=
  (Producer.ofWorker contender.worker).request?

/-- Whatever others do, they do not lower the abort signal and plan no faults. -/
def meet (contender : Contender) (left : Context) : Context :=
  { left with
    aborted := contender.context.aborted || left.aborted
    faults := contender.context.faults }

/-- A look at the abort signal sees it as it is. -/
def sees (contender : Contender) : WorkerEvent → Bool
  | .looked aborted => aborted = contender.context.aborted
  | _ => true

def afterCall (contender : Contender) (call : Call) (worker : Worker) : Contender :=
  { contender with
    worker := worker
    context := call.after
    attempts := []
    missed? := none
    calls := contender.calls ++ [call] }

def attempted? (contender : Contender) (request : StoreRequest) (tried : Context)
    (answers : List WriteAnswer) (answer : ReadAnswer) : Option Contender :=
  let context := contender.context
  let attempts := contender.attempts ++ [tried.store.attempt context.aborted]
  if request.patience.acquire attempts = .waiting then
    some { contender with attempts := attempts, missed? := none }
  else
    let (event, after) := request.call context attempts answers answer
    (contender.worker.step? event).map fun worker =>
      contender.afterCall
        { request := request
          tried := tried
          acquisition := request.patience.acquire attempts
          before := context
          event := event
          after := after }
        worker

def step? (contender : Contender) : ContenderEvent → Option Contender
  | .elsewhere left => some { contender with context := contender.meet left }
  | .moved event =>
    if contender.request? = none ∧ contender.sees event then
      (contender.worker.step? event).map fun worker =>
        { contender with worker := worker, taken := contender.taken ++ worker.phase.inHand }
    else none
  | .tried answers answer =>
    match contender.missed?, contender.request? with
    | none, some request =>
      if contender.context.store.held then
        some { contender with missed? := some contender.context }
      else contender.attempted? request contender.context answers answer
    | _, _ => none
  | .looked =>
    match contender.missed?, contender.request? with
    | some tried, some request => contender.attempted? request tried [] .whole
    | _, _ => none

def run? (contender : Contender) : List ContenderEvent → Option Contender
  | [] => some contender
  | event :: later => (contender.step? event).bind fun next => next.run? later

end Contender

/-! ## What one step can be -/

namespace Contender

variable {contender next last : Contender}

inductive Transition (contender : Contender) : Contender → Prop
  | elsewhere (left : Context) :
      Transition contender { contender with context := contender.meet left }
  | moved {event : WorkerEvent} {worker : Worker} (hIdle : contender.request? = none)
      (hStep : contender.worker.step? event = some worker) :
      Transition contender
        { contender with worker := worker, taken := contender.taken ++ worker.phase.inHand }
  | missed (hHeld : contender.context.store.held = true) :
      Transition contender { contender with missed? := some contender.context }
  | waited {request : StoreRequest} {attempt : Attempt}
      (hRequest : contender.request? = some request)
      (hWaiting : request.patience.acquire (contender.attempts ++ [attempt]) = .waiting) :
      Transition contender
        { contender with attempts := contender.attempts ++ [attempt], missed? := none }
  | returned {request : StoreRequest} {tried after : Context} {attempts : List Attempt}
      {answers : List WriteAnswer} {answer : ReadAnswer} {event : WorkerEvent} {worker : Worker}
      (hRequest : contender.request? = some request)
      (hAttempts :
        attempts = contender.attempts ++ [tried.store.attempt contender.context.aborted])
      (hOver : request.patience.acquire attempts ≠ .waiting)
      (hCall : request.call contender.context attempts answers answer = (event, after))
      (hStep : contender.worker.step? event = some worker) :
      Transition contender
        (contender.afterCall
          { request := request
            tried := tried
            acquisition := request.patience.acquire attempts
            before := contender.context
            event := event
            after := after }
          worker)

theorem transition_of_attempted? {request : StoreRequest} {tried : Context}
    {answers : List WriteAnswer} {answer : ReadAnswer}
    (hRequest : contender.request? = some request)
    (hStep : contender.attempted? request tried answers answer = some next) :
    Transition contender next := by
  rw [attempted?] at hStep
  dsimp only at hStep
  split at hStep
  · next hWaiting =>
    obtain rfl := Option.some.inj hStep
    exact .waited hRequest hWaiting
  · next hOver =>
    obtain ⟨worker, hWorker, rfl⟩ := Option.map_eq_some_iff.mp hStep
    exact .returned hRequest rfl hOver rfl hWorker

theorem attempted?_of_acquired {request : StoreRequest} {tried after : Context}
    {answers : List WriteAnswer} {answer : ReadAnswer} {event : WorkerEvent} {worker : Worker}
    (hAcquired : request.patience.acquire
      (contender.attempts ++ [tried.store.attempt contender.context.aborted]) = .acquired)
    (hCall : request.call contender.context
      (contender.attempts ++ [tried.store.attempt contender.context.aborted]) answers answer =
        (event, after))
    (hStep : contender.worker.step? event = some worker) :
    contender.attempted? request tried answers answer =
      some (contender.afterCall
        { request := request
          tried := tried
          acquisition := .acquired
          before := contender.context
          event := event
          after := after }
        worker) := by
  simp only [attempted?, hAcquired, hCall, hStep, reduceCtorEq, if_false, Option.map_some]

theorem transition_of_step? {event : ContenderEvent} (hStep : contender.step? event = some next) :
    Transition contender next := by
  cases event with
  | elsewhere left =>
    obtain rfl := Option.some.inj hStep
    exact .elsewhere left
  | moved event =>
    rw [step?] at hStep
    split at hStep
    · next hAllowed =>
      obtain ⟨worker, hWorker, rfl⟩ := Option.map_eq_some_iff.mp hStep
      exact .moved hAllowed.1 hWorker
    · cases hStep
  | tried answers answer =>
    rw [step?] at hStep
    split at hStep
    · next request _ hRequest =>
      split at hStep
      · next hHeld =>
        obtain rfl := Option.some.inj hStep
        exact .missed hHeld
      · exact transition_of_attempted? hRequest hStep
    · cases hStep
  | looked =>
    rw [step?] at hStep
    split at hStep
    · next tried request _ hRequest => exact transition_of_attempted? hRequest hStep
    · cases hStep

end Contender

/-! ## What a call can come to -/

namespace Call

/-- A call has reached the store, or it has given up at the lock and changed nothing.  A read moves
no more than the position of a file. -/
inductive Returned : Call → Prop
  | committed {entry : Entry} {patience : Patience} {tried before after : Context}
      {answers : List WriteAnswer} {outcome : Outcome (Option Entry)}
      (hAppend : before.store.value.append before.files entry answers =
        (outcome, after.store.value, after.files)) :
      Returned
        { request := .commit entry patience
          tried := tried
          acquisition := .acquired
          before := before
          event := .committed (outcome.map fun _ => ())
          after := after }
  | snapshotted {patience : Patience} {tried before after : Context} {answer : ReadAnswer}
      {outcome : Except Error Bytes} {store : Store}
      (hRead : before.store.value.read before.files answer = (outcome, store))
      (hStore : after.store = { before.store with value := store })
      (hFiles : after.files = before.files) :
      Returned
        { request := .snapshot patience
          tried := tried
          acquisition := .acquired
          before := before
          event := .snapshotted (.ofExcept outcome)
          after := after }
  | givenUp {request : StoreRequest} {tried before : Context}
      (hPatience : request.patience = .interruptible) (hHeld : tried.store.held = true)
      (hAborted : before.aborted = true) :
      Returned
        { request := request
          tried := tried
          acquisition := .interrupted
          before := before
          event := request.givenUp
          after := before }

/-- Only the lock interrupts a call. -/
theorem Returned.of_interrupted {call : Call} (hReturned : call.Returned) (error : Error)
    (hError : call.event.callError? = some error) (hKind : error.kind = .interrupted) :
    call.request.patience = .interruptible ∧ call.tried.store.held = true ∧
      call.before.aborted = true ∧ call.after = call.before := by
  cases hReturned with
  | @committed _ _ _ _ _ _ outcome hAppend =>
    obtain ⟨-, hIo⟩ := Store.of_append hAppend
    cases outcome with
    | error found =>
      obtain rfl := Option.some.inj hError
      rw [hIo _ rfl] at hKind
      cases hKind
    | _ => cases hError
  | @snapshotted _ _ _ _ _ outcome _ hRead hStore hFiles =>
    cases outcome with
    | ok bytes => cases hError
    | error found =>
      obtain rfl := Option.some.inj hError
      rcases Store.kind_of_read (congrArg Prod.fst hRead) with hIo | hMemory
      · rw [hIo] at hKind
        cases hKind
      · rw [hMemory] at hKind
        cases hKind
  | givenUp hPatience hHeld hAborted => exact ⟨hPatience, hHeld, hAborted, rfl⟩

/-- A commit is one append to the store, or it gave up at the lock. -/
theorem Returned.of_commit {call : Call} (hReturned : call.Returned) (entry : Entry)
    (patience : Patience) (hRequest : call.request = .commit entry patience) :
    (call.offered = [entry] ∧ ∃ answers outcome,
      call.before.store.value.append call.before.files entry answers =
        (outcome, call.after.store.value, call.after.files) ∧
      call.event = .committed (outcome.map fun _ => ())) ∨
    call.offered = [] ∧ call.event = .committed (.error .interrupted) ∧
      call.after = call.before := by
  cases hReturned with
  | committed hAppend =>
    obtain ⟨rfl, rfl⟩ := StoreRequest.commit.inj hRequest
    exact Or.inl ⟨rfl, _, _, hAppend, rfl⟩
  | snapshotted hRead hStore hFiles => cases hRequest
  | givenUp hPatience hHeld hAborted =>
    obtain rfl := hRequest
    exact Or.inr ⟨rfl, rfl, rfl⟩

/-- A call that offers nothing to the store moves no more than the position of its file. -/
theorem Returned.exists_seek {call : Call} (hReturned : call.Returned)
    (hNone : call.offered = []) :
    (∃ position, call.after.store =
      { call.before.store with value := call.before.store.value.seek position }) ∧
    call.after.files = call.before.files := by
  cases hReturned with
  | committed hAppend => cases hNone
  | snapshotted hRead hStore hFiles =>
    obtain ⟨position, rfl⟩ := Store.exists_seek_of_read hRead
    exact ⟨⟨position, hStore⟩, hFiles⟩
  | @givenUp _ _ before hPatience hHeld hAborted =>
    obtain ⟨position, hSame⟩ := before.store.value.exists_seek_self
    exact ⟨⟨position, by rw [hSame]⟩, rfl⟩

/-- With the lock the call reaches the store. -/
theorem returned_of_acquired {request : StoreRequest} {tried before after : Context}
    {attempts : List Attempt} {answers : List WriteAnswer} {answer : ReadAnswer}
    {event : WorkerEvent} (hUnplanned : before.Unplanned)
    (hAcquired : request.patience.acquire attempts = .acquired)
    (hCall : request.call before attempts answers answer = (event, after)) :
    Returned
        { request := request
          tried := tried
          acquisition := .acquired
          before := before
          event := event
          after := after } ∧
      after.Unplanned := by
  cases request with
  | commit entry patience =>
    rcases hAppend : before.store.value.append before.files entry answers with
      ⟨outcome, store, files⟩
    change patience.acquire attempts = .acquired at hAcquired
    rw [StoreRequest.call, Context.commit, hAcquired, Acquisition.enter,
      Context.appendHeld_eq hUnplanned hAppend] at hCall
    obtain ⟨rfl, rfl⟩ := Prod.mk.inj hCall
    exact ⟨.committed hAppend, hUnplanned.counted .append⟩
  | snapshot patience =>
    rcases hRead : before.store.value.read before.files answer with ⟨outcome, store⟩
    change patience.acquire attempts = .acquired at hAcquired
    rw [StoreRequest.call, Context.snapshot, hAcquired, Acquisition.enter,
      Context.readHeld_eq hUnplanned hRead] at hCall
    obtain ⟨rfl, rfl⟩ := Prod.mk.inj hCall
    exact ⟨.snapshotted hRead rfl rfl, hUnplanned.counted .read⟩

theorem of_interrupted {request : StoreRequest} {before after : Context} {attempts : List Attempt}
    {answers : List WriteAnswer} {answer : ReadAnswer} {event : WorkerEvent}
    (hInterrupted : request.patience.acquire attempts = .interrupted)
    (hCall : request.call before attempts answers answer = (event, after)) :
    event = request.givenUp ∧ after = before := by
  cases request with
  | commit entry patience =>
    change patience.acquire attempts = .interrupted at hInterrupted
    rw [StoreRequest.call, Context.commit, hInterrupted, Acquisition.enter] at hCall
    obtain ⟨rfl, rfl⟩ := Prod.mk.inj hCall
    exact ⟨rfl, rfl⟩
  | snapshot patience =>
    change patience.acquire attempts = .interrupted at hInterrupted
    rw [StoreRequest.call, Context.snapshot, hInterrupted, Acquisition.enter] at hCall
    obtain ⟨rfl, rfl⟩ := Prod.mk.inj hCall
    exact ⟨rfl, rfl⟩

/-- A call that has returned after attempts of which all but the last were in vain. -/
theorem returned_of_call {request : StoreRequest} {tried before after : Context}
    {earlier attempts : List Attempt} {answers : List WriteAnswer} {answer : ReadAnswer}
    {event : WorkerEvent} (hUnplanned : before.Unplanned)
    (hEarlier : request.patience.acquire earlier = .waiting)
    (hAttempts : attempts = earlier ++ [tried.store.attempt before.aborted])
    (hOver : request.patience.acquire attempts ≠ .waiting)
    (hCall : request.call before attempts answers answer = (event, after)) :
    Returned
        { request := request
          tried := tried
          acquisition := request.patience.acquire attempts
          before := before
          event := event
          after := after } ∧
      after.Unplanned := by
  cases hAcquire : request.patience.acquire attempts with
  | acquired => exact returned_of_acquired hUnplanned hAcquire hCall
  | interrupted =>
    obtain ⟨rfl, rfl⟩ := of_interrupted hAcquire hCall
    rw [hAttempts, Patience.acquire_append hEarlier] at hAcquire
    obtain ⟨hPatience, hFree, hAborted⟩ := Patience.of_acquire_interrupted hAcquire
    have hHeld : tried.store.held = true := by simpa [Exclusion.attempt] using hFree
    exact ⟨.givenUp hPatience hHeld hAborted, hUnplanned⟩
  | waiting => exact absurd hAcquire hOver

end Call

end PacketLog
