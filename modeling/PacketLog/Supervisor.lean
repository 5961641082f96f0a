import PacketLog.Context
import PacketLog.Stamper
import PacketLog.Worker

/-!
# The supervisor of a service

The supervisor spawns the periodic appender, accepts connections until the abort
signal is raised, and then shuts down: it raises the signal, joins the workers,
joins the appender, and closes the store.  The store can be closed only by the
last one who holds the context.  A hold is taken for every thread before it is
spawned; a thread that was not spawned gives it up at once, any other when it ends,
which is before it can be joined.  `step?` lists what can happen; the threads' own
calls of the store are among it.
-/

namespace PacketLog

/-- What a service reports once it has shut down. -/
structure ShutdownReport where
  /-- The workers still registered when accepting stopped. -/
  workers : List WorkerSummary
  /-- The number of timestamp records. -/
  stamps : Nat
deriving DecidableEq

/-- The thread of the periodic appender. -/
inductive StamperThread
  | absent
  | running
  | returned (stamps : Nat)
  | broken
deriving DecidableEq

inductive SupervisorPhase
  | starting
  | accepting
  /-- Waits for the workers in the order of their registration. -/
  | joiningWorkers
  /-- Waits for the appender. -/
  | joiningStamper (workers : List WorkerSummary)
  /-- About to close the store. -/
  | closing (report : ShutdownReport)
  | returned (result : Outcome ShutdownReport)
deriving DecidableEq

/-- A thread other than the supervisor's. -/
inductive ServiceThread
  | worker (id : Nat)
  | stamper
deriving DecidableEq

inductive SupervisorEvent
  /-- The appender is spawned, or the attempt fails. -/
  | started (spawned : Except IoFailure Unit)
  /-- A connection is accepted and made ready, and a worker is spawned for it. -/
  | accepted (configured spawned : Except IoFailure Unit) (room : Bool)
  /-- The ended workers are joined. -/
  | reaped
  /-- Someone raises the abort signal. -/
  | raised
  /-- A thread commits; the write calls of a file answer `answers`. -/
  | committed (thread : ServiceThread) (patience : Patience) (attempts : List Attempt)
      (entry : Entry) (answers : List WriteAnswer)
  | snapshotted (thread : ServiceThread) (patience : Patience) (attempts : List Attempt)
  | workerEnded (id : Nat) (thread : ThreadState)
  | stamperEnded (thread : StamperThread)
  /-- The accept loop sees the abort signal. -/
  | stopped
  | workersJoined
  | stamperJoined
  | closed

structure Supervisor where
  context : Context
  /-- Whether there is to be an appender. -/
  stamped : Bool
  stamper : StamperThread := .absent
  /-- How many hold the context: the supervisor and every thread that has not ended. -/
  holders : Nat := 1
  phase : SupervisorPhase := .starting
deriving DecidableEq

namespace Supervisor

def bindFailure (address : String) (failure : IoFailure) : Error :=
  ((Error.ofMessage .io ("failed to bind " ++ address)).withHint
    "Check that the port is free or pass a different --bind address.").withFailure failure

def stamperNotSpawned (failure : IoFailure) : Error :=
  (Error.ofMessage .io "failed to spawn timestamp thread").withFailure failure

def stamperBroken : Error := .ofMessage .internal "timestamp thread panicked"

def stillShared : Error :=
  .ofMessage .internal "service context still shared after all threads joined"

/-- One more holds the context. -/
def hold (supervisor : Supervisor) : Supervisor :=
  { supervisor with holders := supervisor.holders + 1 }

/-- One hold on the context is given up. -/
def letGo (supervisor : Supervisor) : Supervisor :=
  { supervisor with holders := supervisor.holders - 1 }

def finishWith (supervisor : Supervisor) (result : Outcome ShutdownReport) : Supervisor :=
  { supervisor with phase := .returned result }

/-- Gives up the supervisor's hold on the context without closing the store, which is dropped
with its last holder. -/
def abandon (supervisor : Supervisor) (result : Outcome ShutdownReport) : Supervisor :=
  let context := supervisor.context
  { supervisor.letGo with
    context :=
      if supervisor.holders = 1 then
        { context with files := context.store.value.drop context.files }
      else context
    phase := .returned result }

/-- Closes the store, which only the last holder of the context can do. -/
def closeStore (supervisor : Supervisor) : Outcome Unit × Supervisor :=
  if supervisor.holders = 1 then
    let (outcome, context) := supervisor.context.close
    (outcome, { supervisor.letGo with context := context })
  else (.error stillShared, supervisor.letGo)

/-- Without an appender the service just goes on to accept. -/
def onStarted (supervisor : Supervisor) (spawned : Except IoFailure Unit) : Supervisor :=
  if supervisor.stamped then
    let supervisor := supervisor.hold
    match spawned with
    | .ok () => { supervisor with stamper := .running, phase := .accepting }
    | .error failure =>
      let supervisor := { supervisor.letGo with context := supervisor.context.raise }
      match supervisor.closeStore with
      | (.crash, supervisor) => supervisor.finishWith .crash
      | (_, supervisor) => supervisor.finishWith (.error (stamperNotSpawned failure))
  else { supervisor with phase := .accepting }

/-- A connection that could not be made ready is dropped; so is one without a worker, together
with the hold on the context that was meant for it. -/
def onAccepted (supervisor : Supervisor) (configured spawned : Except IoFailure Unit)
    (room : Bool) : Supervisor :=
  match configured with
  | .error _ => supervisor
  | .ok () =>
    let context := supervisor.context
    let (answer, workers) :=
      context.workers.register (spawned.map fun _ => ThreadState.running) room
    let supervisor := { supervisor.hold with context := { context with workers := workers } }
    match answer with
    | .ok _ => supervisor
    | .error _ => supervisor.letGo

def isRunning (supervisor : Supervisor) : ServiceThread → Bool
  | .worker id =>
    supervisor.context.workers.handles.any fun handle =>
      handle.id = id && handle.thread = .running
  | .stamper => supervisor.stamper = .running

def onClosed (supervisor : Supervisor) (report : ShutdownReport) : Supervisor :=
  match supervisor.closeStore with
  | (.ok (), supervisor) => supervisor.finishWith (.ok report)
  | (.error error, supervisor) => supervisor.finishWith (.error error)
  | (.crash, supervisor) => supervisor.finishWith .crash
  | (.waiting, supervisor) => supervisor

def step? (supervisor : Supervisor) (event : SupervisorEvent) : Option Supervisor :=
  let context := supervisor.context
  match supervisor.phase, event with
  | .starting, .started spawned => some (supervisor.onStarted spawned)
  | .accepting, .accepted configured spawned room =>
    some (supervisor.onAccepted configured spawned room)
  | .accepting, .reaped =>
    some { supervisor with context := { context with workers := context.workers.reap.2 } }
  | _, .raised => some { supervisor with context := context.raise }
  | _, .committed thread patience attempts entry answers =>
    if supervisor.isRunning thread then
      some { supervisor with context := (context.commit patience attempts entry answers).2 }
    else none
  | _, .snapshotted thread patience attempts =>
    if supervisor.isRunning thread then
      some { supervisor with context := (context.snapshot patience attempts).2 }
    else none
  | _, .workerEnded id thread =>
    if supervisor.isRunning (.worker id) ∧ thread ≠ .running then
      some
        { supervisor.letGo with
          context := { context with workers := context.workers.setThread id thread } }
    else none
  | _, .stamperEnded thread =>
    if supervisor.isRunning .stamper ∧ thread ≠ .running ∧ thread ≠ .absent then
      some { supervisor.letGo with stamper := thread }
    else none
  | .accepting, .stopped =>
    if context.aborted then some { supervisor with phase := .joiningWorkers } else none
  | .joiningWorkers, .workersJoined =>
    match context.workers.joinAll? with
    | some (summaries, workers) =>
      some
        { supervisor with
          context := { context with workers := workers }
          phase := .joiningStamper summaries }
    | none => none
  | .joiningStamper workers, .stamperJoined =>
    match supervisor.stamper with
    | .absent => some { supervisor with phase := .closing { workers := workers, stamps := 0 } }
    | .returned stamps =>
      some { supervisor with phase := .closing { workers := workers, stamps := stamps } }
    | .broken => some (supervisor.abandon (.error stamperBroken))
    | .running => none
  | .closing report, .closed => some (supervisor.onClosed report)
  | _, _ => none

end Supervisor

end PacketLog
