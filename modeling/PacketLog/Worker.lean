import PacketLog.Assembler
import PacketLog.Outcome
import PacketLog.Exclusion
import PacketLog.Registry

/-!
# The worker of one connection

A worker assembles packets from what its peer sends, commits each one, and sends
the whole store back after each commit.  Everything it meets outside, a read, a
look at the abort signal, a commit, a snapshot, a write, is an event; `step?`
says what the worker makes of it, and has no answer for an event that cannot
happen in its present phase.

A packet already buffered is taken before the abort signal is looked at.  A
commit or snapshot that was interrupted is tried once more and then waits for the
lock, abort signal or not.
-/

namespace PacketLog

/-- What one read from the peer answers. -/
inductive ReceiveAnswer
  /-- Some bytes; none at the end of the stream. -/
  | received (chunk : Bytes)
  | failed (failure : IoFailure)
deriving DecidableEq

/-- What one write to the peer answers. -/
inductive SendAnswer
  /-- So many of the bytes offered were taken. -/
  | sent (count : Nat)
  | failed (failure : IoFailure)
deriving DecidableEq

inductive WorkerPhase
  /-- About to look for a packet already buffered. -/
  | polling
  /-- About to look at the abort signal before a read. -/
  | watching
  | receiving
  | committing (packet : Entry) (patience : Patience)
  | reading (patience : Patience)
  /-- About to send what is left of a snapshot. -/
  | sending (rest : Bytes)
  /-- The peer would not take a byte; about to look at the abort signal. -/
  | stalled (rest : Bytes)
  | finished (exit : WorkerExit)
  /-- The thread broke off inside the store. -/
  | broken
deriving DecidableEq

inductive WorkerEvent
  | polled
  | looked (aborted : Bool)
  /-- A read answers; `room` says whether the assembler could make room for what came. -/
  | received (answer : ReceiveAnswer) (room : Bool := true)
  | committed (outcome : Outcome Unit)
  | snapshotted (outcome : Outcome Bytes)
  | sent (answer : SendAnswer)
deriving DecidableEq

structure Worker where
  id : Nat
  assembler : Assembler
  /-- The most bytes that one read asks for. -/
  chunkSize : Nat
  /-- The number of packets committed, below `Word.bound` as long as fewer steps are taken. -/
  packets : Nat := 0
  phase : WorkerPhase := .polling
deriving DecidableEq

/-- The exit that an error of the store or of a send leads to. -/
def WorkerExit.ofError (error : Error) : WorkerExit :=
  if error.kind = .interrupted then .aborted else .failed error

namespace Worker

/-- The length of a packet that is refused, when none is set. -/
def defaultMaxPacketBytes : Nat := 16 * 1024 * 1024

def defaultChunkSize : Nat := 1024

def create (id maxPacketBytes chunkSize : Nat) : Worker :=
  { id := id, assembler := .withLimit maxPacketBytes, chunkSize := max chunkSize 1 }

def goTo (worker : Worker) (phase : WorkerPhase) : Worker := { worker with phase := phase }

def finish (worker : Worker) (exit : WorkerExit) : Worker := worker.goTo (.finished exit)

/-- Acts on what the assembler found: a packet is committed, without one `otherwise` follows. -/
def onPacket (worker : Worker) (found : Except Error (Option Entry) × Assembler)
    (otherwise : WorkerPhase) : Worker :=
  let worker := { worker with assembler := found.2 }
  match found.1 with
  | .ok (some packet) => worker.goTo (.committing packet .interruptible)
  | .ok none => worker.goTo otherwise
  | .error error => worker.finish (.failed error)

def notReceived (failure : IoFailure) : Error :=
  (Error.ofMessage .io "failed to receive from peer").withFailure failure

def onReceived (worker : Worker) (room : Bool) : ReceiveAnswer → Option Worker
  | .received chunk =>
    if worker.chunkSize < chunk.length then none
    else if chunk = [] then some (worker.finish .peerClosed)
    else some (worker.onPacket (worker.assembler.feed chunk room) .watching)
  | .failed failure =>
    if failure.retryable then some (worker.goTo .watching)
    else
      some (worker.finish (.failed (notReceived failure)))

/-- Whether a call that gave up at the lock is to be made again, now to wait for it. -/
def again (error : Error) (patience : Patience) : Bool :=
  error.kind = .interrupted && patience = .interruptible

def onCommitted (worker : Worker) (packet : Entry) (patience : Patience) :
    Outcome Unit → Option Worker
  | .ok () =>
    some ({ worker with packets := worker.packets + 1 }.goTo (.reading .interruptible))
  | .error error =>
    if again error patience then some (worker.goTo (.committing packet .blocking))
    else some (worker.finish (.ofError error))
  | .crash => some (worker.goTo .broken)
  | .waiting => none

def onSnapshotted (worker : Worker) (patience : Patience) : Outcome Bytes → Option Worker
  | .ok contents =>
    some (worker.goTo (if contents = [] then .polling else .sending contents))
  | .error error =>
    if again error patience then some (worker.goTo (.reading .blocking))
    else some (worker.finish (.ofError error))
  | .crash => some (worker.goTo .broken)
  | .waiting => none

def onSent (worker : Worker) (rest : Bytes) : SendAnswer → Option Worker
  | .sent count =>
    if count = 0 then
      some (worker.finish (.failed (.ofMessage .io "peer accepted zero bytes")))
    else if rest.length < count then none
    else some (worker.goTo (if count = rest.length then .polling else .sending (rest.drop count)))
  | .failed failure =>
    if failure.retryable then some (worker.goTo (.stalled rest))
    else
      some (worker.finish (.ofError
        ((Error.ofMessage .io "failed to send to peer").withFailure failure)))

def step? (worker : Worker) (event : WorkerEvent) : Option Worker :=
  match worker.phase, event with
  | .polling, .polled => some (worker.onPacket worker.assembler.poll .watching)
  | .watching, .looked aborted =>
    some (if aborted then worker.finish .aborted else worker.goTo .receiving)
  | .receiving, .received answer room => worker.onReceived room answer
  | .committing packet patience, .committed outcome => worker.onCommitted packet patience outcome
  | .reading patience, .snapshotted outcome => worker.onSnapshotted patience outcome
  | .sending rest, .sent answer => worker.onSent rest answer
  | .stalled rest, .looked aborted =>
    some (if aborted then worker.finish (.ofError .interrupted) else worker.goTo (.sending rest))
  | _, _ => none

/-- What the worker's thread has come to. -/
def thread (worker : Worker) : ThreadState :=
  match worker.phase with
  | .finished exit => .ended { id := worker.id, packets := worker.packets, exit := exit }
  | .broken => .broken
  | _ => .running

end Worker

end PacketLog
