import PacketLog.Context
import PacketLog.Worker

/-!
# One connection, alone

A session is a worker and its peer when nobody else acts: what the peer has sent
waits to be read, the peer takes whatever it is sent, and the store's lock does
not change hands.
-/

namespace PacketLog

/-- The other end of a connection. -/
structure Peer where
  /-- What the peer has sent and nobody has read yet. -/
  inbound : Bytes := []
  /-- The peer will send nothing more. -/
  ended : Bool := false
  /-- What the peer has been sent. -/
  echoed : Bytes := []
deriving DecidableEq

structure Session where
  worker : Worker
  peer : Peer
deriving DecidableEq

namespace Session

/-- A read when nothing has come: the end of the stream, or a timeout. -/
def emptyRead (peer : Peer) : ReceiveAnswer :=
  if peer.ended then .received [] else .failed SystemFailure.wouldBlock.toIoFailure

/-- What the worker meets next, and what it leaves behind. -/
def next? (session : Session) (context : Context) : Option (WorkerEvent × Peer × Context) :=
  let peer := session.peer
  match session.worker.phase with
  | .polling => some (.polled, peer, context)
  | .watching | .stalled _ => some (.looked context.aborted, peer, context)
  | .receiving =>
    if peer.inbound = [] then some (.received (emptyRead peer), peer, context)
    else
      let chunk := peer.inbound.take session.worker.chunkSize
      some (.received (.received chunk), { peer with inbound := peer.inbound.drop chunk.length },
        context)
  | .committing packet patience =>
    let (outcome, context) := context.commit patience [context.attempt] packet
    some (.committed outcome, peer, context)
  | .reading patience =>
    let (outcome, context) := context.snapshot patience [context.attempt]
    some (.snapshotted outcome, peer, context)
  | .sending rest =>
    some (.sent (.sent rest.length), { peer with echoed := peer.echoed ++ rest }, context)
  | .finished _ | .broken => none

/-- Lets the worker go on for at most `fuel` events, until it ends or has to wait for something
that nobody does. -/
def run (fuel : Nat) (session : Session) (context : Context) : Session × Context :=
  match fuel with
  | 0 => (session, context)
  | fuel + 1 =>
    match session.next? context with
    | none => (session, context)
    | some (event, peer, context) =>
      match session.worker.step? event with
      | none => (session, context)
      | some worker => run fuel { worker := worker, peer := peer } context

/-- The events that are enough for a worker to go through `length` bytes: each byte is read by at
most two of them, and each packet takes at most seven. -/
def fuelFor (length : Nat) : Nat := 9 * length + 16

/-- Lets the worker go on as long as it can. -/
def settle (session : Session) (context : Context) : Session × Context :=
  session.run (fuelFor (session.peer.inbound.length + session.worker.assembler.pending.length))
    context

/-- A worker is registered for a peer that has sent all it is going to send for now, and joined.
There is no answer if the worker would wait for more. -/
def serve? (context : Context) (peer : Peer) (maxPacketBytes chunkSize : Nat) :
    Option (Session × List WorkerSummary × Context) :=
  let (_, workers) := context.workers.register (.ok .running)
  let worker := Worker.create workers.lastId maxPacketBytes chunkSize
  let session : Session := { worker := worker, peer := peer }
  let (session, context) := session.settle { context with workers := workers }
  let workers := context.workers.setThread worker.id session.worker.thread
  workers.joinAll?.map fun (summaries, workers) =>
    (session, summaries, { context with workers := workers })

end Session

end PacketLog
