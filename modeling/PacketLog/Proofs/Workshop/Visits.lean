import PacketLog.Context
import PacketLog.Proofs.Workshop.Producers

/-!
# Visits to one store

Any number of producers share one context.  A call of the store is one critical
section, and the calls come in any order.  A workshop keeps a list of the visits that
were paid to the store, in the order in which they had the lock; a call that gave up
at the lock is no visit.  `Transition` lists what a step of the whole can be, and
`transition_of_step?` says that there are no others.
-/

namespace PacketLog

/-- What a call with the lock came to, and whose it was. -/
inductive Visit
  | committed (producer : Nat) (entry : Entry)
  | shown (producer : Nat) (bytes : Bytes)
  /-- A call that did not succeed. -/
  | failed (producer : Nat)
deriving DecidableEq

namespace Visit

def producer : Visit → Nat
  | committed producer _ => producer
  | shown producer _ => producer
  | failed producer => producer

def ofCommit (producer : Nat) (entry : Entry) : Outcome Unit → Visit
  | .ok () => committed producer entry
  | _ => failed producer

def ofSnapshot (producer : Nat) : Outcome Bytes → Visit
  | .ok bytes => shown producer bytes
  | _ => failed producer

def commit? : Visit → Option (Nat × Entry)
  | committed producer entry => some (producer, entry)
  | _ => none

end Visit

structure Workshop where
  context : Context
  producers : List Producer := []
  /-- The visits to the store, in the order in which they had the lock. -/
  visits : List Visit := []
deriving DecidableEq

inductive WorkshopEvent
  /-- Someone raises the abort signal. -/
  | raised
  /-- A worker is spawned for a connection. -/
  | accepted (id maxPacketBytes chunkSize : Nat)
  /-- A periodic appender is spawned. -/
  | started (interval : Nat)
  /-- A producer goes on without the store. -/
  | moved (producer : Nat) (event : ProducerEvent)
  /-- A producer calls the store as it asked to; the write calls of a file answer `answers`. -/
  | called (producer : Nat) (attempts : List Attempt) (answers : List WriteAnswer)
deriving DecidableEq

namespace Workshop

/-- The visit is put down if the call had the lock. -/
def noted (workshop : Workshop) (acquisition : Acquisition) (visit : Visit) : List Visit :=
  workshop.visits ++ (if acquisition = .acquired then [visit] else [])

def serve? (workshop : Workshop) (i : Nat) (producer : Producer) (attempts : List Attempt)
    (answers : List WriteAnswer) : StoreRequest → Option Workshop
  | .commit entry patience =>
    let (outcome, context) := workshop.context.commit patience attempts entry answers
    (producer.committed? outcome).map fun next =>
      { context := context
        producers := workshop.producers.set i next
        visits := workshop.noted (patience.acquire attempts) (.ofCommit i entry outcome) }
  | .snapshot patience =>
    let (outcome, context) := workshop.context.snapshot patience attempts
    (producer.snapshotted? outcome).map fun next =>
      { context := context
        producers := workshop.producers.set i next
        visits := workshop.noted (patience.acquire attempts) (.ofSnapshot i outcome) }

def step? (workshop : Workshop) : WorkshopEvent → Option Workshop
  | .raised => some { workshop with context := workshop.context.raise }
  | .accepted id maxPacketBytes chunkSize =>
    some { workshop with
      producers := workshop.producers ++ [.ofWorker (.create id maxPacketBytes chunkSize)] }
  | .started interval =>
    some { workshop with producers := workshop.producers ++ [.ofStamper { interval := interval }] }
  | .moved i event => do
    let producer ← workshop.producers[i]?
    if producer.request? = none then
      let next ← producer.step? event
      return { workshop with producers := workshop.producers.set i next }
    else none
  | .called i attempts answers => do
    let producer ← workshop.producers[i]?
    workshop.serve? i producer attempts answers (← producer.request?)

def run? (workshop : Workshop) : List WorkshopEvent → Option Workshop
  | [] => some workshop
  | event :: later => (workshop.step? event).bind fun next => next.run? later

end Workshop

/-! ## What one step can be -/

namespace Producer

theorem committed?_waiting (producer : Producer) : producer.committed? .waiting = none := by
  cases producer with
  | ofWorker worker =>
    rw [committed?, Option.map_eq_none_iff]
    cases hPhase : worker.phase <;> simp [Worker.step?, hPhase, Worker.onCommitted]
  | ofStamper stamper =>
    rw [committed?, Option.map_eq_none_iff]
    cases hPhase : stamper.phase <;> simp [Stamper.step?, hPhase, Stamper.onCommitted]

theorem snapshotted?_waiting (producer : Producer) : producer.snapshotted? .waiting = none := by
  cases producer with
  | ofWorker worker =>
    rw [snapshotted?, Option.map_eq_none_iff]
    cases hPhase : worker.phase <;> simp [Worker.step?, hPhase, Worker.onSnapshotted]
  | ofStamper stamper => rfl

end Producer

namespace Workshop

inductive Transition (workshop : Workshop) : Workshop → Prop
  | raised : Transition workshop { workshop with context := workshop.context.raise }
  | joined {producer : Producer} (hIdle : producer.request? = none)
      (hNew : producer.commits = 0) :
      Transition workshop { workshop with producers := workshop.producers ++ [producer] }
  | moved {i : Nat} {producer next : Producer} {event : ProducerEvent}
      (hProducer : workshop.producers[i]? = some producer) (hIdle : producer.request? = none)
      (hNext : producer.step? event = some next) :
      Transition workshop { workshop with producers := workshop.producers.set i next }
  | committed {i : Nat} {producer next : Producer} {entry : Entry} {patience : Patience}
      {attempts : List Attempt} {answers : List WriteAnswer} {context : Context}
      (hProducer : workshop.producers[i]? = some producer)
      (hRequest : producer.request? = some (.commit entry patience))
      (hCommit : workshop.context.commit patience attempts entry answers = (.ok (), context))
      (hNext : producer.committed? (.ok ()) = some next) :
      Transition workshop
        { context := context
          producers := workshop.producers.set i next
          visits := workshop.visits ++ [.committed i entry] }
  | shown {i : Nat} {producer next : Producer} {bytes : Bytes} {patience : Patience}
      {attempts : List Attempt} {context : Context}
      (hProducer : workshop.producers[i]? = some producer)
      (hRequest : producer.request? = some (.snapshot patience))
      (hSnapshot : workshop.context.snapshot patience attempts = (.ok bytes, context))
      (hNext : producer.snapshotted? (.ok bytes) = some next) :
      Transition workshop
        { context := context
          producers := workshop.producers.set i next
          visits := workshop.visits ++ [.shown i bytes] }
  /-- A commit gives up at the lock. -/
  | commitGivenUp {i : Nat} {producer next : Producer} {entry : Entry} {patience : Patience}
      (hProducer : workshop.producers[i]? = some producer)
      (hRequest : producer.request? = some (.commit entry patience))
      (hNext : producer.committed? (.error .interrupted) = some next) :
      Transition workshop { workshop with producers := workshop.producers.set i next }
  /-- A snapshot gives up at the lock. -/
  | snapshotGivenUp {i : Nat} {producer next : Producer} {patience : Patience}
      (hProducer : workshop.producers[i]? = some producer)
      (hRequest : producer.request? = some (.snapshot patience))
      (hNext : producer.snapshotted? (.error .interrupted) = some next) :
      Transition workshop { workshop with producers := workshop.producers.set i next }
  | failed {i : Nat} {context : Context} {producers : List Producer} :
      Transition workshop
        { context := context, producers := producers, visits := workshop.visits ++ [.failed i] }

variable {workshop next : Workshop}

theorem noted_acquired (workshop : Workshop) (visit : Visit) :
    workshop.noted .acquired visit = workshop.visits ++ [visit] := rfl

theorem noted_interrupted (workshop : Workshop) (visit : Visit) :
    workshop.noted .interrupted visit = workshop.visits := List.append_nil _

theorem transition_of_commit {i : Nat} {producer after : Producer} {entry : Entry}
    {patience : Patience} {attempts : List Attempt} {answers : List WriteAnswer}
    {outcome : Outcome Unit} {context : Context}
    (hProducer : workshop.producers[i]? = some producer)
    (hRequest : producer.request? = some (.commit entry patience))
    (hCommit : workshop.context.commit patience attempts entry answers = (outcome, context))
    (hNext : producer.committed? outcome = some after) :
    Transition workshop
      { context := context
        producers := workshop.producers.set i after
        visits := workshop.noted (patience.acquire attempts) (.ofCommit i entry outcome) } := by
  cases hAcquire : patience.acquire attempts with
  | acquired =>
    rw [noted_acquired]
    cases outcome with
    | ok value => exact .committed hProducer hRequest hCommit hNext
    | error error => exact .failed
    | crash => exact .failed
    | waiting => rw [producer.committed?_waiting] at hNext; cases hNext
  | interrupted =>
    rw [Context.commit, hAcquire] at hCommit
    obtain ⟨rfl, rfl⟩ := hCommit
    rw [noted_interrupted]
    exact .commitGivenUp hProducer hRequest hNext
  | waiting =>
    rw [Context.commit, hAcquire] at hCommit
    obtain ⟨rfl, rfl⟩ := hCommit
    rw [producer.committed?_waiting] at hNext
    cases hNext

theorem transition_of_snapshot {i : Nat} {producer after : Producer} {patience : Patience}
    {attempts : List Attempt} {outcome : Outcome Bytes} {context : Context}
    (hProducer : workshop.producers[i]? = some producer)
    (hRequest : producer.request? = some (.snapshot patience))
    (hSnapshot : workshop.context.snapshot patience attempts = (outcome, context))
    (hNext : producer.snapshotted? outcome = some after) :
    Transition workshop
      { context := context
        producers := workshop.producers.set i after
        visits := workshop.noted (patience.acquire attempts) (.ofSnapshot i outcome) } := by
  cases hAcquire : patience.acquire attempts with
  | acquired =>
    rw [noted_acquired]
    cases outcome with
    | ok bytes => exact .shown hProducer hRequest hSnapshot hNext
    | error error => exact .failed
    | crash => exact .failed
    | waiting => rw [producer.snapshotted?_waiting] at hNext; cases hNext
  | interrupted =>
    rw [Context.snapshot, hAcquire] at hSnapshot
    obtain ⟨rfl, rfl⟩ := hSnapshot
    rw [noted_interrupted]
    exact .snapshotGivenUp hProducer hRequest hNext
  | waiting =>
    rw [Context.snapshot, hAcquire] at hSnapshot
    obtain ⟨rfl, rfl⟩ := hSnapshot
    rw [producer.snapshotted?_waiting] at hNext
    cases hNext

theorem transition_of_step? {event : WorkshopEvent} (hStep : workshop.step? event = some next) :
    Transition workshop next := by
  cases event with
  | raised =>
    obtain rfl := Option.some.inj hStep
    exact .raised
  | accepted id maxPacketBytes chunkSize =>
    obtain rfl := Option.some.inj hStep
    exact .joined rfl rfl
  | started interval =>
    obtain rfl := Option.some.inj hStep
    exact .joined rfl rfl
  | moved i event =>
    obtain ⟨producer, hProducer, hMoved⟩ := Option.bind_eq_some_iff.mp hStep
    split at hMoved
    · rename_i hIdle
      obtain ⟨after, hNext, hAfter⟩ := Option.bind_eq_some_iff.mp hMoved
      obtain rfl := Option.some.inj hAfter
      exact .moved hProducer hIdle hNext
    · cases hMoved
  | called i attempts answers =>
    obtain ⟨producer, hProducer, hCalled⟩ := Option.bind_eq_some_iff.mp hStep
    obtain ⟨request, hRequest, hServe⟩ := Option.bind_eq_some_iff.mp hCalled
    cases request with
    | commit entry patience =>
      obtain ⟨after, hNext, rfl⟩ := Option.map_eq_some_iff.mp hServe
      exact transition_of_commit hProducer hRequest rfl hNext
    | snapshot patience =>
      obtain ⟨after, hNext, rfl⟩ := Option.map_eq_some_iff.mp hServe
      exact transition_of_snapshot hProducer hRequest rfl hNext

end Workshop

end PacketLog
