import PacketLog.Clock
import PacketLog.Outcome
import PacketLog.Timestamp

/-!
# The periodic appender

The appender commits a timestamp record, sleeps until one interval after the
instant at which that record was begun, and so on until the abort signal is
raised or a record cannot be committed.  As for a worker, what it meets outside
is an event, and `step?` has no answer for an event that cannot happen.
-/

namespace PacketLog

inductive StamperPhase
  /-- About to look at the abort signal. -/
  | checking
  /-- About to begin a record. -/
  | starting
  | committing (started : Nat) (record : Entry)
  | sleeping (deadline : Nat)
  | stopped
  /-- The thread broke off: inside the store, or because the deadline is no instant. -/
  | broken
deriving DecidableEq

inductive StamperEvent
  | looked (aborted : Bool)
  /-- A record is begun at this instant, which shows as this moment. -/
  | begun (now : Nat) (moment : Moment)
  | committed (outcome : Outcome Unit)
  /-- The sleep is over at this instant, early only if the abort signal is raised. -/
  | woken (now : Nat) (aborted : Bool)
deriving DecidableEq

structure Stamper where
  /-- In nanoseconds. -/
  interval : Nat
  /-- The number of records committed, below `Word.bound` as long as fewer steps are taken. -/
  appended : Nat := 0
  phase : StamperPhase := .checking
deriving DecidableEq

namespace Stamper

def defaultSeconds : Nat := 10

def goTo (stamper : Stamper) (phase : StamperPhase) : Stamper := { stamper with phase := phase }

def onBegun (stamper : Stamper) (now : Nat) (moment : Moment) : Stamper :=
  match Timestamp.record moment with
  | .ok record => stamper.goTo (.committing now (Timestamp.entry record))
  | .error _ => stamper.goTo .stopped

/-- Sleeps until one interval after `started`. -/
def sleep (stamper : Stamper) (started : Nat) : Stamper :=
  match Clock.later? started stamper.interval with
  | some deadline => stamper.goTo (.sleeping deadline)
  | none => stamper.goTo .broken

def onCommitted (stamper : Stamper) (started : Nat) : Outcome Unit → Option Stamper
  | .ok () => some ({ stamper with appended := stamper.appended + 1 }.sleep started)
  | .error _ => some (stamper.goTo .stopped)
  | .crash => some (stamper.goTo .broken)
  | .waiting => none

def step? (stamper : Stamper) (event : StamperEvent) : Option Stamper :=
  match stamper.phase, event with
  | .checking, .looked aborted => some (stamper.goTo (if aborted then .stopped else .starting))
  | .starting, .begun now moment => some (stamper.onBegun now moment)
  | .committing started _, .committed outcome => stamper.onCommitted started outcome
  | .sleeping deadline, .woken now aborted =>
    if aborted then some (stamper.goTo .stopped)
    else if deadline ≤ now then some (stamper.goTo .checking)
    else none
  | _, _ => none

/-- The number of records, once the thread has returned. -/
def result? (stamper : Stamper) : Option Nat :=
  if stamper.phase = .stopped then some stamper.appended else none

end Stamper

end PacketLog
