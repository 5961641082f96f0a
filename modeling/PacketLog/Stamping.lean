import PacketLog.Context
import PacketLog.Stamper

/-!
# The periodic appender, alone

What the appender does when nobody else acts: its work takes no time, and the
lock does not change hands.
-/

namespace PacketLog

structure Stamping where
  stamper : Stamper
  /-- The instant of the clock. -/
  now : Nat
  /-- The moment that a new record shows. -/
  moment : Moment
deriving DecidableEq

namespace Stamping

/-- What the appender meets next.  A sleep that nobody ends early lasts until its deadline, if
time is to pass at all. -/
def next? (stamping : Stamping) (timePasses : Bool) (context : Context) :
    Option (StamperEvent × Nat × Context) :=
  let now := stamping.now
  match stamping.stamper.phase with
  | .checking => some (.looked context.aborted, now, context)
  | .starting => some (.begun now stamping.moment, now, context)
  | .committing _ record =>
    let (outcome, context) := context.commit .interruptible [context.attempt] record
    some (.committed outcome, now, context)
  | .sleeping deadline =>
    if context.aborted then some (.woken now true, now, context)
    else if timePasses then some (.woken (max now deadline) false, max now deadline, context)
    else none
  | .stopped | .broken => none

/-- Lets the appender go on for at most `fuel` events. -/
def run (fuel : Nat) (timePasses : Bool) (stamping : Stamping) (context : Context) :
    Stamping × Context :=
  match fuel with
  | 0 => (stamping, context)
  | fuel + 1 =>
    match stamping.next? timePasses context with
    | none => (stamping, context)
    | some (event, now, context) =>
      match stamping.stamper.step? event with
      | none => (stamping, context)
      | some stamper => run fuel timePasses { stamping with stamper := stamper, now := now } context

/-- The events of one record. -/
def eventsPerRecord : Nat := 4

/-- Lets the appender go on until it sleeps. -/
def begin (stamping : Stamping) (context : Context) : Stamping × Context :=
  stamping.run eventsPerRecord false context

/-- Lets the appender go on until a planned fault ends it. -/
def runOut (stamping : Stamping) (context : Context) : Stamping × Context :=
  let planned := context.faults.plan.foldl (fun most fault => max most fault.ordinal) 0
  stamping.run (eventsPerRecord * (planned + 2)) true context

/-- What the thread has come to. -/
def outcome (stamping : Stamping) : Outcome Nat :=
  match stamping.stamper.phase with
  | .stopped => .ok stamping.stamper.appended
  | .broken => .crash
  | _ => .waiting

end Stamping

end PacketLog
