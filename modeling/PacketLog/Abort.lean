import PacketLog.Clock

/-!
# The abort signal

A flag that is raised once and stays raised, a mutex, and threads that sleep
until the flag is raised or their deadline has passed.  Raising sets the flag
without the mutex, then takes the mutex and wakes every sleeper.  A waiting thread
tests the flag only with the mutex, which it gives back in the very step in which
it falls asleep.  `Abort.step?` lists the steps that threads can interleave.
-/

namespace PacketLog

/-- Where a thread stands in its call. -/
inductive AbortPhase
  /-- About to set the flag. -/
  | raising
  /-- The flag is set; wants the mutex. -/
  | knocking
  /-- Has the mutex; about to wake the sleepers. -/
  | waking
  /-- Has woken the sleepers; about to give the mutex back. -/
  | leaving
  /-- The flag has been raised and the call is over. -/
  | raised
  /-- Wants the mutex for the first test of the flag. -/
  | arriving (deadline : Nat)
  /-- Has the mutex; about to test the flag. -/
  | testing (deadline : Nat)
  /-- Asleep without the mutex. -/
  | parked (deadline : Nat)
  /-- Awake; wants the mutex back. -/
  | woken (deadline : Nat) (late : Bool)
  /-- Has the mutex; about to test the flag for the last time. -/
  | concluding
  /-- The wait is over with this answer. -/
  | answered (answer : Bool)
deriving DecidableEq

/-- The signal and the calls on it. -/
structure Abort where
  flag : Bool := false
  /-- The thread that has the mutex. -/
  holder : Option Nat := none
  threads : List AbortPhase := []
  now : Nat := 0
deriving DecidableEq

inductive AbortEvent
  /-- A new thread begins to raise the flag. -/
  | raise
  /-- A new thread begins to wait. -/
  | wait (deadline : Nat)
  /-- A thread takes its next step. -/
  | act (thread : Nat)
  /-- A sleeper's deadline has passed. -/
  | timeout (thread : Nat)
  /-- A sleeper wakes for no reason. -/
  | stir (thread : Nat)
  | pass (duration : Nat)
deriving DecidableEq

namespace AbortPhase

/-- What being woken by another thread makes of a sleeper. -/
def wake : AbortPhase → AbortPhase
  | parked deadline => .woken deadline false
  | phase => phase

end AbortPhase

namespace Abort

def setPhase (abort : Abort) (thread : Nat) (phase : AbortPhase) : Abort :=
  { abort with threads := abort.threads.set thread phase }

/-- Takes the free mutex and goes on to `phase`. -/
def takeMutex? (abort : Abort) (thread : Nat) (phase : AbortPhase) : Option Abort :=
  if abort.holder = none then some { abort.setPhase thread phase with holder := some thread }
  else none

/-- Gives the mutex back and goes on to `phase`. -/
def giveMutex (abort : Abort) (thread : Nat) (phase : AbortPhase) : Abort :=
  { abort.setPhase thread phase with holder := none }

/-- The next step of a thread of its own accord; a sleeper and a finished thread have none. -/
def act? (abort : Abort) (thread : Nat) : Option Abort :=
  match abort.threads[thread]? with
  | some .raising => some { abort.setPhase thread .knocking with flag := true }
  | some .knocking => abort.takeMutex? thread .waking
  | some .waking =>
    some ({ abort with threads := abort.threads.map AbortPhase.wake }.setPhase thread .leaving)
  | some .leaving => some (abort.giveMutex thread .raised)
  | some (.arriving deadline) => abort.takeMutex? thread (.testing deadline)
  | some (.testing deadline) =>
    if abort.flag then some (abort.setPhase thread .concluding)
    else some (abort.giveMutex thread (.parked deadline))
  | some (.woken deadline late) =>
    abort.takeMutex? thread (if late then .concluding else .testing deadline)
  | some .concluding => some (abort.giveMutex thread (.answered abort.flag))
  | some .raised | some (.parked _) | some (.answered _) | none => none

def step? (abort : Abort) : AbortEvent → Option Abort
  | .raise => some { abort with threads := abort.threads ++ [.raising] }
  | .wait deadline => some { abort with threads := abort.threads ++ [.arriving deadline] }
  | .act thread => abort.act? thread
  | .timeout thread =>
    match abort.threads[thread]? with
    | some (.parked deadline) =>
      if deadline ≤ abort.now then some (abort.setPhase thread (.woken deadline true)) else none
    | _ => none
  | .stir thread =>
    match abort.threads[thread]? with
    | some (.parked deadline) => some (abort.setPhase thread (.woken deadline false))
    | _ => none
  | .pass duration => some { abort with now := abort.now + duration }

/-- The state after a sequence of events; an event that cannot happen leaves it as it is. -/
def run (abort : Abort) (events : List AbortEvent) : Abort :=
  events.foldl (fun abort event => (abort.step? event).getD abort) abort

/-- The steps that take one thread through its call, or to sleep, when nobody else moves. -/
def acts (thread : Nat) : List AbortEvent := List.replicate 4 (.act thread)

/-- Raises the flag while nobody else moves. -/
def raiseAlone (abort : Abort) : Abort :=
  abort.run (.raise :: acts abort.threads.length)

/-- Waits until `deadline`, while nobody else moves. -/
def waitAlone (abort : Abort) (deadline : Nat) : Abort :=
  let thread := abort.threads.length
  abort.run
    (.wait deadline :: acts thread
      ++ .pass (deadline - abort.now) :: .timeout thread :: acts thread)

/-- A thread waits until `deadline`; once it sleeps, another raises the flag. -/
def waitWoken (abort : Abort) (deadline : Nat) : Abort :=
  let thread := abort.threads.length
  abort.run
    (.wait deadline :: acts thread ++ .raise :: acts (thread + 1) ++ acts thread)

/-- The answer of the wait that `thread` made. -/
def answer? (abort : Abort) (thread : Nat) : Option Bool :=
  match abort.threads[thread]? with
  | some (.answered answer) => some answer
  | _ => none

end Abort

end PacketLog
