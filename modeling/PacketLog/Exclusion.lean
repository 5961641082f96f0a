import PacketLog.Outcome

/-!
# Mutual exclusion

One lock guards every access to a shared value.  A thread that wants the lock
makes attempts, each of which waits for a bounded time.  A thread of interruptible
patience looks at the abort signal after an attempt in vain and gives up once it
is raised; a free lock is taken whatever the signal says.
-/

namespace PacketLog

/-- What one bounded attempt to take the lock met. -/
structure Attempt where
  /-- The lock came free in time. -/
  free : Bool
  /-- The abort signal was raised when the thread looked at it after the attempt. -/
  aborted : Bool
deriving DecidableEq

inductive Patience
  /-- The thread gives up once the abort signal is raised. -/
  | interruptible
  /-- The thread waits for the lock, abort signal or not. -/
  | blocking
deriving DecidableEq

inductive Acquisition
  | acquired
  | interrupted
  /-- Every attempt so far was in vain. -/
  | waiting
deriving DecidableEq

/-- What the attempts of one thread come to. -/
def Patience.acquire (patience : Patience) : List Attempt → Acquisition
  | [] => .waiting
  | attempt :: later =>
    if attempt.free then .acquired
    else if patience = .interruptible ∧ attempt.aborted then .interrupted
    else patience.acquire later

/-- A critical section: what it answers and what it makes of the guarded value.  It is entered
only with the lock, and the lock is given back however it ends. -/
def Acquisition.enter {σ α : Type} (acquisition : Acquisition) (state : σ)
    (critical : σ → Outcome α × σ) : Outcome α × σ :=
  match acquisition with
  | .acquired => critical state
  | .interrupted => (.error .interrupted, state)
  | .waiting => (.waiting, state)

/-- A value behind a lock. -/
structure Exclusion (σ : Type) where
  value : σ
  /-- Another thread is inside its critical section. -/
  held : Bool := false
deriving DecidableEq

namespace Exclusion

variable {σ : Type}

/-- The one attempt that decides when nothing else happens meanwhile. -/
def attempt (exclusion : Exclusion σ) (aborted : Bool) : Attempt :=
  { free := !exclusion.held, aborted := aborted }

/-- Takes the lock and keeps it. -/
def lock (exclusion : Exclusion σ) (patience : Patience) (attempts : List Attempt) :
    Outcome Unit × Exclusion σ :=
  match patience.acquire attempts with
  | .acquired => (.ok (), { exclusion with held := true })
  | .interrupted => (.error .interrupted, exclusion)
  | .waiting => (.waiting, exclusion)

def unlock (exclusion : Exclusion σ) : Exclusion σ := { exclusion with held := false }

end Exclusion

end PacketLog
