import PacketLog.Error

/-!
# Planned faults

A plan says at which calls of a store something goes wrong: an error in place of
the call, the abort signal raised before it, or the calling thread broken off.
-/

namespace PacketLog

inductive StoreCall
  | append
  | read
  | close
deriving DecidableEq

inductive FaultAction
  /-- The call is not made and answers an error of this kind. -/
  | fail (kind : ErrorKind)
  /-- The abort signal is raised, and the call goes on. -/
  | abort
  | crash
deriving DecidableEq

structure Fault where
  call : StoreCall
  /-- Which call of its sort is hit, counted from one. -/
  ordinal : Nat
  action : FaultAction
deriving DecidableEq

/-- The plan, and how many calls of each sort there have been. -/
structure Faults where
  plan : List Fault := []
  appends : Nat := 0
  reads : Nat := 0
  closes : Nat := 0
deriving DecidableEq

/-- What becomes of a call. -/
inductive FaultVerdict
  | proceed
  | fail (error : Error)
  | crash
deriving DecidableEq

/-- The verdict on a call, and whether the abort signal was raised on the way to it. -/
structure Faulted where
  verdict : FaultVerdict := .proceed
  aborted : Bool := false
deriving DecidableEq

namespace Faults

/-- Applies actions in order until one of them ends the call. -/
def applied : List FaultAction → Faulted
  | [] => {}
  | .fail kind :: _ => { verdict := .fail (.ofMessage kind "injected") }
  | .crash :: _ => { verdict := .crash }
  | .abort :: rest => { applied rest with aborted := true }

def count (faults : Faults) : StoreCall → Nat
  | .append => faults.appends
  | .read => faults.reads
  | .close => faults.closes

def counted (faults : Faults) : StoreCall → Faults
  | .append => { faults with appends := faults.appends + 1 }
  | .read => { faults with reads := faults.reads + 1 }
  | .close => { faults with closes := faults.closes + 1 }

/-- Counts a call and says what becomes of it. -/
def meet (faults : Faults) (call : StoreCall) : Faulted × Faults :=
  let faults := faults.counted call
  let hits := faults.plan.filter fun fault =>
    fault.call = call && fault.ordinal = faults.count call
  (applied (hits.map Fault.action), faults)

end Faults

end PacketLog
