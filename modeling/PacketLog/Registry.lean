import PacketLog.Error

/-!
# The registry of workers

Every worker whose thread has been spawned is registered until it has been
joined, so that a shutdown can wait for all of them.  Numbers are never used
twice: a spawn that fails uses one up.
-/

namespace PacketLog

/-- Why a worker left its loop. -/
inductive WorkerExit
  | peerClosed
  | aborted
  | failed (error : Error)
deriving DecidableEq

/-- What a worker reports when its thread ends. -/
structure WorkerSummary where
  id : Nat
  /-- The number of packets it committed. -/
  packets : Nat
  exit : WorkerExit
deriving DecidableEq

inductive ThreadState
  | running
  | ended (summary : WorkerSummary)
  /-- The thread broke off without a summary. -/
  | broken
deriving DecidableEq

structure WorkerHandle where
  id : Nat
  thread : ThreadState
deriving DecidableEq

namespace WorkerHandle

def isFinished (handle : WorkerHandle) : Bool := handle.thread ≠ .running

def summary? (handle : WorkerHandle) : Option WorkerSummary :=
  match handle.thread with
  | .ended summary => some summary
  | _ => none

end WorkerHandle

structure Registry where
  /-- Below `Word.bound` as long as fewer workers are spawned. -/
  lastId : Nat := 0
  handles : List WorkerHandle := []
deriving DecidableEq

namespace Registry

def length (registry : Registry) : Nat := registry.handles.length

def isEmpty (registry : Registry) : Bool := registry.handles.isEmpty

def noRoom : Error :=
  (Error.ofMessage .outOfMemory "failed to register worker").withCauses
    ["memory allocation failed because the memory allocator returned an error"]

def notSpawned (failure : IoFailure) : Error :=
  (Error.ofMessage .io "failed to spawn worker thread").withFailure failure

/-- Makes room for a handle, spawns a worker under the next number and registers it.  Nothing is
registered when there is no room or the spawn fails. -/
def register (registry : Registry) (spawn : Except IoFailure ThreadState) (room : Bool := true) :
    Except Error Nat × Registry :=
  if room then
    let id := registry.lastId + 1
    match spawn with
    | .ok thread =>
      (.ok id, { lastId := id, handles := registry.handles ++ [{ id := id, thread := thread }] })
    | .error failure => (.error (notSpawned failure), { registry with lastId := id })
  else (.error noRoom, registry)

/-- The thread of worker `id` comes to the state `thread`. -/
def setThread (registry : Registry) (id : Nat) (thread : ThreadState) : Registry :=
  { registry with
    handles := registry.handles.map fun handle =>
      if handle.id = id then { handle with thread := thread } else handle }

/-- Joins the workers whose threads have ended; the answer is how many they were. -/
def reap (registry : Registry) : Nat × Registry :=
  ((registry.handles.filter WorkerHandle.isFinished).length,
    { registry with handles := registry.handles.filter fun handle => !handle.isFinished })

/-- Joins all workers in the order of their registration and collects the summaries, once every
thread has ended. -/
def joinAll? (registry : Registry) : Option (List WorkerSummary × Registry) :=
  if registry.handles.all WorkerHandle.isFinished then
    some (registry.handles.filterMap WorkerHandle.summary?, { registry with handles := [] })
  else none

theorem isSome_joinAll?_iff (registry : Registry) :
    registry.joinAll?.isSome = true ↔ ∀ handle ∈ registry.handles, handle.thread ≠ .running := by
  simp [joinAll?, WorkerHandle.isFinished]

end Registry

end PacketLog
