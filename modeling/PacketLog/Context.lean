import PacketLog.Exclusion
import PacketLog.Registry
import PacketLog.Store
import PacketLog.Store.Faults

/-!
# The shared context

What the parts of one service share: the store behind its lock, the abort
signal, and the registry of workers.  A commit and a snapshot are each one
critical section, entered with the lock.
-/

namespace PacketLog

structure Context where
  store : Exclusion Store
  files : FileSystem := {}
  /-- Whether the abort signal is raised. -/
  aborted : Bool := false
  workers : Registry := {}
  /-- The longest single wait, in milliseconds. -/
  pollMillis : Nat := 250
  /-- What is planned to go wrong. -/
  faults : Faults := {}
deriving DecidableEq

namespace Context

def raise (context : Context) : Context := { context with aborted := true }

/-- The attempt on the lock that decides when nothing else happens meanwhile. -/
def attempt (context : Context) : Attempt := context.store.attempt context.aborted

/-- Counts a call of the store and says what becomes of it. -/
def meet (context : Context) (call : StoreCall) : FaultVerdict × Context :=
  let (faulted, faults) := context.faults.meet call
  (faulted.verdict,
    { context with faults := faults, aborted := context.aborted || faulted.aborted })

/-- What the write calls of a commit answer when nothing interferes. -/
def writeAnswers (context : Context) (entry : Entry) : List WriteAnswer :=
  context.store.value.writeAnswers context.files entry

/-- Appends with the lock held; an evicted entry is released. -/
def appendHeld (context : Context) (entry : Entry) (answers : List WriteAnswer) :
    Outcome Unit × Context :=
  match context.meet .append with
  | (.proceed, context) =>
    let (outcome, store, files) := context.store.value.append context.files entry answers
    (outcome.map fun _ => (),
      { context with store := { context.store with value := store }, files := files })
  | (.fail error, context) => (.error error, context)
  | (.crash, context) => (.crash, context)

/-- Reads the whole store with the lock held. -/
def readHeld (context : Context) (answer : ReadAnswer := .whole) : Outcome Bytes × Context :=
  match context.meet .read with
  | (.proceed, context) =>
    let (outcome, store) := context.store.value.read context.files answer
    (.ofExcept outcome, { context with store := { context.store with value := store } })
  | (.fail error, context) => (.error error, context)
  | (.crash, context) => (.crash, context)

/-- Commits `entry` once the lock is taken. -/
def commit (context : Context) (patience : Patience) (attempts : List Attempt) (entry : Entry)
    (answers : List WriteAnswer := context.writeAnswers entry) : Outcome Unit × Context :=
  (patience.acquire attempts).enter context fun context => context.appendHeld entry answers

/-- Everything committed so far, read once the lock is taken. -/
def snapshot (context : Context) (patience : Patience) (attempts : List Attempt)
    (answer : ReadAnswer := .whole) : Outcome Bytes × Context :=
  (patience.acquire attempts).enter context fun context => context.readHeld answer

/-- One thread commits entries in turn, whatever becomes of each, until it breaks off.  The answer
is whether it did. -/
def commitAll (context : Context) : List Entry → Bool × Context
  | [] => (false, context)
  | entry :: rest =>
    match context.commit .interruptible [context.attempt] entry with
    | (.crash, context) => (true, context)
    | (_, context) => context.commitAll rest

/-- Threads that commit entries of their own, each as if the others waited for it.  The answer is
whether one of them broke off. -/
def commitInThreads (context : Context) : List (List Entry) → Bool × Context
  | [] => (false, context)
  | entries :: rest =>
    let (broken, context) := context.commitAll entries
    let (othersBroken, context) := context.commitInThreads rest
    (broken || othersBroken, context)

def describe (context : Context) : String := context.store.value.describe

/-- Closes the store.  A close that fails as planned leaves the store's file behind, unlocked. -/
def close (context : Context) : Outcome Unit × Context :=
  match context.meet .close with
  | (.proceed, context) =>
    let (outcome, files) := context.store.value.close context.files
    (.ofExcept outcome, { context with files := files })
  | (.fail error, context) =>
    (.error error, { context with files := context.store.value.drop context.files })
  | (.crash, context) => (.crash, { context with files := context.store.value.drop context.files })

end Context

end PacketLog
