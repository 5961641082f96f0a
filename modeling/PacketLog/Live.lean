import PacketLog.Program
import Std.Async.TCP
import Std.Async.Timer
import Std.Sync.Mutex

/-!
# A service on this machine

The threads of a service that really runs: they ask the machines of the library
what to do next, do it, and tell them what came of it.  Nothing is decided here.
-/

namespace PacketLog.Live

open Std.Async (Async AsyncTask Selectable Selector)
open Std.Async.TCP

/-- Steps of which each may fail with an error of the program. -/
abbrev Steps := ExceptT Error IO

/-! ## Failed calls -/

/-- An error number, which some calls report negated. -/
def numberOf (code : UInt32) : Nat := min code.toNat (0 - code).toNat

/-- The code and the text of a failed call, if it is one of the operating system. -/
def codeOf? : IO.Error → Option (UInt32 × String)
  | .alreadyExists _ code text | .invalidArgument _ code text | .permissionDenied _ code text
  | .resourceExhausted _ code text | .inappropriateType _ code text | .noSuchThing _ code text
  | .interrupted _ code text | .noFileOrDirectory _ code text | .otherError code text
  | .resourceBusy code text | .resourceVanished code text | .unsupportedOperation code text
  | .hardwareFault code text | .unsatisfiedConstraints code text | .illegalOperation code text
  | .protocolError code text | .timeExpired code text => some (code, text)
  | .unexpectedEof | .userError _ => none

def failureOf (error : IO.Error) : IoFailure :=
  match codeOf? error with
  | none => ⟨.other, toString error⟩
  | some (code, text) =>
    match SystemFailure.ofCode? (numberOf code) with
    | some failure => failure.toIoFailure
    | none => ⟨.other, text ++ " (os error " ++ toString (numberOf code) ++ ")"⟩

/-- Makes a call and explains its failure. -/
def attempt {α : Type} (call : IO α) (explain : IoFailure → Error) : Steps α := do
  match ← call.toBaseIO with
  | .ok value => return value
  | .error error => throw (explain (failureOf error))

/-! ## Stores -/

inductive OpenStore
  | inMemory (ring : Ring)
  /-- The bytes go out through the first handle and come back through the second. -/
  | inFile (file : FileStore) (writer reader : IO.FS.Handle)

namespace OpenStore

/-- Whether the second handle, opened by the path, is one of the file on which the first has the
lock.  Handles show no node numbers, but two of one file can share its lock; on any other file the
lock is free, or its owner has it alone. -/
def sharesFile (writer reader : IO.FS.Handle) : IO Bool := do
  if ← reader.tryLock then
    reader.unlock
    return false
  else if ← writer.tryLock false then
    if ← reader.tryLock false then
      reader.unlock
      writer.tryLock
    else return false
  else return false

def createFile (path : String) : Steps OpenStore := do
  let current ← attempt IO.currentDir (FileStore.unresolved path)
  let absolute ← (FileStore.absolutePath (some current.toString) path : Except Error String)
  let writer ← attempt (IO.FS.Handle.mk absolute .append) (FileStore.notOpened absolute)
  if ← attempt writer.tryLock (FileStore.notLocked absolute) then
    let lost (_ : IoFailure) : Error := FileStore.nameLost absolute
    let reader ← attempt (IO.FS.Handle.mk absolute .read) lost
    if ← attempt (sharesFile writer reader) lost then
      let stale ← attempt (reader.read 1) (FileStore.notAnswered absolute)
      unless stale.isEmpty do
        attempt (do writer.rewind; writer.truncate) (FileStore.notTruncated absolute)
      return .inFile { path := absolute, inode := 0 } writer reader
    else throw (FileStore.nameLost absolute)
  else throw (FileStore.notLocked absolute SystemFailure.wouldBlock.toIoFailure)

def create : StoreChoice → Steps OpenStore
  | .ring capacity => do return .inMemory (← (Ring.create? capacity : Except Error Ring))
  | .file path => createFile path

def append (store : OpenStore) (entry : Entry) : Steps OpenStore := do
  match store with
  | inMemory ring => return .inMemory (ring.append entry).2
  | inFile file writer reader =>
    attempt (do writer.write ⟨entry.toArray⟩; writer.flush) fun failure =>
      (file.appendFailure "failed to append to data file").withFailure failure
    return .inFile { file with length := file.length + entry.length } writer reader

def readAll (store : OpenStore) : Steps Bytes := do
  match store with
  | inMemory ring => return ring.contents
  | inFile file _ reader =>
    attempt reader.rewind (FileStore.notAnswered file.path)
    let contents ← attempt reader.readBinToEnd (FileStore.notRead file.path)
    return contents.data.toList

/-- The lock is given back with the last handle. -/
def close (store : OpenStore) : Steps Unit := do
  match store with
  | inMemory _ => return ()
  | inFile file _ _ => attempt (IO.FS.removeFile file.path) (FileStore.notDeleted file.path)

def describe : OpenStore → String
  | inMemory ring => ring.describe
  | inFile file _ _ => file.describe

end OpenStore

/-! ## What the threads share -/

structure Shared where
  store : IO.Ref OpenStore
  lock : Std.BaseMutex
  aborted : IO.Ref Bool
  log : String → IO Unit

namespace Shared

def pollMillis : Nat := 250

partial def acquire (shared : Shared) (patience : Patience) : IO Acquisition := do
  let attempt : Attempt := { free := ← shared.lock.tryLock, aborted := ← shared.aborted.get }
  match patience.acquire [attempt] with
  | .waiting =>
    IO.sleep 1
    shared.acquire patience
  | acquisition => return acquisition

/-- Runs a critical section; an error leaves the store as it was. -/
def withStore {α : Type} (shared : Shared) (patience : Patience)
    (critical : OpenStore → Steps (α × OpenStore)) : IO (Outcome α) := do
  match ← shared.acquire patience with
  | .acquired =>
    try
      match ← (critical (← shared.store.get)).run with
      | .ok (value, store) =>
        shared.store.set store
        return .ok value
      | .error error => return .error error
    finally shared.lock.unlock
  | .interrupted => return .error .interrupted
  | .waiting => return .waiting

def commit (shared : Shared) (patience : Patience) (entry : Entry) : IO (Outcome Unit) :=
  shared.withStore patience fun store => do return ((), ← store.append entry)

def snapshot (shared : Shared) (patience : Patience) : IO (Outcome Bytes) :=
  shared.withStore patience fun store => do return (← store.readAll, store)

/-- Waits for at most about `millis` milliseconds, and no longer once `done` says so. -/
partial def waitUntil (millis : Nat) (done : IO Bool) : IO Bool := do
  if ← done then return true
  else if millis = 0 then return false
  else
    IO.sleep (UInt32.ofNat (min millis 20))
    waitUntil (millis - 20) done

end Shared

/-! ## Workers -/

def receive (client : Socket.Client) (count : Nat) : IO ReceiveAnswer := do
  let waiting : Async (Option Bytes) := do
    let timer ← Selector.sleep (Std.Time.Millisecond.Offset.ofNat Shared.pollMillis)
    Selectable.one
      #[.case (client.recvSelector count.toUInt64) fun chunk? =>
          return some ((chunk?.map fun chunk => chunk.data.toList).getD []),
        .case timer fun () => return none]
  match ← waiting.block.toBaseIO with
  | .ok (some chunk) => return .received chunk
  | .ok none => return .failed SystemFailure.wouldBlock.toIoFailure
  | .error error => return .failed (failureOf error)

/-- Sends all of `data`, unless the abort signal is raised while the peer takes nothing. -/
partial def send (shared : Shared) (client : Socket.Client) (data : Bytes) : IO SendAnswer := do
  let task ← (client.send ⟨data.toArray⟩).toIO
  let rec await : IO SendAnswer := do
    if ← Shared.waitUntil Shared.pollMillis (IO.hasFinished task) then
      match ← task.block.toBaseIO with
      | .ok () => return .sent data.length
      | .error error => return .failed (failureOf error)
    else if ← shared.aborted.get then return .failed SystemFailure.wouldBlock.toIoFailure
    else await
  await

def nextEvent? (shared : Shared) (client : Socket.Client) (worker : Worker) :
    IO (Option WorkerEvent) := do
  match worker.phase with
  | .polling => return some .polled
  | .watching | .stalled _ => return some (.looked (← shared.aborted.get))
  | .receiving => return some (.received (← receive client worker.chunkSize))
  | .committing packet patience => return some (.committed (← shared.commit patience packet))
  | .reading patience => return some (.snapshotted (← shared.snapshot patience))
  | .sending rest => return some (.sent (← send shared client rest))
  | .finished _ | .broken => return none

/-- Lets a worker go on until it ends. -/
partial def work (shared : Shared) (client : Socket.Client) (worker : Worker) : IO ThreadState := do
  match ← nextEvent? shared client worker with
  | none =>
    let _ ← client.shutdown.block.toBaseIO
    return worker.thread
  | some event =>
    match worker.step? event with
    | some worker => work shared client worker
    | none => return .broken

/-! ## The periodic appender -/

def thisMoment : IO Moment := do
  return { unix := (← Std.Time.Timestamp.now).toSecondsSinceUnixEpoch.val }

def sleepUntil (shared : Shared) (deadline : Nat) : IO StamperEvent := do
  let left := deadline - (← IO.monoNanosNow)
  let aborted ← Shared.waitUntil (left / Clock.nanosPerMilli + 1) shared.aborted.get
  return .woken (max deadline (← IO.monoNanosNow)) aborted

def nextStamperEvent? (shared : Shared) (stamper : Stamper) : IO (Option StamperEvent) := do
  match stamper.phase with
  | .checking => return some (.looked (← shared.aborted.get))
  | .starting => return some (.begun (← IO.monoNanosNow) (← thisMoment))
  | .committing _ record => return some (.committed (← shared.commit .interruptible record))
  | .sleeping deadline => return some (← sleepUntil shared deadline)
  | .stopped | .broken => return none

/-- Lets the appender go on until it ends. -/
partial def stamp (shared : Shared) (stamper : Stamper) : IO StamperThread := do
  match (← nextStamperEvent? shared stamper).bind stamper.step? with
  | some stamper => stamp shared stamper
  | none => return (stamper.result?.map StamperThread.returned).getD .broken

/-! ## The supervisor -/

/-- The workers of a service and the threads that run them. -/
structure Crew where
  registry : Registry := {}
  threads : List (Nat × Task (Except IO.Error ThreadState)) := []

namespace Crew

def stateOf (thread : Task (Except IO.Error ThreadState)) : ThreadState :=
  match thread.get with
  | .ok state => state
  | .error _ => .broken

/-- Notes which threads have ended. -/
def observe (crew : Crew) : IO Crew := do
  let ended ← crew.threads.filterM fun (_, thread) => IO.hasFinished thread
  let registry := ended.foldl
    (fun registry (id, thread) => registry.setThread id (stateOf thread)) crew.registry
  return { registry := registry,
           threads := crew.threads.filter fun (id, _) => !ended.any fun (other, _) => other == id }

/-- Joins the threads that have ended. -/
def reap (crew : Crew) : IO Crew := do
  let crew ← crew.observe
  return { crew with registry := crew.registry.reap.2 }

/-- Joins every thread. -/
def joinAll (crew : Crew) : IO (List WorkerSummary) := do
  let registry := crew.threads.foldl
    (fun registry (id, thread) => registry.setThread id (stateOf thread)) crew.registry
  return (registry.joinAll?.map Prod.fst).getD []

def add (crew : Crew) (shared : Shared) (config : ServiceConfig) (client : Socket.Client) :
    IO Crew := do
  let (answer, registry) := crew.registry.register (.ok .running)
  match answer with
  | .error _ => return { crew with registry := registry }
  | .ok id =>
    let worker := Worker.create id config.maxPacketBytes config.chunkSize
    let thread ← IO.asTask (work shared client worker) Task.Priority.dedicated
    return { registry := registry, threads := crew.threads ++ [(id, thread)] }

end Crew

/-- Waits for a connection for as long as one poll lasts. -/
def nextClient? (server : Socket.Server) : IO (Option Socket.Client) := do
  let waiting : Async (Option Socket.Client) := do
    let timer ← Selector.sleep (Std.Time.Millisecond.Offset.ofNat Shared.pollMillis)
    Selectable.one
      #[.case server.acceptSelector fun client => return some client,
        .case timer fun () => return none]
  waiting.block

partial def acceptLoop (server : Socket.Server) (shared : Shared) (config : ServiceConfig)
    (crew : Crew) : IO Crew := do
  if ← shared.aborted.get then return crew
  else
    match ← (nextClient? server).toBaseIO with
    | .ok (some client) => acceptLoop server shared config (← crew.add shared config client)
    | .ok none => acceptLoop server shared config (← crew.reap)
    | .error error =>
      shared.log ("accept failed: " ++ toString error)
      IO.sleep (UInt32.ofNat Shared.pollMillis)
      acceptLoop server shared config crew

/-- Serves until the abort signal is raised, joins every thread, and closes the store. -/
def serve (server : Socket.Server) (shared : Shared) (config : ServiceConfig) :
    Steps ShutdownReport := do
  let stamper ← config.stampSeconds.mapM fun seconds => do
    let stamper : Stamper := { interval := Clock.ofSeconds seconds }
    (IO.asTask (stamp shared stamper) Task.Priority.dedicated : IO _)
  let crew ← acceptLoop server shared config {}
  shared.aborted.set true
  let workers ← crew.joinAll
  let stamps ← match stamper.map Task.get with
    | none => pure 0
    | some (.ok (.returned stamps)) => pure stamps
    | some _ => throw Supervisor.stamperBroken
  (← shared.store.get).close
  return { workers := workers, stamps := stamps }

end PacketLog.Live
