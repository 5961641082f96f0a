import PacketLog.Proofs.Store.Calls
import PacketLog.Supervisor

/-!
# What one step of a supervisor can be

`Transition` lists the steps of a supervisor, guards included, and
`transition_of_step?` says that there are no others.  Closing the store is a call of
its own: `Context.Closing` says what it comes to and what it leaves alone.
-/

namespace PacketLog

/-! ## Calls of the store -/

namespace Faults

theorem message_of_applied {actions : List FaultAction} {error : Error}
    (hVerdict : (applied actions).verdict = .fail error) : error.message = some "injected" := by
  induction actions with
  | nil => cases hVerdict
  | cons action later ih =>
    cases action with
    | fail kind =>
      obtain rfl := FaultVerdict.fail.inj hVerdict
      rfl
    | abort => exact ih hVerdict
    | crash => cases hVerdict

end Faults

theorem Outcome.error_ne_of_message {α : Type} {error other : Error} {text otherText : String}
    (hText : error.message = some text) (hOther : other.message = some otherText)
    (hNe : text ≠ otherText) : (Outcome.error error : Outcome α) ≠ .error other := by
  intro hSame
  rw [Outcome.error.inj hSame, hOther] at hText
  exact hNe (Option.some.inj hText).symm

namespace Context

/-- A call is counted before it goes on; the store and the workers are not touched. -/
theorem of_meet {context met : Context} {call : StoreCall} {verdict : FaultVerdict}
    (hMeet : context.meet call = (verdict, met)) :
    met.store = context.store ∧ met.files = context.files ∧ met.workers = context.workers ∧
      met.faults = context.faults.counted call ∧
      ∀ error, verdict = .fail error → error.message = some "injected" := by
  obtain ⟨rfl, rfl⟩ := Prod.mk.inj hMeet
  exact ⟨rfl, rfl, rfl, rfl, fun error hFail => Faults.message_of_applied hFail⟩

/-- The workers are the same, and the store has not been closed since. -/
def SameCrew (context after : Context) : Prop :=
  after.workers = context.workers ∧ after.faults.closes = context.faults.closes

theorem sameCrew_of_meet {context met : Context} {call : StoreCall} {verdict : FaultVerdict}
    (hMeet : context.meet call = (verdict, met)) (hCall : call ≠ .close) :
    SameCrew context met := by
  obtain ⟨-, -, hWorkers, hFaults, -⟩ := of_meet hMeet
  refine ⟨hWorkers, ?_⟩
  rw [hFaults]
  cases call with
  | append => rfl
  | read => rfl
  | close => exact absurd rfl hCall

theorem sameCrew_commit (context : Context) (patience : Patience) (attempts : List Attempt)
    (entry : Entry) (answers : List WriteAnswer) :
    SameCrew context (context.commit patience attempts entry answers).2 := by
  apply (patience.acquire attempts).enter_snd
  · exact ⟨rfl, rfl⟩
  · rw [appendHeld]
    rcases hMeet : context.meet .append with ⟨_ | error | _, met⟩ <;>
      obtain ⟨hWorkers, hCloses⟩ := sameCrew_of_meet hMeet (by decide) <;>
      exact ⟨hWorkers, hCloses⟩

theorem sameCrew_snapshot (context : Context) (patience : Patience) (attempts : List Attempt) :
    SameCrew context (context.snapshot patience attempts).2 := by
  apply (patience.acquire attempts).enter_snd
  · exact ⟨rfl, rfl⟩
  · rw [readHeld]
    rcases hMeet : context.meet .read with ⟨_ | error | _, met⟩ <;>
      obtain ⟨hWorkers, hCloses⟩ := sameCrew_of_meet hMeet (by decide) <;>
      exact ⟨hWorkers, hCloses⟩

/-- What closing the store comes to. -/
structure Closing (context : Context) (outcome : Outcome Unit) (after : Context) : Prop where
  workers_eq : after.workers = context.workers
  faults_eq : after.faults = context.faults.counted .close
  store_eq : after.store = context.store
  returns : outcome ≠ .waiting
  error_ne : outcome ≠ .error Supervisor.stillShared
  /-- A close that succeeds has released the store. -/
  released : outcome = .ok () → context.store.value.close context.files = (.ok (), after.files)

/-- Deleting the name of a file may fail, but not because the context is shared. -/
theorem outcome_ne_of_close {store : Store} {files filesAfter : FileSystem}
    {result : Except Error Unit} (hClose : store.close files = (result, filesAfter)) :
    Outcome.ofExcept result ≠ .error Supervisor.stillShared := by
  cases store with
  | inMemory ring =>
    obtain ⟨rfl, -⟩ := Prod.mk.inj hClose
    exact nofun
  | inFile file =>
    rw [Store.close, FileStore.remove, FileStore.unlinkFile] at hClose
    cases hUnlink : FileSystem.guarded [file.path] (files.unlink file.path) with
    | ok unlinked =>
      rw [hUnlink] at hClose
      obtain ⟨rfl, -⟩ := Prod.mk.inj hClose
      exact nofun
    | error failure =>
      rw [hUnlink] at hClose
      obtain ⟨rfl, -⟩ := Prod.mk.inj hClose
      exact Outcome.error_ne_of_message rfl rfl (by decide)

theorem closing_close (context : Context) :
    Closing context context.close.1 context.close.2 := by
  rw [close]
  rcases hMeet : context.meet .close with ⟨_ | error | _, met⟩ <;>
    obtain ⟨hStore, hFiles, hWorkers, hFaults, hInjected⟩ := of_meet hMeet
  · dsimp only
    rcases hClose : met.store.value.close met.files with ⟨result, files⟩
    exact
      { workers_eq := hWorkers
        faults_eq := hFaults
        store_eq := hStore
        returns := by cases result <;> exact nofun
        error_ne := outcome_ne_of_close hClose
        released := fun hOk => by
          cases result with
          | ok value => rw [← hStore, ← hFiles, hClose]
          | error error => cases hOk }
  · exact
      { workers_eq := hWorkers
        faults_eq := hFaults
        store_eq := hStore
        returns := nofun
        error_ne := Outcome.error_ne_of_message (hInjected error rfl) rfl (by decide)
        released := nofun }
  · exact
      { workers_eq := hWorkers
        faults_eq := hFaults
        store_eq := hStore
        returns := nofun
        error_ne := nofun
        released := nofun }

end Context

/-! ## Steps -/

namespace Supervisor

/-- The thread that calls the store. -/
def callerOf? : SupervisorEvent → Option ServiceThread
  | .committed thread _ _ _ _ => some thread
  | .snapshotted thread _ _ => some thread
  | _ => none

def withWorkers (supervisor : Supervisor) (workers : Registry) : Supervisor :=
  { supervisor with context := { supervisor.context with workers := workers } }

inductive Transition (supervisor : Supervisor) : SupervisorEvent → Supervisor → Prop
  /-- There is to be no appender. -/
  | begun {spawned : Except IoFailure Unit} (hPhase : supervisor.phase = .starting)
      (hStamped : supervisor.stamped = false) :
      Transition supervisor (.started spawned) { supervisor with phase := .accepting }
  | stamperSpawned (hPhase : supervisor.phase = .starting) (hStamped : supervisor.stamped = true) :
      Transition supervisor (.started (.ok ()))
        { supervisor.hold with stamper := .running, phase := .accepting }
  | stamperNotSpawned {failure : IoFailure} {outcome : Outcome Unit} {after : Supervisor}
      {result : Outcome ShutdownReport} (hPhase : supervisor.phase = .starting)
      (hStamped : supervisor.stamped = true)
      (hClose : closeStore { supervisor with context := supervisor.context.raise } =
        (outcome, after))
      (hResult : result = .crash ∨ result = .error (stamperNotSpawned failure)) :
      Transition supervisor (.started (.error failure)) (after.finishWith result)
  /-- A connection is dropped, and what was taken for it is given back. -/
  | dropped {configured spawned : Except IoFailure Unit} {room : Bool} {workers : Registry}
      (hPhase : supervisor.phase = .accepting)
      (hFailed : (configured, spawned, room) ≠ (.ok (), .ok (), true))
      (hHandles : workers.handles = supervisor.context.workers.handles)
      (hId : supervisor.context.workers.lastId ≤ workers.lastId) :
      Transition supervisor (.accepted configured spawned room) (supervisor.withWorkers workers)
  | workerSpawned (hPhase : supervisor.phase = .accepting) :
      Transition supervisor (.accepted (.ok ()) (.ok ()) true)
        (supervisor.hold.withWorkers (supervisor.context.workers.register (.ok .running)).2)
  | reaped (hPhase : supervisor.phase = .accepting) :
      Transition supervisor .reaped (supervisor.withWorkers supervisor.context.workers.reap.2)
  | raised : Transition supervisor .raised { supervisor with context := supervisor.context.raise }
  | called {event : SupervisorEvent} {thread : ServiceThread} {context : Context}
      (hCaller : callerOf? event = some thread) (hRunning : supervisor.isRunning thread = true)
      (hContext : supervisor.context.SameCrew context) :
      Transition supervisor event { supervisor with context := context }
  | workerEnded {id : Nat} {thread : ThreadState}
      (hRunning : supervisor.isRunning (.worker id) = true) (hEnded : thread ≠ .running) :
      Transition supervisor (.workerEnded id thread)
        (supervisor.letGo.withWorkers (supervisor.context.workers.setThread id thread))
  | stamperEnded {thread : StamperThread} (hRunning : supervisor.isRunning .stamper = true)
      (hEnded : thread ≠ .running) :
      Transition supervisor (.stamperEnded thread) { supervisor.letGo with stamper := thread }
  | stopped (hPhase : supervisor.phase = .accepting)
      (hAborted : supervisor.context.aborted = true) :
      Transition supervisor .stopped { supervisor with phase := .joiningWorkers }
  | workersJoined {summaries : List WorkerSummary} (hPhase : supervisor.phase = .joiningWorkers)
      (hEnded : supervisor.context.workers.handles.all WorkerHandle.isFinished = true) :
      Transition supervisor .workersJoined
        { supervisor.withWorkers { supervisor.context.workers with handles := [] } with
          phase := .joiningStamper summaries }
  | stamperJoined {workers : List WorkerSummary} {stamps : Nat}
      (hPhase : supervisor.phase = .joiningStamper workers)
      (hEnded : supervisor.stamper ≠ .running) (hWhole : supervisor.stamper ≠ .broken) :
      Transition supervisor .stamperJoined
        { supervisor with phase := .closing { workers := workers, stamps := stamps } }
  | abandoned {workers : List WorkerSummary} (hPhase : supervisor.phase = .joiningStamper workers)
      (hBroken : supervisor.stamper = .broken) :
      Transition supervisor .stamperJoined (supervisor.abandon (.error stamperBroken))
  | closed {report : ShutdownReport} {outcome : Outcome Unit} {after : Supervisor}
      (hPhase : supervisor.phase = .closing report)
      (hClose : supervisor.closeStore = (outcome, after)) :
      Transition supervisor .closed (after.finishWith (outcome.map fun _ => report))

theorem closeStore_ne_waiting (supervisor : Supervisor) : supervisor.closeStore.1 ≠ .waiting := by
  rw [closeStore]
  split
  · exact supervisor.context.closing_close.returns
  · exact nofun

variable {supervisor next : Supervisor}

theorem transition_onStarted (hPhase : supervisor.phase = .starting)
    (spawned : Except IoFailure Unit) :
    Transition supervisor (.started spawned) (supervisor.onStarted spawned) := by
  rw [onStarted]
  by_cases hStamped : supervisor.stamped = true
  · rw [if_pos hStamped]
    cases spawned with
    | ok value => exact .stamperSpawned hPhase hStamped
    | error failure =>
      -- The hold that was taken for the appender has been given back.
      dsimp only
      split
      · next hClose => exact .stamperNotSpawned hPhase hStamped hClose (Or.inl rfl)
      · next hClose => exact .stamperNotSpawned hPhase hStamped hClose (Or.inr rfl)
  · rw [if_neg hStamped]
    exact .begun hPhase (Bool.eq_false_iff.mpr hStamped)

theorem transition_onAccepted (hPhase : supervisor.phase = .accepting)
    (configured spawned : Except IoFailure Unit) (room : Bool) :
    Transition supervisor (.accepted configured spawned room)
      (supervisor.onAccepted configured spawned room) := by
  cases configured with
  | error failure => exact .dropped hPhase nofun rfl (Nat.le_refl _)
  | ok value =>
    cases room with
    | false => exact .dropped hPhase nofun rfl (Nat.le_refl _)
    | true =>
      cases spawned with
      | error failure => exact .dropped hPhase nofun rfl (Nat.le_succ _)
      | ok value => exact .workerSpawned hPhase

theorem transition_onClosed {report : ShutdownReport}
    (hPhase : supervisor.phase = .closing report) :
    Transition supervisor .closed (supervisor.onClosed report) := by
  rw [onClosed]
  rcases hClose : supervisor.closeStore with ⟨_ | error | _ | _, after⟩
  · exact .closed hPhase hClose
  · exact .closed hPhase hClose
  · exact .closed hPhase hClose
  · exact absurd (congrArg Prod.fst hClose) supervisor.closeStore_ne_waiting

theorem transition_of_step? {event : SupervisorEvent} (hStep : supervisor.step? event = some next) :
    Transition supervisor event next := by
  unfold step? at hStep
  dsimp only at hStep
  split at hStep
  · next hPhase =>
    obtain rfl := Option.some.inj hStep
    exact transition_onStarted hPhase _
  · next hPhase =>
    obtain rfl := Option.some.inj hStep
    exact transition_onAccepted hPhase _ _ _
  · next hPhase =>
    obtain rfl := Option.some.inj hStep
    exact .reaped hPhase
  · obtain rfl := Option.some.inj hStep
    exact .raised
  · obtain ⟨hRunning, hNext⟩ := Option.ite_none_right_eq_some.mp hStep
    obtain rfl := Option.some.inj hNext
    exact .called rfl hRunning (supervisor.context.sameCrew_commit _ _ _ _)
  · obtain ⟨hRunning, hNext⟩ := Option.ite_none_right_eq_some.mp hStep
    obtain rfl := Option.some.inj hNext
    exact .called rfl hRunning (supervisor.context.sameCrew_snapshot _ _)
  · obtain ⟨⟨hRunning, hEnded⟩, hNext⟩ := Option.ite_none_right_eq_some.mp hStep
    obtain rfl := Option.some.inj hNext
    exact .workerEnded hRunning hEnded
  · obtain ⟨⟨hRunning, hEnded, -⟩, hNext⟩ := Option.ite_none_right_eq_some.mp hStep
    obtain rfl := Option.some.inj hNext
    exact .stamperEnded hRunning hEnded
  · next hPhase =>
    obtain ⟨hAborted, hNext⟩ := Option.ite_none_right_eq_some.mp hStep
    obtain rfl := Option.some.inj hNext
    exact .stopped hPhase hAborted
  · next hPhase =>
    split at hStep
    · next summaries workers hJoin =>
      obtain rfl := Option.some.inj hStep
      obtain ⟨hEnded, hWorkers⟩ := Option.ite_none_right_eq_some.mp hJoin
      obtain ⟨-, rfl⟩ := Prod.mk.inj (Option.some.inj hWorkers)
      exact .workersJoined hPhase hEnded
    · cases hStep
  · next hPhase =>
    split at hStep
    · next hStamper =>
      obtain rfl := Option.some.inj hStep
      exact .stamperJoined hPhase (by rw [hStamper]; nofun) (by rw [hStamper]; nofun)
    · next hStamper =>
      obtain rfl := Option.some.inj hStep
      exact .stamperJoined hPhase (by rw [hStamper]; nofun) (by rw [hStamper]; nofun)
    · next hStamper =>
      obtain rfl := Option.some.inj hStep
      exact .abandoned hPhase hStamper
    · cases hStep
  · next hPhase =>
    obtain rfl := Option.some.inj hStep
    exact transition_onClosed hPhase
  · cases hStep

end Supervisor

end PacketLog
