import Mathlib
import PacketLog.Proofs.FileSystem.Names
import PacketLog.Proofs.Supervisor.Muster

/-!
# The end of a service

The store is closed once, by a supervisor that is alone, and then nobody can call it any
more (`alone_at_close`).  There is one way for a service to return without closing its
store: if the appender has broken off.  Then the store is dropped with the context, and
its file stays behind (`closed_unless_stamper_broken`, `left_behind_of_broken_stamper`).
-/

namespace PacketLog

namespace Supervisor

/-- How a service ended whose store had been closed `closes` times before. -/
inductive Shutdown (closes : Nat) (supervisor : Supervisor) : Outcome ShutdownReport → Prop
  /-- The store was closed.  If that succeeded, its file has no name any more. -/
  | closed {result : Outcome ShutdownReport} (hWhole : supervisor.stamper ≠ .broken)
      (hCloses : supervisor.context.faults.closes = closes + 1)
      (hResult : result ≠ .error stillShared)
      (hGone : ∀ report file, result = .ok report → supervisor.context.store.value = .inFile file →
        supervisor.context.files.hasPath file.path = false) :
      Shutdown closes supervisor result
  /-- The appender broke off, and the store was dropped. -/
  | abandoned (hBroken : supervisor.stamper = .broken)
      (hCloses : supervisor.context.faults.closes = closes) :
      Shutdown closes supervisor (.error stamperBroken)

theorem Shutdown.result_ne {closes : Nat} {supervisor : Supervisor}
    {result : Outcome ShutdownReport} (hShutdown : supervisor.Shutdown closes result) :
    result ≠ .error stillShared := by
  cases hShutdown with
  | closed hWhole hCloses hResult hGone => exact hResult
  | abandoned hBroken hCloses => exact Outcome.error_ne_of_message rfl rfl (by decide)

/-- What has become of the store by the time the supervisor is in a phase. -/
def StoreFate (closes : Nat) (supervisor : Supervisor) : SupervisorPhase → Prop
  | .starting => supervisor.context.faults.closes = closes ∧ supervisor.stamper ≠ .broken
  | .closing _ => supervisor.context.faults.closes = closes ∧ supervisor.stamper ≠ .broken
  | .returned result => supervisor.Shutdown closes result
  | _ => supervisor.context.faults.closes = closes

/-- While threads may run, nothing matters but that the store has not been closed. -/
theorem StoreFate.keep {closes : Nat} {supervisor other : Supervisor} {phase : SupervisorPhase}
    (hFate : supervisor.StoreFate closes phase) (hBusy : phase.isIdle = false)
    (hCloses : other.context.faults.closes = supervisor.context.faults.closes) :
    other.StoreFate closes phase := by
  cases phase with
  | starting => cases hBusy
  | accepting => exact hCloses.trans hFate
  | joiningWorkers => exact hCloses.trans hFate
  | joiningStamper workers => exact hCloses.trans hFate
  | closing report => cases hBusy
  | returned result => cases hBusy

theorem StoreFate.raise {closes : Nat} {supervisor : Supervisor} {phase : SupervisorPhase}
    (hFate : supervisor.StoreFate closes phase) :
    StoreFate closes { supervisor with context := supervisor.context.raise } phase := by
  cases phase with
  | starting => exact hFate
  | accepting => exact hFate
  | joiningWorkers => exact hFate
  | joiningStamper workers => exact hFate
  | closing report => exact hFate
  | returned result =>
    cases hFate with
    | closed hWhole hCloses hResult hGone => exact .closed hWhole hCloses hResult hGone
    | abandoned hBroken hCloses => exact .abandoned hBroken hCloses

theorem abandon_faults (supervisor : Supervisor) (result : Outcome ShutdownReport) :
    (supervisor.abandon result).context.faults = supervisor.context.faults := by
  rw [abandon]
  dsimp only
  split <;> rfl

theorem shutdown_of_closeStore {supervisor after : Supervisor} {outcome : Outcome Unit}
    {result : Outcome ShutdownReport} {closes : Nat}
    (hClose : supervisor.closeStore = (outcome, after)) (hHolders : supervisor.holders = 1)
    (hCloses : supervisor.context.faults.closes = closes) (hWhole : supervisor.stamper ≠ .broken)
    (hShared : result = .error stillShared → outcome = .error stillShared)
    (hOk : ∀ report, result = .ok report → outcome = .ok ()) :
    (after.finishWith result).Shutdown closes result := by
  subst hCloses
  rw [closeStore_of_holders hHolders] at hClose
  obtain ⟨rfl, rfl⟩ := Prod.mk.inj hClose
  have hClosing := supervisor.context.closing_close
  refine .closed hWhole (congrArg Faults.closes hClosing.faults_eq)
    (fun hResult => hClosing.error_ne (hShared hResult)) ?_
  intro report file hResult hFile
  have hReleased := hClosing.released (hOk report hResult)
  have hStore : supervisor.context.store.value = .inFile file := hClosing.store_eq ▸ hFile
  rw [hStore] at hReleased
  exact FileStore.hasPath_of_remove hReleased

end Supervisor

namespace Muster

variable {muster last : Muster} {closes : Nat}

/-- The store is closed when the supervisor returns, and not before. -/
theorem Accounted.storeFate (hAccounted : muster.Accounted)
    (hFate : muster.supervisor.StoreFate closes muster.supervisor.phase) {event : SupervisorEvent}
    {next : Supervisor} (hTransition : muster.supervisor.Transition event next) :
    next.StoreFate closes next.phase := by
  have hHolders := hAccounted.holders_eq
  cases hTransition with
  | begun hPhase hStamped =>
    rw [hPhase] at hFate
    exact hFate.1
  | stamperSpawned hPhase hStamped =>
    rw [hPhase] at hFate
    exact hFate.1
  | stamperNotSpawned hPhase hStamped hClose hResult =>
    rw [hPhase, hAccounted.running_eq_nil (by rw [hPhase]; rfl)] at hHolders
    rw [hPhase] at hFate
    -- The failed spawn is what is reported, whatever the close came to.
    refine Supervisor.shutdown_of_closeStore hClose hHolders hFate.1 hFate.2 ?_ ?_
    · rcases hResult with rfl | rfl
      · exact nofun
      · exact fun hShared => absurd hShared (Outcome.error_ne_of_message rfl rfl (by decide))
    · rcases hResult with rfl | rfl <;> exact nofun
  | dropped hPhase hFailed hHandles hId => exact hFate.keep (by rw [hPhase]; rfl) rfl
  | workerSpawned hPhase => exact hFate.keep (by rw [hPhase]; rfl) rfl
  | reaped hPhase => exact hFate.keep (by rw [hPhase]; rfl) rfl
  | raised => exact hFate.raise
  | called hCaller hRunning hContext => exact hFate.keep (hAccounted.busy hRunning) hContext.2
  | workerEnded hRunning hEnded => exact hFate.keep (hAccounted.busy hRunning) rfl
  | stamperEnded hRunning hEnded => exact hFate.keep (hAccounted.busy hRunning) rfl
  | stopped hPhase hAborted =>
    rw [hPhase] at hFate
    exact hFate
  | workersJoined hPhase hEnded =>
    rw [hPhase] at hFate
    exact hFate
  | stamperJoined hPhase hEnded hWhole =>
    rw [hPhase] at hFate
    exact ⟨hFate, hWhole⟩
  | abandoned hPhase hBroken =>
    have hSettled := hAccounted.settled
    rw [hPhase] at hFate hHolders hSettled
    rw [Supervisor.running_eq_nil hSettled (by rw [hBroken]; nofun)] at hHolders
    rw [Supervisor.abandon_of_holders hHolders]
    exact .abandoned hBroken hFate
  | @closed report outcome after hPhase hClose =>
    rw [hPhase, hAccounted.running_eq_nil (by rw [hPhase]; rfl)] at hHolders
    rw [hPhase] at hFate
    refine Supervisor.shutdown_of_closeStore hClose hHolders hFate.1 hFate.2 ?_ ?_
    · intro hShared
      cases outcome with
      | error error => exact congrArg Outcome.error (Outcome.error.inj hShared)
      | ok value => cases hShared
      | crash => cases hShared
      | waiting => cases hShared
    · intro report' hOk
      cases outcome with
      | ok value => rfl
      | error error => cases hOk
      | crash => cases hOk
      | waiting => cases hOk

/-- The books balance at its end, and the store is closed if it has returned. -/
theorem accounted_of_run? (hAccounted : muster.Accounted)
    (hFate : muster.supervisor.StoreFate closes muster.supervisor.phase)
    {events : List SupervisorEvent} (hRun : muster.run? events = some last) :
    last.Accounted ∧ last.supervisor.StoreFate closes last.supervisor.phase := by
  induction events generalizing muster with
  | nil =>
    obtain rfl := Option.some.inj hRun
    exact ⟨hAccounted, hFate⟩
  | cons event later ih =>
    obtain ⟨next, hStep, hRest⟩ := Option.bind_eq_some_iff.mp hRun
    obtain ⟨supervisor, hNext, rfl⟩ := Option.map_eq_some_iff.mp hStep
    have hTransition := Supervisor.transition_of_step? hNext
    exact ih (hAccounted.step hTransition) (hAccounted.storeFate hFate hTransition) hRest

theorem accounted_of_fresh {context : Context} (hFresh : context.workers = {}) (stamped : Bool) :
    Accounted { supervisor := { context := context, stamped := stamped } } := by
  have hNone : Supervisor.running { context := context, stamped := stamped } = [] := by
    rw [Supervisor.running, hFresh]
    rfl
  exact
    { nodup := List.nodup_nil
      known := fun _ hMem => absurd hMem List.not_mem_nil
      perm := by
        rw [hNone]
        exact List.Perm.refl _
      holders_eq := by
        rw [hNone]
        rfl
      settled := rfl }

/-! ## After the close has begun -/

theorem Accounted.late_step (hAccounted : muster.Accounted)
    (hLate : muster.supervisor.phase.isLate = true) {event : SupervisorEvent} {next : Supervisor}
    (hTransition : muster.supervisor.Transition event next) :
    next.phase.isLate = true ∧
      next.context.faults.appends = muster.supervisor.context.faults.appends ∧
      next.context.faults.reads = muster.supervisor.context.faults.reads := by
  have hIdle := SupervisorPhase.isIdle_of_isLate hLate
  have hNobody {thread : ServiceThread} : muster.supervisor.isRunning thread ≠ true :=
    Bool.eq_false_iff.mp (hAccounted.idle hIdle thread)
  cases hTransition with
  | raised => exact ⟨hLate, rfl, rfl⟩
  | called hCaller hRunning hContext => exact absurd hRunning hNobody
  | workerEnded hRunning hEnded => exact absurd hRunning hNobody
  | stamperEnded hRunning hEnded => exact absurd hRunning hNobody
  | closed hPhase hClose =>
    have hAlone := hAccounted.alone hIdle (by rw [hPhase]; rfl)
    rw [Supervisor.closeStore_of_holders hAlone.holders_eq] at hClose
    obtain ⟨-, rfl⟩ := Prod.mk.inj hClose
    have hFaults := muster.supervisor.context.closing_close.faults_eq
    have hAppends := congrArg Faults.appends hFaults
    have hReads := congrArg Faults.reads hFaults
    exact ⟨rfl, hAppends, hReads⟩
  | begun hPhase _ | stamperSpawned hPhase _ | stamperNotSpawned hPhase _ _ _ | dropped hPhase _ _ _
  | workerSpawned hPhase | reaped hPhase | stopped hPhase _ | workersJoined hPhase _
  | stamperJoined hPhase _ _ | abandoned hPhase _ =>
    rw [hPhase] at hLate
    cases hLate

theorem Accounted.calls_eq (hAccounted : muster.Accounted)
    (hLate : muster.supervisor.phase.isLate = true) {events : List SupervisorEvent}
    (hRun : muster.run? events = some last) :
    last.supervisor.context.faults.appends = muster.supervisor.context.faults.appends ∧
      last.supervisor.context.faults.reads = muster.supervisor.context.faults.reads := by
  induction events generalizing muster with
  | nil =>
    obtain rfl := Option.some.inj hRun
    exact ⟨rfl, rfl⟩
  | cons event later ih =>
    obtain ⟨next, hStep, hRest⟩ := Option.bind_eq_some_iff.mp hRun
    obtain ⟨supervisor, hNext, rfl⟩ := Option.map_eq_some_iff.mp hStep
    have hTransition := Supervisor.transition_of_step? hNext
    obtain ⟨hStill, hAppends, hReads⟩ := hAccounted.late_step hLate hTransition
    obtain ⟨hLastAppends, hLastReads⟩ := ih (hAccounted.step hTransition) hStill hRest
    exact ⟨hLastAppends.trans hAppends, hLastReads.trans hReads⟩

/-- A step that closes the store is taken by a supervisor that is alone. -/
theorem Accounted.alone_of_step (hAccounted : muster.Accounted) {event : SupervisorEvent}
    {next : Supervisor} (hTransition : muster.supervisor.Transition event next)
    (hClosed : next.context.faults.closes ≠ muster.supervisor.context.faults.closes) :
    muster.Alone := by
  cases hTransition with
  | stamperNotSpawned hPhase hStamped hClose hResult =>
    exact hAccounted.alone (by rw [hPhase]; rfl) (by rw [hPhase]; rfl)
  | closed hPhase hClose => exact hAccounted.alone (by rw [hPhase]; rfl) (by rw [hPhase]; rfl)
  | called hCaller hRunning hContext => exact absurd hContext.2 hClosed
  | abandoned hPhase hBroken =>
    exact absurd (congrArg Faults.closes (Supervisor.abandon_faults _ _)) hClosed
  | begun | stamperSpawned | dropped | workerSpawned | reaped | raised | workerEnded | stamperEnded
  | stopped | workersJoined | stamperJoined => exact absurd rfl hClosed

/-! ## Whole services -/

section Service

variable {context : Context} {stamped : Bool} {events : List SupervisorEvent}

theorem accounted_of_service (hFresh : context.workers = {})
    (hRun : run? { supervisor := { context := context, stamped := stamped } } events = some last) :
    last.Accounted ∧
      last.supervisor.StoreFate context.faults.closes last.supervisor.phase := by
  refine accounted_of_run? (accounted_of_fresh hFresh stamped) ?_ hRun
  exact ⟨rfl, fun hBroken => by cases hBroken⟩

/-- **The store is closed by the last who holds it.**  Whatever connections come and whichever of
them get a worker, however the threads end and whenever the abort signal is raised: a supervisor
that is to close the store, or does so in its next step, is the only holder of the context, and all
threads that were ever spawned have ended, each of them once.  So it never finds the context shared,
and from then on the calls of the store that append or read are as many as they were. -/
theorem alone_at_close (hFresh : context.workers = {})
    (hRun : run? { supervisor := { context := context, stamped := stamped } } events = some last) :
    last.spawned.Nodup ∧
    (∀ report, last.supervisor.phase = .closing report → last.Alone) ∧
    (∀ event next, last.step? event = some next →
      next.supervisor.context.faults.closes ≠ last.supervisor.context.faults.closes →
      last.Alone) ∧
    last.supervisor.phase ≠ .returned (.error Supervisor.stillShared) ∧
    ∀ later final, last.supervisor.phase.isLate = true → last.run? later = some final →
      final.supervisor.context.faults.appends = last.supervisor.context.faults.appends ∧
      final.supervisor.context.faults.reads = last.supervisor.context.faults.reads := by
  obtain ⟨hAccounted, hFate⟩ := accounted_of_service hFresh hRun
  refine ⟨hAccounted.nodup, ?_, ?_, ?_, ?_⟩
  · intro report hPhase
    exact hAccounted.alone (by rw [hPhase]; rfl) (by rw [hPhase]; rfl)
  · intro event next hStep hClosed
    obtain ⟨supervisor, hNext, rfl⟩ := Option.map_eq_some_iff.mp hStep
    exact hAccounted.alone_of_step (Supervisor.transition_of_step? hNext) hClosed
  · intro hPhase
    rw [hPhase] at hFate
    exact hFate.result_ne rfl
  · intro later final hLate hLater
    exact hAccounted.calls_eq hLate hLater

/-- One worker breaks off and is reaped, a second is not spawned, a third gets no room, and the
fourth ends after the accepting. -/
theorem alone_at_close_of_three_threads :
    let context : Context := { store := { value := .inFile { path := "/a", inode := 1 } } }
    let events : List SupervisorEvent :=
      [.started (.ok ()), .accepted (.ok ()) (.ok ()) true,
        .accepted (.ok ()) (.error SystemFailure.wouldBlock.toIoFailure) true,
        .accepted (.ok ()) (.ok ()) false, .accepted (.ok ()) (.ok ()) true,
        .workerEnded 1 .broken, .reaped, .raised, .stopped,
        .workerEnded 3 (.ended { id := 3, packets := 0, exit := .aborted }),
        .stamperEnded (.returned 0), .workersJoined, .stamperJoined]
    ∃ last report,
      run? { supervisor := { context := context, stamped := true } } events = some last ∧
      last.supervisor.phase = .closing report ∧
      last.spawned = [.stamper, .worker 1, .worker 3] ∧ last.Alone := by
  intro context events
  obtain ⟨last, report, hRun, hPhase, hSpawned⟩ : ∃ last report,
      run? { supervisor := { context := context, stamped := true } } events = some last ∧
      last.supervisor.phase = .closing report ∧
      last.spawned = [.stamper, .worker 1, .worker 3] := ⟨_, _, rfl, rfl, rfl⟩
  obtain ⟨-, hClosing, -⟩ := alone_at_close rfl hRun
  exact ⟨last, report, hRun, hPhase, hSpawned, hClosing report hPhase⟩

/-- **A service that returns has closed its store, unless its appender has broken off.**  The store
is closed only once all threads have ended.  It is closed once, and if that has succeeded a file has
lost its name; but a service whose appender broke off reports that, and has not closed the store at
all. -/
theorem closed_unless_stamper_broken (hFresh : context.workers = {})
    (hRun : run? { supervisor := { context := context, stamped := stamped } } events = some last) :
    (last.supervisor.context.faults.closes ≠ context.faults.closes →
      last.ended.Perm last.spawned ∧ ∀ thread, last.supervisor.isRunning thread = false) ∧
    ∀ result, last.supervisor.phase = .returned result →
      last.ended.Perm last.spawned ∧
      (last.supervisor.stamper = .broken →
        last.supervisor.context.faults.closes = context.faults.closes ∧
        result = .error Supervisor.stamperBroken) ∧
      (last.supervisor.stamper ≠ .broken →
        last.supervisor.context.faults.closes = context.faults.closes + 1 ∧
        ∀ report file, result = .ok report →
          last.supervisor.context.store.value = .inFile file →
          last.supervisor.context.files.hasPath file.path = false) := by
  obtain ⟨hAccounted, hFate⟩ := accounted_of_service hFresh hRun
  refine ⟨fun hClosed => ?_, fun result hPhase => ?_⟩
  · have hIdle : last.supervisor.phase.isIdle = true := by
      cases hPhase : last.supervisor.phase with
      | returned result => rfl
      | starting | closing report => rfl
      | accepting | joiningWorkers | joiningStamper workers =>
        rw [hPhase] at hFate
        exact absurd hFate hClosed
    exact ⟨hAccounted.ended_perm hIdle, hAccounted.idle hIdle⟩
  · rw [hPhase] at hFate
    refine ⟨hAccounted.ended_perm (by rw [hPhase]; rfl), ?_⟩
    cases hFate with
    | closed hWhole hCloses hResult hGone =>
      exact ⟨fun hBroken => absurd hBroken hWhole, fun _ => ⟨hCloses, hGone⟩⟩
    | abandoned hBroken hCloses =>
      exact ⟨fun _ => ⟨hCloses, rfl⟩, fun hWhole => absurd hBroken hWhole⟩

/-- A worker breaks off after its commit; the file is deleted all the same. -/
theorem closed_unless_stamper_broken_of_worker :
    let context : Context :=
      { store := { value := .inFile { path := "/a", inode := 1 } }
        files := { nodes := [.directory 0 [("a", 1)], .file []], locked := [1] } }
    let events : List SupervisorEvent :=
      [.started (.ok ()), .accepted (.ok ()) (.ok ()) true,
        .committed (.worker 1) .interruptible [⟨true, false⟩] [97, 10] [.accepted 2],
        .workerEnded 1 .broken, .raised, .stopped, .workersJoined, .stamperEnded (.returned 0),
        .stamperJoined, .closed]
    Store.create {} (.file "/a") = (.ok context.store.value, context.files) ∧
    ∃ last report,
      run? { supervisor := { context := context, stamped := true } } events = some last ∧
      last.supervisor.phase = .returned (.ok report) ∧ last.ended.Perm last.spawned ∧
      last.supervisor.context.faults.closes = 1 ∧
      last.supervisor.context.files.hasPath "/a" = false := by
  intro context events
  have hCreate : Store.create {} (.file "/a") = (.ok context.store.value, context.files) := by cbv
  obtain ⟨last, report, hRun, hPhase, hWhole, hFile⟩ : ∃ last report,
      run? { supervisor := { context := context, stamped := true } } events = some last ∧
      last.supervisor.phase = .returned (.ok report) ∧ last.supervisor.stamper ≠ .broken ∧
      last.supervisor.context.store.value =
        .inFile { path := "/a", inode := 1, length := 2, position := 2 } :=
    ⟨_, _, by cbv, rfl, by decide, rfl⟩
  obtain ⟨-, hReturned⟩ := closed_unless_stamper_broken rfl hRun
  obtain ⟨hEnded, -, hClosed⟩ := hReturned _ hPhase
  obtain ⟨hCloses, hGone⟩ := hClosed hWhole
  exact ⟨hCreate, last, report, hRun, hPhase, hEnded, hCloses, hGone report _ rfl hFile⟩

/-- An appender whose first record makes the store break it off takes the close of the store with
it: the service returns, and the file keeps its name. -/
theorem left_behind_of_broken_stamper :
    ∃ (context : Context) (events : List SupervisorEvent) (last : Muster),
      Store.create {} (.file "/a") = (.ok context.store.value, context.files) ∧
      context.workers = {} ∧
      run? { supervisor := { context := context, stamped := true } } events = some last ∧
      last.supervisor.phase = .returned (.error Supervisor.stamperBroken) ∧
      last.supervisor.context.faults.closes = context.faults.closes ∧
      last.supervisor.context.files.hasPath "/a" = true := by
  let context : Context :=
    { store := { value := .inFile { path := "/a", inode := 1 } }
      files := { nodes := [.directory 0 [("a", 1)], .file []], locked := [1] }
      faults := { plan := [⟨.append, 1, .crash⟩] } }
  let events : List SupervisorEvent :=
    [.started (.ok ()), .committed .stamper .interruptible [⟨true, false⟩] [116, 10] [.accepted 2],
      .stamperEnded .broken, .raised, .stopped, .workersJoined, .stamperJoined]
  exact ⟨context, events, _, by cbv, rfl, rfl, rfl, rfl, by cbv⟩

end Service

end Muster

end PacketLog
