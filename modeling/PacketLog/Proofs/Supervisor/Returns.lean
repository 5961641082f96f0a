import PacketLog.Program
import PacketLog.Proofs.Supervisor.Places
import PacketLog.Proofs.Supervisor.Shutdown

/-!
# What a service returns

What a supervisor returns, and with it the exit code of the program, follows from how its appender
has ended (`Supervisor.Returns`).  If the appender has stopped, the store is closed and its file
deleted; if it has broken off, the file stays behind.  `Muster.Accounted.inOrder` says that every
step keeps to this, provided that nothing is planned to go wrong and that the file could be deleted
at the start; and that is so after the setting up (`Program.removable_of_prepare`).
-/

namespace PacketLog

/-! ## How a supervisor returns -/

namespace Supervisor

/-- The exit code of the program once its service has returned. -/
def exitCode? (supervisor : Supervisor) : Option Nat :=
  match supervisor.phase with
  | .returned (.ok _) => some (Program.exitCode (.ok ()))
  | .returned (.error error) => some (Program.exitCode (.error error))
  | _ => none

/-- How a service that was set up as `origin` has returned. -/
inductive Returns (origin : Context) (supervisor : Supervisor) : Outcome ShutdownReport → Prop
  | notSpawned {result : Outcome ShutdownReport} (hAbsent : supervisor.stamper = .absent) :
      Returns origin supervisor result
  /-- The appender has stopped, its count is reported, and the store's file is deleted. -/
  | closed {report : ShutdownReport} (hStamper : supervisor.stamper = .returned report.stamps)
      (hGone : ∀ path, origin.store.value.path? = some path →
        supervisor.context.files.hasPath path = false) :
      Returns origin supervisor (.ok report)
  /-- The appender has broken off, and the store's file is still there. -/
  | abandoned (hBroken : supervisor.stamper = .broken)
      (hLeft : ∀ path, origin.store.value.path? = some path →
        supervisor.context.files.hasPath path = true) :
      Returns origin supervisor (.error stamperBroken)

/-- What the supervisor knows of its appender and its store in each phase. -/
def InOrder (origin : Context) (supervisor : Supervisor) : SupervisorPhase → Prop
  | .starting => supervisor.stamper = .absent ∧ origin.SamePlace supervisor.context
  | .closing report =>
    supervisor.stamper = .returned report.stamps ∧ origin.SamePlace supervisor.context
  | .returned result => supervisor.Returns origin result
  | _ => supervisor.stamper ≠ .absent ∧ origin.SamePlace supervisor.context

variable {origin : Context} {supervisor next : Supervisor} {event : SupervisorEvent}

theorem InOrder.keep {phase : SupervisorPhase} (hOrder : supervisor.InOrder origin phase)
    (hServing : ∀ result, phase ≠ .returned result) (hStamper : next.stamper = supervisor.stamper)
    (hSame : supervisor.context.SamePlace next.context) : next.InOrder origin phase := by
  cases phase with
  | starting | closing report => exact ⟨hStamper.trans hOrder.1, hOrder.2.trans hSame⟩
  | accepting | joiningWorkers | joiningStamper workers =>
    exact ⟨fun hAbsent => hOrder.1 (hStamper ▸ hAbsent), hOrder.2.trans hSame⟩
  | returned result => exact absurd rfl (hServing result)

/-- While threads run, the appender has been spawned. -/
theorem InOrder.busy {phase : SupervisorPhase} (hOrder : supervisor.InOrder origin phase)
    (hBusy : phase.isIdle = false) :
    supervisor.stamper ≠ .absent ∧ origin.SamePlace supervisor.context := by
  cases phase with
  | starting | closing report | returned result => cases hBusy
  | accepting | joiningWorkers | joiningStamper workers => exact hOrder

theorem inOrder_of_busy {phase : SupervisorPhase} (hBusy : phase.isIdle = false)
    (hStamper : supervisor.stamper ≠ .absent) (hSame : origin.SamePlace supervisor.context) :
    supervisor.InOrder origin phase := by
  cases phase with
  | starting | closing report | returned result => cases hBusy
  | accepting | joiningWorkers | joiningStamper workers => exact ⟨hStamper, hSame⟩

theorem step?_stamperEnded (supervisor : Supervisor) (thread : StamperThread) :
    supervisor.step? (.stamperEnded thread) =
      if supervisor.isRunning .stamper ∧ thread ≠ .running ∧ thread ≠ .absent then
        some { supervisor.letGo with stamper := thread }
      else none := by
  unfold step?
  cases supervisor.phase <;> rfl

/-- What is reported of an appender that is joined is what it returned. -/
theorem of_stamperJoined (hStep : supervisor.step? .stamperJoined = some next)
    (hStamper : supervisor.stamper ≠ .absent) (hWhole : supervisor.stamper ≠ .broken) :
    ∃ report, supervisor.stamper = .returned report.stamps ∧
      next = { supervisor with phase := .closing report } := by
  unfold step? at hStep
  cases hPhase : supervisor.phase <;> rw [hPhase] at hStep
  case joiningStamper workers =>
    cases hThread : supervisor.stamper with
    | absent => exact absurd hThread hStamper
    | broken => exact absurd hThread hWhole
    | running =>
      dsimp only at hStep
      rw [hThread] at hStep
      cases hStep
    | returned stamps =>
      dsimp only at hStep
      rw [hThread] at hStep
      obtain rfl := Option.some.inj hStep
      exact ⟨⟨workers, stamps⟩, rfl, rfl⟩
  all_goals cases hStep

end Supervisor

namespace SupervisorPhase

theorem ne_returned_of_busy {phase : SupervisorPhase} (hBusy : phase.isIdle = false)
    (result : Outcome ShutdownReport) : phase ≠ .returned result := by
  rintro rfl
  cases hBusy

end SupervisorPhase

section InOrder

variable {origin : Context} {muster : Muster} {event : SupervisorEvent} {next : Supervisor}

theorem Supervisor.InOrder.raise {supervisor : Supervisor} {phase : SupervisorPhase}
    (hOrder : supervisor.InOrder origin phase) :
    Supervisor.InOrder origin { supervisor with context := supervisor.context.raise } phase := by
  have hSame : supervisor.context.SamePlace supervisor.context.raise :=
    Context.samePlace_of_eq rfl rfl rfl fun _ => rfl
  cases phase with
  | starting | closing report | accepting | joiningWorkers | joiningStamper workers =>
    exact ⟨hOrder.1, hOrder.2.trans hSame⟩
  | returned result =>
    cases hOrder with
    | notSpawned hAbsent => exact .notSpawned hAbsent
    | closed hStamper hGone => exact .closed hStamper hGone
    | abandoned hBroken hLeft => exact .abandoned hBroken hLeft

/-- Its file can be deleted to the end, and it is. -/
theorem Muster.Accounted.inOrder (hAccounted : muster.Accounted) (hUnplanned : origin.Unplanned)
    (hRemovable : ∀ path, origin.store.value.path? = some path → origin.files.Removable path)
    (hStamped : muster.supervisor.stamped = true)
    (hOrder : muster.supervisor.InOrder origin muster.supervisor.phase)
    (hStep : muster.supervisor.step? event = some next) : next.InOrder origin next.phase := by
  have hHolders := hAccounted.holders_eq
  have hKeep (hPhase : next.phase = muster.supervisor.phase)
      (hServing : ∀ result, muster.supervisor.phase ≠ .returned result)
      (hStamper : next.stamper = muster.supervisor.stamper) : next.InOrder origin next.phase := by
    have hSame := Supervisor.samePlace_of_step hStep (by rwa [hPhase])
    rw [hPhase]
    exact hOrder.keep hServing hStamper hSame
  cases Supervisor.transition_of_step? hStep with
  | begun hPhase hNone => cases hNone.symm.trans hStamped
  | stamperSpawned hPhase =>
    rw [hPhase] at hOrder
    exact ⟨nofun, hOrder.2⟩
  | stamperNotSpawned hPhase _ hClose =>
    rw [hPhase] at hOrder
    obtain ⟨hStamper, -⟩ := Supervisor.of_closeStore hClose
    exact .notSpawned (hStamper.trans hOrder.1)
  | dropped hPhase | workerSpawned hPhase | reaped hPhase =>
    exact hKeep rfl (by rw [hPhase]; exact nofun) rfl
  | raised => exact hOrder.raise
  | called _ hRunning | workerEnded hRunning =>
    exact hKeep rfl (SupervisorPhase.ne_returned_of_busy (hAccounted.busy hRunning)) rfl
  | stamperEnded hRunning =>
    rw [Supervisor.step?_stamperEnded] at hStep
    obtain ⟨⟨-, -, hThread⟩, -⟩ := Option.ite_none_right_eq_some.mp hStep
    have hBusy := hAccounted.busy hRunning
    exact Supervisor.inOrder_of_busy hBusy hThread (hOrder.busy hBusy).2
  | stopped hPhase =>
    rw [hPhase] at hOrder
    exact hOrder
  | workersJoined hPhase =>
    rw [hPhase] at hOrder
    exact ⟨hOrder.1, hOrder.2.trans (Context.samePlace_of_eq rfl rfl rfl id)⟩
  | stamperJoined hPhase _ hWhole =>
    rw [hPhase] at hOrder
    obtain ⟨report, hReturned, hNext⟩ := Supervisor.of_stamperJoined hStep hOrder.1 hWhole
    rw [hNext]
    exact ⟨hReturned, hOrder.2⟩
  | abandoned hPhase hBroken =>
    have hSettled := hAccounted.settled
    rw [hPhase] at hHolders hSettled hOrder
    rw [Supervisor.running_eq_nil hSettled (by rw [hBroken]; nofun)] at hHolders
    rw [Supervisor.abandon_of_holders hHolders]
    have hSame := hOrder.2.trans muster.supervisor.context.samePlace_drop
    refine .abandoned hBroken fun path hPath => ?_
    exact (hSame.removable hRemovable (hSame.path?_eq.trans hPath)).hasPath_eq
  | @closed report outcome after hPhase hClose =>
    rw [hPhase, hAccounted.running_eq_nil (by rw [hPhase]; rfl)] at hHolders
    rw [hPhase] at hOrder
    obtain ⟨hStamper, hSame⟩ := hOrder
    obtain ⟨hOk, hGone⟩ := Context.close_of_removable (hSame.unplanned hUnplanned)
      fun path => hSame.removable hRemovable
    rw [Supervisor.closeStore_of_holders hHolders, hOk] at hClose
    obtain ⟨rfl, rfl⟩ := Prod.mk.inj hClose
    exact .closed hStamper fun path hPath => hGone path (hSame.path?_eq.trans hPath)

end InOrder

/-! ## Shutting down -/

/-- How many steps the supervisor has before it. -/
def SupervisorPhase.stepsLeft : SupervisorPhase → Nat
  | .starting => 4
  | .accepting => 4
  | .joiningWorkers => 3
  | .joiningStamper _ => 2
  | .closing _ => 1
  | .returned _ => 0

/-- The event is a step of the supervisor on the way to its end. -/
def SupervisorEvent.isShutdown : SupervisorEvent → Bool
  | .stopped => true
  | .workersJoined => true
  | .stamperJoined => true
  | .closed => true
  | _ => false

theorem Registry.isSome_joinAll? {registry : Registry} (hNone : registry.running = []) :
    registry.joinAll?.isSome = true := by
  rw [running, List.map_eq_nil_iff, List.filter_eq_nil_iff] at hNone
  refine registry.isSome_joinAll?_iff.mpr fun handle hMem hRuns => hNone handle hMem ?_
  simp [WorkerHandle.isFinished, hRuns]

namespace Supervisor

variable {origin : Context} {supervisor next : Supervisor} {event : SupervisorEvent}

theorem stepsLeft_of_step (hStep : supervisor.step? event = some next) :
    next.phase.stepsLeft + (if event.isShutdown then 1 else 0) ≤ supervisor.phase.stepsLeft := by
  cases transition_of_step? hStep with
  | begun hPhase | stamperSpawned hPhase | stopped hPhase | workersJoined hPhase
  | stamperJoined hPhase | closed hPhase =>
    rw [hPhase]
    exact Nat.le_refl _
  | stamperNotSpawned => exact Nat.zero_le _
  | abandoned hPhase =>
    rw [hPhase]
    exact Nat.le_succ 1
  | called hCaller =>
    cases event with
    | committed | snapshotted => exact Nat.le_refl _
    | _ => cases hCaller
  | dropped | workerSpawned | reaped | raised | workerEnded | stamperEnded => exact Nat.le_refl _

/-- When the signal is raised and all threads have ended, nothing keeps the supervisor from its
end. -/
theorem exists_shutdown_step (hOrder : supervisor.InOrder origin supervisor.phase)
    (hAborted : supervisor.context.aborted = true) (hSpawned : supervisor.stamper ≠ .absent)
    (hEnded : supervisor.stamper ≠ .running) (hNone : supervisor.context.workers.running = [])
    (hServing : ∀ result, supervisor.phase ≠ .returned result) :
    ∃ event next, event.isShutdown = true ∧ supervisor.step? event = some next := by
  cases hPhase : supervisor.phase with
  | starting =>
    rw [hPhase] at hOrder
    exact absurd hOrder.1 hSpawned
  | accepting =>
    refine ⟨.stopped, { supervisor with phase := .joiningWorkers }, rfl, ?_⟩
    unfold step?
    rw [hPhase]
    exact if_pos hAborted
  | joiningWorkers =>
    obtain ⟨next, hStep⟩ : ∃ next, supervisor.step? .workersJoined = some next := by
      unfold step?
      rw [hPhase]
      dsimp only
      obtain ⟨answer, hJoin⟩ := Option.isSome_iff_exists.mp (Registry.isSome_joinAll? hNone)
      rw [hJoin]
      exact ⟨_, rfl⟩
    exact ⟨.workersJoined, next, rfl, hStep⟩
  | joiningStamper workers =>
    obtain ⟨next, hStep⟩ : ∃ next, supervisor.step? .stamperJoined = some next := by
      unfold step?
      rw [hPhase]
      dsimp only
      cases hStamper : supervisor.stamper with
      | running => exact absurd hStamper hEnded
      | absent | returned stamps | broken => exact ⟨_, rfl⟩
    exact ⟨.stamperJoined, next, rfl, hStep⟩
  | closing report =>
    refine ⟨.closed, supervisor.onClosed report, rfl, ?_⟩
    unfold step?
    rw [hPhase]
  | returned result => exact absurd hPhase (hServing result)

end Supervisor

/-! ## Setting up -/

namespace Program

variable {files after : FileSystem} {network : Network} {options : Options} {context : Context}

theorem sound_of_prepareLog (hFiles : files.WellFormed) (hLegible : files.Legible)
    {path? : Option String} {answer : Except Error Unit}
    (hLog : prepareLog files path? = (answer, after)) : after.WellFormed ∧ after.Legible := by
  cases path? with
  | none =>
    obtain ⟨-, rfl⟩ := Prod.mk.inj hLog
    exact ⟨hFiles, hLegible⟩
  | some path =>
    rw [prepareLog, openLog] at hLog
    cases hOpen : FileSystem.guarded [path] (files.openOrCreate path) with
    | ok opened =>
      rw [hOpen] at hLog
      obtain ⟨-, rfl⟩ := Prod.mk.inj hLog
      have hOpened := FileSystem.ok_of_guarded hOpen
      exact ⟨(FileSystem.renames_of_openOrCreate hFiles hOpened).wellFormed,
        FileSystem.legible_of_openOrCreate hFiles hLegible hOpened⟩
    | error failure =>
      rw [hOpen] at hLog
      obtain ⟨-, rfl⟩ := Prod.mk.inj hLog
      exact ⟨hFiles, hLegible⟩

theorem exists_of_prepare (hPrepare : prepare files network options = (.ok context, after)) :
    ∃ opened store, prepareLog files options.logFile = (.ok (), opened) ∧
      Store.create opened options.storeChoice = (.ok store, after) ∧
      context = { store := { value := store }, files := after } := by
  rw [prepare] at hPrepare
  split at hPrepare
  · cases hPrepare
  · next opened hLog =>
    split at hPrepare
    · cases hPrepare
    · next store created hCreate =>
      split at hPrepare
      · cases hPrepare
      · obtain ⟨hContext, rfl⟩ := Prod.mk.inj hPrepare
        exact ⟨opened, store, hLog, hCreate, (Except.ok.inj hContext).symm⟩

/-- The file of a store that has been created can be deleted. -/
theorem removable_of_prepare (hFiles : files.WellFormed) (hLegible : files.Legible)
    (hPrepare : prepare files network options = (.ok context, after)) (path : String)
    (hPath : context.store.value.path? = some path) : context.files.Removable path := by
  obtain ⟨opened, store, hLog, hCreate, rfl⟩ := exists_of_prepare hPrepare
  obtain ⟨hOpened, hOpenedLegible⟩ := sound_of_prepareLog hFiles hLegible hLog
  cases hChoice : options.storeChoice with
  | ring capacity =>
    rw [hChoice, Store.create] at hCreate
    obtain ⟨hRing, -⟩ := Prod.mk.inj hCreate
    cases hMade : Ring.create? capacity with
    | ok ring =>
      rw [hMade] at hRing
      obtain rfl := Except.ok.inj hRing
      cases hPath
    | error error =>
      rw [hMade] at hRing
      cases hRing
  | file named =>
    rw [hChoice, Store.create] at hCreate
    rcases hFile : FileStore.create opened named with ⟨created, last⟩
    rw [hFile] at hCreate
    obtain ⟨hStore, rfl⟩ := Prod.mk.inj hCreate
    cases created with
    | ok file =>
      obtain rfl := Except.ok.inj hStore
      obtain rfl := Option.some.inj hPath
      exact FileStore.removable_of_create hOpened hOpenedLegible hFile
    | error error => cases hStore

end Program

end PacketLog
