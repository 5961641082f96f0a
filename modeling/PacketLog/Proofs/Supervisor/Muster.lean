import PacketLog.Proofs.Supervisor.Steps

/-!
# Who still runs when the store is closed

A muster is a supervisor with two lists beside it: the threads that were spawned, and
those that have ended.  `Accounted` says how the books balance.  Every spawned thread
either has ended, once, or runs; and the context is held by the supervisor, until it
returns, and by every thread that runs.  Each phase adds what the supervisor has seen
to the end by then.

So when the store is to be closed nobody else is left to hold the context
(`Accounted.alone`), and nobody is left to call the store after that.
-/

namespace PacketLog

/-! ## Those who run -/

namespace Registry

/-- The workers whose threads have not ended. -/
def running (registry : Registry) : List Nat :=
  (registry.handles.filter fun handle => !handle.isFinished).map WorkerHandle.id

theorem running_register (registry : Registry) :
    (registry.register (.ok .running)).2.running = registry.running ++ [registry.lastId + 1] := by
  show ((registry.handles ++ [_]).filter _).map _ = _
  rw [List.filter_append, List.map_append]
  rfl

theorem running_reap (registry : Registry) : registry.reap.2.running = registry.running := by
  show ((registry.handles.filter _).filter _).map _ = _
  rw [List.filter_filter, running]
  simp only [Bool.and_self]

theorem running_setThread (registry : Registry) {id : Nat} {thread : ThreadState}
    (hEnded : thread ≠ .running) :
    (registry.setThread id thread).running = registry.running.filter (· != id) := by
  obtain ⟨lastId, handles⟩ := registry
  rw [setThread, running, running]
  dsimp only
  induction handles with
  | nil => rfl
  | cons handle later ih =>
    rw [List.map_cons]
    by_cases hId : handle.id = id
    · have hFinished : WorkerHandle.isFinished { handle with thread := thread } = true := by
        rw [WorkerHandle.isFinished, decide_eq_true_iff]
        exact hEnded
      rw [if_pos hId, List.filter_cons_of_neg (by rw [hFinished]; decide), ih]
      by_cases hRuns : handle.isFinished = true
      · rw [List.filter_cons_of_neg (by rw [hRuns]; decide)]
      · rw [List.filter_cons_of_pos (by rw [Bool.eq_false_iff.mpr hRuns]; rfl), List.map_cons,
          List.filter_cons_of_neg (by simp [hId])]
    · rw [if_neg hId]
      by_cases hRuns : handle.isFinished = true
      · rw [List.filter_cons_of_neg (by rw [hRuns]; decide),
          List.filter_cons_of_neg (by rw [hRuns]; decide), ih]
      · rw [List.filter_cons_of_pos (by rw [Bool.eq_false_iff.mpr hRuns]; rfl),
          List.filter_cons_of_pos (by rw [Bool.eq_false_iff.mpr hRuns]; rfl), List.map_cons,
          List.map_cons, List.filter_cons_of_pos (by simp [hId]), ih]

theorem running_eq_nil {registry : Registry}
    (hEnded : registry.handles.all WorkerHandle.isFinished = true) : registry.running = [] := by
  rw [running, List.map_eq_nil_iff, List.filter_eq_nil_iff]
  intro handle hMem
  rw [List.all_eq_true.mp hEnded handle hMem]
  decide

end Registry

namespace Supervisor

/-- The threads that have been spawned and have not ended. -/
def running (supervisor : Supervisor) : List ServiceThread :=
  supervisor.context.workers.running.map .worker ++
    (if supervisor.stamper = .running then [.stamper] else [])

theorem running_congr {supervisor other : Supervisor}
    (hWorkers : other.context.workers.running = supervisor.context.workers.running)
    (hStamper : other.stamper = supervisor.stamper) : other.running = supervisor.running := by
  rw [running, running, hWorkers, hStamper]

theorem running_withWorkers (supervisor : Supervisor) (workers : Registry) :
    (supervisor.withWorkers workers).running = workers.running.map .worker ++
      (if supervisor.stamper = .running then [.stamper] else []) := rfl

theorem worker_mem_running {supervisor : Supervisor} {id : Nat} :
    .worker id ∈ supervisor.running ↔ id ∈ supervisor.context.workers.running := by
  rw [running, List.mem_append]
  constructor
  · rintro (hWorker | hStamper)
    · obtain ⟨other, hMem, hId⟩ := List.mem_map.mp hWorker
      exact ServiceThread.worker.inj hId ▸ hMem
    · split at hStamper
      · cases List.mem_singleton.mp hStamper
      · cases hStamper
  · exact fun hMem => Or.inl (List.mem_map_of_mem hMem)

theorem stamper_mem_running {supervisor : Supervisor} :
    .stamper ∈ supervisor.running ↔ supervisor.stamper = .running := by
  rw [running, List.mem_append]
  constructor
  · rintro (hWorker | hStamper)
    · obtain ⟨id, -, hId⟩ := List.mem_map.mp hWorker
      cases hId
    · split at hStamper
      · assumption
      · cases hStamper
  · intro hStamper
    rw [if_pos hStamper]
    exact Or.inr List.mem_cons_self

theorem isRunning_iff {supervisor : Supervisor} {thread : ServiceThread} :
    supervisor.isRunning thread = true ↔ thread ∈ supervisor.running := by
  cases thread with
  | worker id =>
    rw [worker_mem_running, Registry.running, isRunning, List.any_eq_true, List.mem_map]
    refine exists_congr fun handle => ?_
    rw [List.mem_filter, WorkerHandle.isFinished]
    simp only [Bool.and_eq_true, decide_eq_true_eq, Bool.not_eq_true', decide_eq_false_iff_not,
      ne_eq, Decidable.not_not]
    rw [and_right_comm, and_assoc]
  | stamper => rw [stamper_mem_running, isRunning, decide_eq_true_iff]

theorem running_eq_nil {supervisor : Supervisor}
    (hWorkers : supervisor.context.workers.running = [])
    (hStamper : supervisor.stamper ≠ .running) : supervisor.running = [] := by
  rw [running, hWorkers, if_neg hStamper]
  rfl

def spawnedBy (supervisor : Supervisor) : SupervisorEvent → List ServiceThread
  | .started (.ok ()) => if supervisor.stamped then [.stamper] else []
  | .accepted (.ok ()) (.ok ()) true => [.worker (supervisor.context.workers.lastId + 1)]
  | _ => []

def endedBy : SupervisorEvent → List ServiceThread
  | .workerEnded id _ => [.worker id]
  | .stamperEnded _ => [.stamper]
  | _ => []

theorem spawnedBy_eq_nil_of_dropped {configured spawned : Except IoFailure Unit} {room : Bool}
    (hFailed : (configured, spawned, room) ≠ (.ok (), .ok (), true)) (supervisor : Supervisor) :
    supervisor.spawnedBy (.accepted configured spawned room) = [] := by
  rcases configured with failure | _
  · rfl
  · rcases spawned with failure | _
    · rfl
    · cases room with
      | false => rfl
      | true => exact absurd rfl hFailed

theorem eq_nil_of_callerOf? {event : SupervisorEvent} {thread : ServiceThread}
    (hCaller : callerOf? event = some thread) (supervisor : Supervisor) :
    supervisor.spawnedBy event = [] ∧ endedBy event = [] := by
  cases event with
  | committed => exact ⟨rfl, rfl⟩
  | snapshotted => exact ⟨rfl, rfl⟩
  | _ => cases hCaller

/-- The last holder closes the store. -/
theorem closeStore_of_holders {supervisor : Supervisor} (hHolders : supervisor.holders = 1) :
    supervisor.closeStore =
      (supervisor.context.close.1,
        { supervisor.letGo with context := supervisor.context.close.2 }) :=
  if_pos hHolders

theorem abandon_of_holders {supervisor : Supervisor} (hHolders : supervisor.holders = 1)
    (result : Outcome ShutdownReport) :
    supervisor.abandon result =
      { supervisor.letGo with
        context := { supervisor.context with
          files := supervisor.context.store.value.drop supervisor.context.files }
        phase := .returned result } := by
  rw [abandon, if_pos hHolders]

end Supervisor

/-- The phases in which no thread runs but the supervisor's: at the start, and from the closing of
the store on. -/
def SupervisorPhase.isIdle : SupervisorPhase → Bool
  | .starting => true
  | .closing _ => true
  | .returned _ => true
  | _ => false

/-- The phases from the closing of the store on. -/
def SupervisorPhase.isLate : SupervisorPhase → Bool
  | .closing _ => true
  | .returned _ => true
  | _ => false

theorem SupervisorPhase.isIdle_of_isLate {phase : SupervisorPhase} (hLate : phase.isLate = true) :
    phase.isIdle = true := by
  cases phase with
  | closing report => rfl
  | returned result => rfl
  | starting | accepting | joiningWorkers | joiningStamper workers => cases hLate

/-- A supervisor, the threads that were spawned, and those that have ended. -/
structure Muster where
  supervisor : Supervisor
  spawned : List ServiceThread := []
  ended : List ServiceThread := []
deriving DecidableEq

namespace Muster

/-- The supervisor goes on to `next` through an event, which is entered in the lists. -/
def after (muster : Muster) (event : SupervisorEvent) (next : Supervisor) : Muster where
  supervisor := next
  spawned := muster.spawned ++ muster.supervisor.spawnedBy event
  ended := muster.ended ++ Supervisor.endedBy event

def step? (muster : Muster) (event : SupervisorEvent) : Option Muster :=
  (muster.supervisor.step? event).map (muster.after event)

def run? (muster : Muster) : List SupervisorEvent → Option Muster
  | [] => some muster
  | event :: later => (muster.step? event).bind fun next => next.run? later

/-! ## The books -/

/-- The holds on the context that are the supervisor's own. -/
def ownHolds : SupervisorPhase → Nat
  | .returned _ => 0
  | _ => 1

/-- What the supervisor has seen to the end by the time it is in a phase. -/
def Settled (muster : Muster) : SupervisorPhase → Prop
  | .starting => muster.spawned = []
  | .accepting => True
  | .joiningWorkers => True
  | .joiningStamper _ => muster.supervisor.context.workers.running = []
  | .closing _ => muster.supervisor.running = []
  | .returned _ => muster.supervisor.running = []

/-- The books balance. -/
structure Accounted (muster : Muster) : Prop where
  nodup : muster.spawned.Nodup
  known : ∀ id, .worker id ∈ muster.spawned → id ≤ muster.supervisor.context.workers.lastId
  perm : (muster.ended ++ muster.supervisor.running).Perm muster.spawned
  holders_eq : muster.supervisor.holders =
    ownHolds muster.supervisor.phase + muster.supervisor.running.length
  settled : muster.Settled muster.supervisor.phase

/-- Of all who were spawned the supervisor is the last, and it alone holds the context. -/
structure Alone (muster : Muster) : Prop where
  holders_eq : muster.supervisor.holders = 1
  ended_perm : muster.ended.Perm muster.spawned
  idle : ∀ thread, muster.supervisor.isRunning thread = false

variable {muster : Muster}

/-- What has been seen to its end stays so while nobody comes. -/
theorem Settled.mono {phase : SupervisorPhase} (hSettled : muster.Settled phase)
    {supervisor : Supervisor}
    (hRunning : ∀ thread ∈ supervisor.running, thread ∈ muster.supervisor.running) :
    { muster with supervisor := supervisor }.Settled phase := by
  have hNone (hBefore : muster.supervisor.running = []) : supervisor.running = [] :=
    List.eq_nil_iff_forall_not_mem.mpr fun thread hMem => by
      have hRan := hRunning thread hMem
      rw [hBefore] at hRan
      cases hRan
  cases phase with
  | starting => exact hSettled
  | accepting => trivial
  | joiningWorkers => trivial
  | joiningStamper workers =>
    refine List.eq_nil_iff_forall_not_mem.mpr fun id hMem => ?_
    have hRan := Supervisor.worker_mem_running.mp
      (hRunning _ (Supervisor.worker_mem_running.mpr hMem))
    rw [hSettled] at hRan
    cases hRan
  | closing report => exact hNone hSettled
  | returned result => exact hNone hSettled

/-- Nobody runs before the supervisor has started, nor once it is about to close the store. -/
theorem Accounted.running_eq_nil (hAccounted : muster.Accounted)
    (hIdle : muster.supervisor.phase.isIdle = true) : muster.supervisor.running = [] := by
  have hSettled := hAccounted.settled
  cases hPhase : muster.supervisor.phase <;> rw [hPhase] at hSettled hIdle
  case starting =>
    have hPerm := hAccounted.perm
    rw [show muster.spawned = [] from hSettled] at hPerm
    exact (List.append_eq_nil_iff.mp hPerm.eq_nil).2
  case closing report => exact hSettled
  case returned result => exact hSettled
  all_goals cases hIdle

theorem Accounted.ended_perm (hAccounted : muster.Accounted)
    (hIdle : muster.supervisor.phase.isIdle = true) : muster.ended.Perm muster.spawned := by
  have hPerm := hAccounted.perm
  rwa [hAccounted.running_eq_nil hIdle, List.append_nil] at hPerm

theorem Accounted.idle (hAccounted : muster.Accounted)
    (hIdle : muster.supervisor.phase.isIdle = true) (thread : ServiceThread) :
    muster.supervisor.isRunning thread = false := by
  refine Bool.eq_false_iff.mpr fun hRunning => ?_
  have hMem := Supervisor.isRunning_iff.mp hRunning
  rw [hAccounted.running_eq_nil hIdle] at hMem
  cases hMem

theorem Accounted.busy (hAccounted : muster.Accounted) {thread : ServiceThread}
    (hRunning : muster.supervisor.isRunning thread = true) :
    muster.supervisor.phase.isIdle = false :=
  Bool.eq_false_iff.mpr fun hIdle => by
    rw [hAccounted.idle hIdle thread] at hRunning
    cases hRunning

/-- Whoever is about to close the store is alone. -/
theorem Accounted.alone (hAccounted : muster.Accounted)
    (hIdle : muster.supervisor.phase.isIdle = true)
    (hOwn : ownHolds muster.supervisor.phase = 1) : muster.Alone where
  holders_eq := by rw [hAccounted.holders_eq, hOwn, hAccounted.running_eq_nil hIdle]; rfl
  ended_perm := hAccounted.ended_perm hIdle
  idle := hAccounted.idle hIdle

theorem Accounted.keep (hAccounted : muster.Accounted) {event : SupervisorEvent}
    {supervisor : Supervisor} (hSpawned : muster.supervisor.spawnedBy event = [])
    (hEnded : Supervisor.endedBy event = [])
    (hRunning : supervisor.running = muster.supervisor.running)
    (hId : muster.supervisor.context.workers.lastId ≤ supervisor.context.workers.lastId)
    (hHolders : supervisor.holders = ownHolds supervisor.phase + muster.supervisor.running.length)
    (hSettled : { muster with supervisor := supervisor }.Settled supervisor.phase) :
    (muster.after event supervisor).Accounted := by
  rw [after, hSpawned, hEnded, List.append_nil, List.append_nil]
  exact
    { nodup := hAccounted.nodup
      known := fun id hMem => Nat.le_trans (hAccounted.known id hMem) hId
      perm := by
        rw [hRunning]
        exact hAccounted.perm
      holders_eq := by rw [hHolders, hRunning]
      settled := hSettled }

theorem Accounted.spawn (hAccounted : muster.Accounted) {event : SupervisorEvent}
    {supervisor : Supervisor} {thread : ServiceThread}
    (hSpawned : muster.supervisor.spawnedBy event = [thread])
    (hEnded : Supervisor.endedBy event = []) (hNew : thread ∉ muster.spawned)
    (hRunning : supervisor.running.Perm (thread :: muster.supervisor.running))
    (hKnown : ∀ id, .worker id ∈ muster.spawned ++ [thread] →
      id ≤ supervisor.context.workers.lastId)
    (hHolders : supervisor.holders = muster.supervisor.holders + 1)
    (hOwn : ownHolds muster.supervisor.phase = 1) (hPhase : supervisor.phase = .accepting) :
    (muster.after event supervisor).Accounted := by
  rw [after, hSpawned, hEnded, List.append_nil]
  exact
    { nodup := List.nodup_append.mpr ⟨hAccounted.nodup, List.pairwise_singleton _ _,
        fun other hMem _ hThread hSame => hNew (List.mem_singleton.mp hThread ▸ hSame ▸ hMem)⟩
      known := hKnown
      perm := calc
        (muster.ended ++ supervisor.running).Perm
            (muster.ended ++ thread :: muster.supervisor.running) := hRunning.append_left _
        (muster.ended ++ thread :: muster.supervisor.running).Perm
            (thread :: (muster.ended ++ muster.supervisor.running)) := List.perm_middle
        (thread :: (muster.ended ++ muster.supervisor.running)).Perm (thread :: muster.spawned) :=
          hAccounted.perm.cons _
        (thread :: muster.spawned).Perm (muster.spawned ++ [thread]) :=
          (List.perm_append_singleton _ _).symm
      holders_eq := by
        rw [hHolders, hAccounted.holders_eq, hOwn, hPhase, hRunning.length_eq, List.length_cons,
          Nat.add_assoc]
        rfl
      settled := by
        rw [hPhase]
        trivial }

theorem Accounted.finish (hAccounted : muster.Accounted) {event : SupervisorEvent}
    {supervisor : Supervisor} {thread : ServiceThread}
    (hSpawned : muster.supervisor.spawnedBy event = [])
    (hEnded : Supervisor.endedBy event = [thread])
    (hRunning : muster.supervisor.running.Perm (thread :: supervisor.running))
    (hId : supervisor.context.workers.lastId = muster.supervisor.context.workers.lastId)
    (hHolders : supervisor.holders = muster.supervisor.holders - 1)
    (hPhase : supervisor.phase = muster.supervisor.phase) :
    (muster.after event supervisor).Accounted := by
  have hSettled := hAccounted.settled.mono fun other hMem =>
    hRunning.symm.subset (List.mem_cons_of_mem thread hMem)
  rw [after, hSpawned, hEnded, List.append_nil]
  exact
    { nodup := hAccounted.nodup
      known := fun id hMem => hId ▸ hAccounted.known id hMem
      perm := calc
        (muster.ended ++ [thread] ++ supervisor.running).Perm
            (muster.ended ++ thread :: supervisor.running) := by
          rw [List.append_assoc, List.singleton_append]
        (muster.ended ++ thread :: supervisor.running).Perm
            (muster.ended ++ muster.supervisor.running) := hRunning.symm.append_left _
        (muster.ended ++ muster.supervisor.running).Perm muster.spawned := hAccounted.perm
      holders_eq := by
        rw [hHolders, hAccounted.holders_eq, hRunning.length_eq, hPhase, List.length_cons,
          ← Nat.add_assoc, Nat.add_sub_cancel]
      settled := hPhase ▸ hSettled }

theorem Accounted.nodup_running (hAccounted : muster.Accounted) :
    muster.supervisor.context.workers.running.Nodup := by
  have hAll : (muster.ended ++ muster.supervisor.running).Nodup :=
    hAccounted.perm.nodup_iff.mpr hAccounted.nodup
  obtain ⟨-, hRunning, -⟩ := List.nodup_append.mp hAll
  obtain ⟨hWorkers, -, -⟩ := List.nodup_append.mp hRunning
  exact List.Pairwise.of_map ServiceThread.worker
    (fun _ _ hNe hSame => hNe (congrArg ServiceThread.worker hSame)) hWorkers

theorem Accounted.close (hAccounted : muster.Accounted) {event : SupervisorEvent}
    {supervisor closed : Supervisor} {outcome : Outcome Unit} {result : Outcome ShutdownReport}
    (hClose : supervisor.closeStore = (outcome, closed))
    (hSpawned : muster.supervisor.spawnedBy event = [])
    (hEnded : Supervisor.endedBy event = []) (hHolders : supervisor.holders = 1)
    (hWorkers : supervisor.context.workers = muster.supervisor.context.workers)
    (hStamper : supervisor.stamper = muster.supervisor.stamper)
    (hNone : muster.supervisor.running = []) :
    (muster.after event (closed.finishWith result)).Accounted := by
  rw [Supervisor.closeStore_of_holders hHolders] at hClose
  obtain ⟨-, rfl⟩ := Prod.mk.inj hClose
  have hCrew := supervisor.context.closing_close.workers_eq.trans hWorkers
  have hRunning :
      Supervisor.running { supervisor.letGo with context := supervisor.context.close.2 } =
        muster.supervisor.running :=
    Supervisor.running_congr (congrArg Registry.running hCrew) hStamper
  refine hAccounted.keep hSpawned hEnded hRunning (hCrew ▸ Nat.le_refl _) ?_ (hRunning.trans hNone)
  show supervisor.holders - 1 = 0 + muster.supervisor.running.length
  rw [hHolders, hNone]
  rfl

theorem Accounted.step (hAccounted : muster.Accounted) {event : SupervisorEvent}
    {supervisor : Supervisor} (hTransition : muster.supervisor.Transition event supervisor) :
    (muster.after event supervisor).Accounted := by
  have hHolders := hAccounted.holders_eq
  have hSettled := hAccounted.settled
  cases hTransition with
  | @begun spawned hPhase hStamped =>
    rw [hPhase] at hHolders
    refine hAccounted.keep ?_ rfl rfl (Nat.le_refl _) hHolders trivial
    cases spawned with
    | ok value => rw [Supervisor.spawnedBy, hStamped]; rfl
    | error failure => rfl
  | stamperSpawned hPhase hStamped =>
    have hNone := hAccounted.running_eq_nil (by rw [hPhase]; rfl)
    rw [hPhase] at hSettled
    have hBefore : muster.spawned = [] := hSettled
    have hWorkers := (List.append_eq_nil_iff.mp hNone).1
    refine hAccounted.spawn (by rw [Supervisor.spawnedBy, hStamped]; rfl) rfl ?_ ?_ ?_ rfl
      (by rw [hPhase]; rfl) rfl
    · rw [hBefore]
      exact List.not_mem_nil
    · rw [hNone]
      show (muster.supervisor.context.workers.running.map ServiceThread.worker ++ _).Perm _
      rw [hWorkers]
      exact List.Perm.refl _
    · rw [hBefore]
      intro id hMem
      cases List.mem_singleton.mp hMem
  | stamperNotSpawned hPhase hStamped hClose hResult =>
    have hNone := hAccounted.running_eq_nil (by rw [hPhase]; rfl)
    rw [hPhase, hNone] at hHolders
    exact hAccounted.close hClose rfl rfl hHolders rfl rfl hNone
  | @dropped configured spawned room workers hPhase hFailed hHandles hId =>
    have hWorkers : workers.running = muster.supervisor.context.workers.running := by
      rw [Registry.running, hHandles]
      rfl
    refine hAccounted.keep (Supervisor.spawnedBy_eq_nil_of_dropped hFailed _) rfl
      (Supervisor.running_congr hWorkers rfl) hId hHolders ?_
    show Settled _ muster.supervisor.phase
    rw [hPhase]
    trivial
  | workerSpawned hPhase =>
    -- The next number is past every number given so far.
    have hNew : .worker (muster.supervisor.context.workers.lastId + 1) ∉ muster.spawned :=
      fun hMem => absurd (hAccounted.known _ hMem) (Nat.not_succ_le_self _)
    refine hAccounted.spawn rfl rfl hNew ?_ ?_ rfl (by rw [hPhase]; rfl) hPhase
    · rw [Supervisor.running_withWorkers, Registry.running_register, List.map_append,
        List.append_assoc]
      exact List.perm_middle
    · intro id hMem
      rcases List.mem_append.mp hMem with hOld | hThread
      · exact Nat.le_succ_of_le (hAccounted.known id hOld)
      · exact Nat.le_of_eq (ServiceThread.worker.inj (List.mem_singleton.mp hThread))
  | reaped hPhase =>
    refine hAccounted.keep rfl rfl (Supervisor.running_congr (Registry.running_reap _) rfl)
      (Nat.le_refl _) hHolders ?_
    show Settled _ muster.supervisor.phase
    rw [hPhase]
    trivial
  | raised => exact hAccounted.keep rfl rfl rfl (Nat.le_refl _) hHolders hSettled
  | @called event thread context hCaller hRunning hContext =>
    obtain ⟨hSpawned, hEnded⟩ := Supervisor.eq_nil_of_callerOf? hCaller muster.supervisor
    have hSame : Supervisor.running { muster.supervisor with context := context } =
        muster.supervisor.running :=
      Supervisor.running_congr (congrArg Registry.running hContext.1) rfl
    exact hAccounted.keep hSpawned hEnded hSame (hContext.1 ▸ Nat.le_refl _) hHolders
      (hSettled.mono fun thread hMem => hSame ▸ hMem)
  | @workerEnded id thread hRunning hEnded =>
    have hMem := Supervisor.worker_mem_running.mp (Supervisor.isRunning_iff.mp hRunning)
    refine hAccounted.finish rfl rfl ?_ rfl rfl rfl
    rw [Supervisor.running_withWorkers, Registry.running_setThread _ hEnded,
      ← hAccounted.nodup_running.erase_eq_filter]
    exact ((List.perm_cons_erase hMem).map ServiceThread.worker).append_right _
  | stamperEnded hRunning hEnded =>
    refine hAccounted.finish rfl rfl ?_ rfl rfl rfl
    have hStamper := Supervisor.stamper_mem_running.mp (Supervisor.isRunning_iff.mp hRunning)
    rw [Supervisor.running, Supervisor.running, if_pos hStamper, if_neg hEnded, List.append_nil]
    exact List.perm_append_singleton _ _
  | stopped hPhase hAborted =>
    rw [hPhase] at hHolders
    exact hAccounted.keep rfl rfl rfl (Nat.le_refl _) hHolders trivial
  | workersJoined hPhase hEnded =>
    rw [hPhase] at hHolders
    refine hAccounted.keep rfl rfl
      (Supervisor.running_congr (Registry.running_eq_nil hEnded).symm rfl) (Nat.le_refl _)
      hHolders ?_
    exact rfl
  | stamperJoined hPhase hEnded hWhole =>
    rw [hPhase] at hHolders hSettled
    exact hAccounted.keep rfl rfl rfl (Nat.le_refl _) hHolders
      (Supervisor.running_eq_nil hSettled hEnded)
  | abandoned hPhase hBroken =>
    rw [hPhase] at hHolders hSettled
    have hNone := Supervisor.running_eq_nil hSettled (by rw [hBroken]; nofun)
    rw [hNone] at hHolders
    rw [Supervisor.abandon_of_holders hHolders]
    refine hAccounted.keep rfl rfl rfl (Nat.le_refl _) ?_ hNone
    show muster.supervisor.holders - 1 = 0 + muster.supervisor.running.length
    rw [hHolders, hNone]
    rfl
  | closed hPhase hClose =>
    have hNone := hAccounted.running_eq_nil (by rw [hPhase]; rfl)
    rw [hPhase, hNone] at hHolders
    exact hAccounted.close hClose rfl rfl hHolders rfl rfl hNone

end Muster

end PacketLog
