import PacketLog.Proofs.FileSystem.Unlinking
import PacketLog.Proofs.Supervisor.Muster

/-!
# What a running service leaves in its place

Until a supervisor returns, no step of its own or of a thread gives the store another path,
touches a name in the file system, plans a fault or lowers the abort signal
(`Supervisor.samePlace_of_step`).  So a file that could be deleted when the service was set up can
be deleted when the store is closed, and if nothing else is planned the close succeeds
(`Context.close_of_removable`).
-/

namespace PacketLog

def Store.path? : Store → Option String
  | inMemory _ => none
  | inFile file => some file.path

theorem FileStore.path_append (store : FileStore) (files : FileSystem) (bytes : Bytes)
    (answers : List WriteAnswer) : (store.append files bytes answers).2.1.path = store.path := by
  induction store, files, bytes, answers using append_induction with
  | done | waiting | zero | failed => rfl
  | accepted store files bytes count later hBytes ih => exact ih
  | interrupted store files bytes failure later hBytes hAgain ih => exact ih

theorem Store.path?_read (store : Store) (files : FileSystem) (answer : ReadAnswer) :
    (store.read files answer).2.path? = store.path? := by
  rcases hRead : store.read files answer with ⟨outcome, after⟩
  obtain ⟨position, rfl⟩ := exists_seek_of_read hRead
  cases store <;> rfl

namespace Context

/-- From `context` to `after` the store and its file have kept their names, and nothing that was
settled has been undone. -/
structure SamePlace (context after : Context) : Prop where
  path?_eq : after.store.value.path? = context.store.value.path?
  skeleton_eq : after.files.skeleton = context.files.skeleton
  plan_eq : after.faults.plan = context.faults.plan
  aborted : context.aborted = true → after.aborted = true

variable {context after last : Context}

theorem SamePlace.refl (context : Context) : context.SamePlace context := ⟨rfl, rfl, rfl, id⟩

theorem SamePlace.trans (hFirst : context.SamePlace after) (hThen : after.SamePlace last) :
    context.SamePlace last where
  path?_eq := hThen.path?_eq.trans hFirst.path?_eq
  skeleton_eq := hThen.skeleton_eq.trans hFirst.skeleton_eq
  plan_eq := hThen.plan_eq.trans hFirst.plan_eq
  aborted := fun hAborted => hThen.aborted (hFirst.aborted hAborted)

/-- Raising the signal and counting a worker move nothing. -/
theorem samePlace_of_eq (hStore : after.store = context.store)
    (hFiles : after.files = context.files) (hFaults : after.faults = context.faults)
    (hAborted : context.aborted = true → after.aborted = true) : context.SamePlace after where
  path?_eq := by rw [hStore]
  skeleton_eq := by rw [hFiles]
  plan_eq := by rw [hFaults]
  aborted := hAborted

theorem SamePlace.unplanned (hSame : context.SamePlace after) (hUnplanned : context.Unplanned) :
    after.Unplanned := hSame.plan_eq.trans hUnplanned

theorem SamePlace.removable (hSame : context.SamePlace after)
    (hRemovable : ∀ path, context.store.value.path? = some path → context.files.Removable path)
    {path : String} (hPath : after.store.value.path? = some path) : after.files.Removable path :=
  (hRemovable path (hSame.path?_eq ▸ hPath)).of_skeleton hSame.skeleton_eq

theorem samePlace_of_meet {met : Context} {call : StoreCall} {verdict : FaultVerdict}
    (hMeet : context.meet call = (verdict, met)) : context.SamePlace met := by
  obtain ⟨rfl, rfl⟩ := Prod.mk.inj hMeet
  refine ⟨rfl, rfl, ?_, fun hAborted => Bool.or_eq_true_iff.mpr (Or.inl hAborted)⟩
  cases call <;> rfl

theorem samePlace_commit (context : Context) (patience : Patience) (attempts : List Attempt)
    (entry : Entry) (answers : List WriteAnswer) :
    context.SamePlace (context.commit patience attempts entry answers).2 := by
  refine (patience.acquire attempts).enter_snd (.refl context) ?_
  rw [appendHeld]
  rcases hMeet : context.meet .append with ⟨_ | error | _, met⟩
  · refine (samePlace_of_meet hMeet).trans ?_
    dsimp only
    cases hStore : met.store.value with
    | inMemory ring =>
      exact
        { path?_eq := by
            rw [hStore]
            rfl
          skeleton_eq := rfl
          plan_eq := rfl
          aborted := id }
    | inFile file =>
      obtain ⟨-, hSkeleton, -⟩ := file.frame_append met.files entry answers
      exact
        { path?_eq := by
            rw [hStore]
            exact congrArg some (file.path_append met.files entry answers)
          skeleton_eq := hSkeleton
          plan_eq := rfl
          aborted := id }
  · exact samePlace_of_meet hMeet
  · exact samePlace_of_meet hMeet

theorem samePlace_snapshot (context : Context) (patience : Patience) (attempts : List Attempt) :
    context.SamePlace (context.snapshot patience attempts).2 := by
  refine (patience.acquire attempts).enter_snd (.refl context) ?_
  rw [readHeld]
  rcases hMeet : context.meet .read with ⟨_ | error | _, met⟩
  · refine (samePlace_of_meet hMeet).trans ?_
    exact
      { path?_eq := met.store.value.path?_read met.files .whole
        skeleton_eq := rfl
        plan_eq := rfl
        aborted := id }
  · exact samePlace_of_meet hMeet
  · exact samePlace_of_meet hMeet

theorem samePlace_drop (context : Context) :
    context.SamePlace { context with files := context.store.value.drop context.files } := by
  refine ⟨rfl, ?_, rfl, id⟩
  dsimp only
  cases context.store.value with
  | inMemory ring => rfl
  | inFile file => rfl

theorem aborted_close (context : Context) (hAborted : context.aborted = true) :
    context.close.2.aborted = true := by
  rw [close]
  rcases hMeet : context.meet .close with ⟨_ | error | _, met⟩ <;>
    exact (samePlace_of_meet hMeet).aborted hAborted

/-- **A store whose file can be deleted is closed**, and the file has lost its name. -/
theorem close_of_removable (hUnplanned : context.Unplanned)
    (hRemovable : ∀ path, context.store.value.path? = some path → context.files.Removable path) :
    context.close.1 = .ok () ∧ ∀ path, context.store.value.path? = some path →
      context.close.2.files.hasPath path = false := by
  rw [close, hUnplanned.meet]
  dsimp only
  cases hStore : context.store.value with
  | inMemory ring =>
    refine ⟨rfl, fun path hPath => ?_⟩
    cases hPath
  | inFile file =>
    obtain ⟨removed, hRemove⟩ :=
      FileStore.exists_remove_of_removable (hRemovable file.path (by rw [hStore]; rfl))
    rw [Store.close, hRemove]
    refine ⟨rfl, fun path hPath => ?_⟩
    rw [← Option.some.inj hPath]
    exact FileStore.hasPath_of_remove hRemove

end Context

namespace Supervisor

variable {supervisor next : Supervisor} {event : SupervisorEvent}

theorem step?_committed (supervisor : Supervisor) (thread : ServiceThread) (patience : Patience)
    (attempts : List Attempt) (entry : Entry) (answers : List WriteAnswer) :
    supervisor.step? (.committed thread patience attempts entry answers) =
      if supervisor.isRunning thread then
        some
          { supervisor with
            context := (supervisor.context.commit patience attempts entry answers).2 }
      else none := by
  unfold step?
  cases supervisor.phase <;> rfl

theorem step?_snapshotted (supervisor : Supervisor) (thread : ServiceThread) (patience : Patience)
    (attempts : List Attempt) :
    supervisor.step? (.snapshotted thread patience attempts) =
      if supervisor.isRunning thread then
        some { supervisor with context := (supervisor.context.snapshot patience attempts).2 }
      else none := by
  unfold step?
  cases supervisor.phase <;> rfl

theorem exists_of_call {thread : ServiceThread} (hCaller : callerOf? event = some thread)
    (hStep : supervisor.step? event = some next) :
    ∃ context, next = { supervisor with context := context } ∧
      supervisor.context.SamePlace context := by
  cases event with
  | committed caller patience attempts entry answers =>
    rw [step?_committed] at hStep
    obtain ⟨-, hNext⟩ := Option.ite_none_right_eq_some.mp hStep
    obtain rfl := Option.some.inj hNext
    exact ⟨_, rfl, supervisor.context.samePlace_commit _ _ _ _⟩
  | snapshotted caller patience attempts =>
    rw [step?_snapshotted] at hStep
    obtain ⟨-, hNext⟩ := Option.ite_none_right_eq_some.mp hStep
    obtain rfl := Option.some.inj hNext
    exact ⟨_, rfl, supervisor.context.samePlace_snapshot _ _⟩
  | _ => cases hCaller

/-- **Until the service returns everything stays in its place.** -/
theorem samePlace_of_step (hStep : supervisor.step? event = some next)
    (hServing : ∀ result, next.phase ≠ .returned result) :
    supervisor.context.SamePlace next.context := by
  cases hCaller : callerOf? event with
  | some thread =>
    obtain ⟨context, rfl, hSame⟩ := exists_of_call hCaller hStep
    exact hSame
  | none =>
    cases transition_of_step? hStep with
    | begun | stamperSpawned | dropped | workerSpawned | reaped | workerEnded | stamperEnded
    | stopped | workersJoined | stamperJoined => exact Context.samePlace_of_eq rfl rfl rfl id
    | raised => exact Context.samePlace_of_eq rfl rfl rfl fun _ => rfl
    | called hThread => cases hThread.symm.trans hCaller
    | stamperNotSpawned | abandoned | closed => exact absurd rfl (hServing _)

theorem of_closeStore {after : Supervisor} {outcome : Outcome Unit}
    (hClose : supervisor.closeStore = (outcome, after)) :
    after.stamper = supervisor.stamper ∧ after.stamped = supervisor.stamped ∧
      (supervisor.context.aborted = true → after.context.aborted = true) := by
  rw [closeStore] at hClose
  split at hClose <;> obtain ⟨-, rfl⟩ := Prod.mk.inj hClose
  · exact ⟨rfl, rfl, supervisor.context.aborted_close⟩
  · exact ⟨rfl, rfl, id⟩

theorem aborted_of_step (hStep : supervisor.step? event = some next)
    (hAborted : supervisor.context.aborted = true) : next.context.aborted = true := by
  by_cases hServing : ∀ result, next.phase ≠ .returned result
  · exact (samePlace_of_step hStep hServing).aborted hAborted
  · cases transition_of_step? hStep with
    | raised => rfl
    | stamperNotSpawned hPhase hStamped hClose =>
      obtain ⟨-, -, hRaised⟩ := of_closeStore hClose
      exact hRaised rfl
    | closed hPhase hClose =>
      obtain ⟨-, -, hRaised⟩ := of_closeStore hClose
      exact hRaised hAborted
    | abandoned =>
      rw [abandon]
      dsimp only
      split <;> exact hAborted
    | called hCaller =>
      obtain ⟨left, hLeft, hSame⟩ := exists_of_call hCaller hStep
      rw [hLeft]
      exact hSame.aborted hAborted
    | _ => exact hAborted

end Supervisor

end PacketLog
