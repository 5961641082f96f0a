import PacketLog.Context
import PacketLog.Proofs.FileStore.Positions

/-!
# What a call of the store answers

As long as nothing is planned to go wrong, a call with the lock is a call of the store
(`Context.appendHeld_eq`, `Context.readHeld_eq`).  Neither store says that it was interrupted,
whatever the calls that write and read a file answer: an append fails for what the file answers,
and a read also for want of memory.  So an interrupted call is one that gave up at the lock
(`Context.of_commit_interrupted`, `Context.of_snapshot_interrupted`): it was ready to, the abort
signal was raised at its last attempt, and it has changed nothing.
-/

namespace PacketLog

/-! ## The lock -/

theorem Patience.acquire_append {patience : Patience} {earlier : List Attempt}
    (hWaiting : patience.acquire earlier = .waiting) (later : List Attempt) :
    patience.acquire (earlier ++ later) = patience.acquire later := by
  induction earlier with
  | nil => rfl
  | cons attempt earlier ih =>
    rw [acquire] at hWaiting
    rw [List.cons_append, acquire]
    split at hWaiting
    · cases hWaiting
    · next hFree =>
      rw [if_neg hFree]
      split at hWaiting
      · cases hWaiting
      · next hPatient =>
        rw [if_neg hPatient]
        exact ih hWaiting

/-- An attempt that finds the lock free takes it, whatever the abort signal says. -/
theorem Patience.acquire_of_free {patience : Patience} {attempt : Attempt}
    (hFree : attempt.free = true) : patience.acquire [attempt] = .acquired := by
  rw [acquire, if_pos hFree]

theorem Patience.of_acquire_interrupted {patience : Patience} {attempt : Attempt}
    (hInterrupted : patience.acquire [attempt] = .interrupted) :
    patience = .interruptible ∧ attempt.free = false ∧ attempt.aborted = true := by
  rw [acquire] at hInterrupted
  split at hInterrupted
  · cases hInterrupted
  · next hFree =>
    split at hInterrupted
    · next hGivesUp => exact ⟨hGivesUp.1, Bool.eq_false_iff.mpr hFree, hGivesUp.2⟩
    · cases hInterrupted

theorem Patience.acquire_concat_ne_waiting (patience : Patience) {attempt : Attempt}
    (hFree : attempt.free = true) (earlier : List Attempt) :
    patience.acquire (earlier ++ [attempt]) ≠ .waiting := by
  intro hWaiting
  induction earlier with
  | nil =>
    rw [List.nil_append, acquire_of_free hFree] at hWaiting
    cases hWaiting
  | cons first earlier ih =>
    rw [List.cons_append, acquire] at hWaiting
    split at hWaiting
    · cases hWaiting
    · split at hWaiting
      · cases hWaiting
      · exact ih hWaiting

/-- What holds of the guarded value before a critical section and after it holds if the section is
not entered, too. -/
theorem Acquisition.enter_snd {σ α : Type} {motive : σ → Prop} (acquisition : Acquisition)
    {state : σ} {critical : σ → Outcome α × σ} (hState : motive state)
    (hCritical : motive (critical state).2) : motive (acquisition.enter state critical).2 := by
  cases acquisition with
  | acquired => exact hCritical
  | interrupted => exact hState
  | waiting => exact hState

theorem Acquisition.enter_ne_waiting {σ α : Type} {acquisition : Acquisition} {state : σ}
    {critical : σ → Outcome α × σ} (hOver : acquisition ≠ .waiting)
    (hCritical : (critical state).1 ≠ .waiting) :
    (acquisition.enter state critical).1 ≠ .waiting := by
  cases acquisition with
  | acquired => exact hCritical
  | interrupted => exact nofun
  | waiting => exact absurd rfl hOver

/-! ## The stores -/

namespace FileStore

variable {store after : FileStore} {files filesAfter : FileSystem} {bytes : Bytes}
  {answers : List WriteAnswer} {outcome : Outcome Unit}

/-- An append does not break off, and it fails for what the file answers. -/
theorem of_append (hAppend : store.append files bytes answers = (outcome, after, filesAfter)) :
    outcome ≠ .crash ∧ ∀ error, outcome = .error error → error.kind = .io := by
  obtain rfl : (store.append files bytes answers).1 = outcome := congrArg Prod.fst hAppend
  clear hAppend
  induction store, files, bytes, answers using append_induction with
  | done | waiting => exact ⟨nofun, nofun⟩
  | zero | failed => exact ⟨nofun, fun error hError => by rw [← Outcome.error.inj hError]; rfl⟩
  | accepted store files bytes count later hBytes ih => exact ih
  | interrupted store files bytes failure later hBytes hAgain ih => exact ih

theorem kind_of_read {answer : ReadAnswer} {error : Error}
    (hRead : (store.read files answer).1 = .error error) :
    error.kind = .io ∨ error.kind = .outOfMemory := by
  cases answer with
  | whole => cases hRead
  | notRewound failure =>
    obtain rfl := Except.error.inj hRead
    exact Or.inl rfl
  | noRoom =>
    obtain rfl := Except.error.inj hRead
    exact Or.inr rfl
  | failed failure count =>
    obtain rfl := Except.error.inj hRead
    exact Or.inl rfl

end FileStore

namespace Store

variable {store after : Store} {files filesAfter : FileSystem}

theorem of_append {entry : Entry} {answers : List WriteAnswer} {outcome : Outcome (Option Entry)}
    (hAppend : store.append files entry answers = (outcome, after, filesAfter)) :
    outcome ≠ .crash ∧ ∀ error, outcome = .error error → error.kind = .io := by
  cases store with
  | inMemory ring =>
    obtain ⟨rfl, -⟩ := Prod.mk.inj hAppend
    exact ⟨nofun, nofun⟩
  | inFile file =>
    rw [append] at hAppend
    rcases hFile : file.append files entry answers with ⟨fileOutcome, fileAfter, filesLast⟩
    rw [hFile] at hAppend
    obtain ⟨rfl, -⟩ := Prod.mk.inj hAppend
    obtain ⟨hCrash, hError⟩ := FileStore.of_append hFile
    cases fileOutcome with
    | ok value => exact ⟨nofun, nofun⟩
    | error error =>
      exact ⟨nofun, fun found hFound => by
        rw [← Outcome.error.inj hFound]
        exact hError error rfl⟩
    | crash => exact absurd rfl hCrash
    | waiting => exact ⟨nofun, nofun⟩

theorem kind_of_read {answer : ReadAnswer} {error : Error}
    (hRead : (store.read files answer).1 = .error error) :
    error.kind = .io ∨ error.kind = .outOfMemory := by
  cases store with
  | inMemory ring => cases hRead
  | inFile file => exact FileStore.kind_of_read hRead

end Store

/-! ## Behind the lock -/

namespace Context

variable {context after : Context} {patience : Patience} {attempts : List Attempt} {error : Error}

/-- Nothing is planned to go wrong. -/
def Unplanned (context : Context) : Prop := context.faults.plan = []

theorem Unplanned.meet (hUnplanned : context.Unplanned) (call : StoreCall) :
    context.meet call = (.proceed, { context with faults := context.faults.counted call }) := by
  have hPlan : (context.faults.counted call).plan = [] := by cases call <;> exact hUnplanned
  rw [Context.meet, Faults.meet, hPlan, List.filter_nil, List.map_nil, Faults.applied]
  dsimp only
  rw [Bool.or_false]

theorem Unplanned.counted (hUnplanned : context.Unplanned) (call : StoreCall) :
    ({ context with faults := context.faults.counted call } : Context).Unplanned := by
  cases call <;> exact hUnplanned

theorem appendHeld_eq (hUnplanned : context.Unplanned) {entry : Entry}
    {answers : List WriteAnswer} {outcome : Outcome (Option Entry)} {store : Store}
    {files : FileSystem}
    (hAppend : context.store.value.append context.files entry answers = (outcome, store, files)) :
    context.appendHeld entry answers =
      (outcome.map fun _ => (),
        { context with
          faults := context.faults.counted .append
          store := { context.store with value := store }
          files := files }) := by
  rw [appendHeld, hUnplanned.meet]
  dsimp only
  rw [hAppend]

theorem readHeld_eq (hUnplanned : context.Unplanned) {answer : ReadAnswer}
    {outcome : Except Error Bytes} {store : Store}
    (hRead : context.store.value.read context.files answer = (outcome, store)) :
    context.readHeld answer =
      (.ofExcept outcome,
        { context with
          faults := context.faults.counted .read
          store := { context.store with value := store } }) := by
  rw [readHeld, hUnplanned.meet]
  dsimp only
  rw [hRead]

end Context

end PacketLog
