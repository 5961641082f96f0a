import Mathlib
import PacketLog.Proofs.FileSystem.Names

/-!
# A contest for one path

Any number of claimants want to keep their log under one path, and each goes through
the steps of creation and removal one at a time, or gives up anywhere; between two of its
steps all others may act.  `ClaimStage.step?` makes the machine of the steps from the
functions that creation and removal are made of; left alone it is creation
(`exists_run_of_create`) and removal (`run?_eq_remove`).

The order of a contest (`Orderly`) is that every lock has one holder, and that the path
leads to the file of whoever has passed the check and has neither deleted the name nor
closed its file.  Every step keeps it: what changes names is the work of one who stands,
and the path cannot lead to two files (`one_stands`).
-/

namespace PacketLog

/-- How far a claimant has come. -/
inductive ClaimStage
  | arriving
  | opened (inode : Nat)
  | locked (inode : Nat)
  /-- The path led to the locked file. -/
  | admitted (inode : Nat)
  | live (store : FileStore)
  /-- The path led elsewhere, or nowhere. -/
  | refused (inode : Nat)
  | unlinked (inode : Nat)
  /-- A step behind the check has failed: the file is not emptied, or its name is not deleted. -/
  | kept (inode : Nat)
  | gone
deriving DecidableEq

/-- A step of one claimant, with what its calls answer where the files do not decide it. -/
inductive ClaimEvent
  | opened (failure? : Option IoFailure := none)
  | locked (failure? : Option IoFailure := none)
  | checked (comparable : Bool := true)
  /-- What an earlier run left behind is discarded. -/
  | emptied (sizeFailure? truncateFailure? : Option IoFailure := none)
  | appended (bytes : Bytes) (answers : List WriteAnswer)
  | unlinked
  /-- The file is closed, wherever the claimant is. -/
  | closed
deriving DecidableEq

namespace ClaimStage

/-- The file on which the claimant has the lock. -/
def held? : ClaimStage → Option Nat
  | locked inode => some inode
  | admitted inode => some inode
  | live store => some store.inode
  | refused inode => some inode
  | unlinked inode => some inode
  | kept inode => some inode
  | _ => none

/-- The file of a claimant that has passed the check and has neither deleted the name nor closed
the file. -/
def standing? : ClaimStage → Option Nat
  | admitted inode => some inode
  | live store => some store.inode
  | kept inode => some inode
  | _ => none

def close (files : FileSystem) (stage : ClaimStage) : FileSystem :=
  match stage.held? with
  | some inode => files.unlock inode
  | none => files

/-- The next step of one claimant, and what becomes of the files. -/
def step? (path : String) (files : FileSystem) :
    ClaimStage → ClaimEvent → Option (ClaimStage × FileSystem)
  | arriving, .opened failure? =>
    match FileStore.openFile files path failure? with
    | .ok (inode, files) => some (opened inode, files)
    | .error _ => some (gone, files)
  | opened inode, .locked failure? =>
    match FileStore.lockFile files path inode failure? with
    | .ok files => some (locked inode, files)
    | .error _ => some (gone, files)
  | locked inode, .checked comparable =>
    match FileStore.checkName files path inode comparable with
    | .ok () => some (admitted inode, files)
    | .error _ => some (refused inode, files)
  | admitted inode, .emptied sizeFailure? truncateFailure? =>
    match FileStore.discardStale files path inode sizeFailure? truncateFailure? with
    | .ok files => some (live { path := path, inode := inode }, files)
    | .error _ => some (kept inode, files)
  | live store, .appended bytes answers =>
    let (_, store, files) := store.append files bytes answers
    some (live store, files)
  | live store, .unlinked =>
    match FileStore.unlinkFile files store.path with
    | .ok files => some (unlinked store.inode, files)
    | .error _ => some (kept store.inode, files)
  | stage, .closed => some (gone, stage.close files)
  | _, _ => none

end ClaimStage

structure Contest where
  files : FileSystem
  path : String
  claimants : List ClaimStage := []
deriving DecidableEq

inductive ContestEvent
  | arrived
  | acted (claimant : Nat) (event : ClaimEvent)
  /-- Something else happens to the files. -/
  | elsewhere (files : FileSystem)
deriving DecidableEq

namespace Contest

/-- Others leave the path alone, and cannot take a lock away. -/
def Spares (contest : Contest) (files : FileSystem) : Prop :=
  (files.find contest.path).toOption = (contest.files.find contest.path).toOption ∧
    ∀ inode ∈ contest.claimants.filterMap ClaimStage.held?, inode ∈ files.locked

instance (contest : Contest) (files : FileSystem) : Decidable (contest.Spares files) :=
  inferInstanceAs (Decidable (_ ∧ _))

def moved (contest : Contest) (i : Nat) (stage : ClaimStage) (files : FileSystem) : Contest :=
  { contest with files := files, claimants := contest.claimants.set i stage }

def step? (contest : Contest) : ContestEvent → Option Contest
  | .arrived => some { contest with claimants := contest.claimants ++ [.arriving] }
  | .acted i event => do
    let stage ← contest.claimants[i]?
    let (stage, files) ← stage.step? contest.path contest.files event
    return contest.moved i stage files
  | .elsewhere files =>
    if contest.Spares files then some { contest with files := files } else none

def run? (contest : Contest) : List ContestEvent → Option Contest
  | [] => some contest
  | event :: later => (contest.step? event).bind fun next => next.run? later

end Contest

/-! ## Alone -/

/-- Where creation leaves a claimant. -/
def ClaimStage.ofCreate : Except Error FileStore → ClaimStage
  | .ok store => .live store
  | .error _ => .gone

namespace Contest

variable {files after : FileSystem} {path : String}

theorem run?_alone {stage next : ClaimStage} {event : ClaimEvent}
    (hStep : stage.step? path files event = some (next, after)) (later : List ContestEvent) :
    run? { files := files, path := path, claimants := [stage] } (.acted 0 event :: later) =
      run? { files := after, path := path, claimants := [next] } later := by
  show (step? _ _).bind _ = _
  rw [step?]
  dsimp only [List.getElem?_cons_zero, Option.bind_some, bind]
  rw [hStep]
  rfl

/-- The steps of a claimant, taken without a break, are creation; after a check that failed the
file is closed. -/
theorem exists_run_of_create {given : String} {answers : CreateAnswers}
    {result : Except Error FileStore}
    (hPath : FileStore.absolutePath files.currentPath? given = .ok path)
    (hCreate : FileStore.create files given answers = (result, after)) :
    ∃ events : List ClaimEvent,
      run? { files := files, path := path } (.arrived :: events.map (.acted 0)) =
        some { files := after, path := path, claimants := [.ofCreate result] } := by
  have hArrived (events : List ContestEvent) :
      run? { files := files, path := path } (.arrived :: events) =
        run? { files := files, path := path, claimants := [.arriving] } events := rfl
  rw [FileStore.create, hPath] at hCreate
  dsimp only at hCreate
  cases hOpen : FileStore.openFile files path answers.openFailure? with
  | error error =>
    rw [hOpen] at hCreate
    obtain ⟨rfl, rfl⟩ := Prod.mk.inj hCreate
    refine ⟨[.opened answers.openFailure?], ?_⟩
    rw [hArrived, List.map_cons, run?_alone (by rw [ClaimStage.step?, hOpen])]
    rfl
  | ok opened =>
    obtain ⟨inode, filesOpened⟩ := opened
    rw [hOpen] at hCreate
    dsimp only at hCreate
    cases hLock : FileStore.lockFile filesOpened path inode answers.lockFailure? with
    | error error =>
      rw [hLock] at hCreate
      obtain ⟨rfl, rfl⟩ := Prod.mk.inj hCreate
      refine ⟨[.opened answers.openFailure?, .locked answers.lockFailure?], ?_⟩
      rw [hArrived, List.map_cons, run?_alone (by rw [ClaimStage.step?, hOpen]), List.map_cons,
        run?_alone (by rw [ClaimStage.step?, hLock])]
      rfl
    | ok filesLocked =>
      rw [hLock] at hCreate
      dsimp only at hCreate
      have hAdvance (later : List ClaimEvent) :
          run? { files := files, path := path }
            (.arrived :: (.opened answers.openFailure? :: .locked answers.lockFailure? ::
              .checked answers.comparable :: later).map (.acted 0)) =
          run? { files := filesLocked, path := path, claimants := [.locked inode] }
            ((.checked answers.comparable :: later).map (.acted 0)) := by
        rw [hArrived, List.map_cons, run?_alone (by rw [ClaimStage.step?, hOpen]), List.map_cons,
          run?_alone (by rw [ClaimStage.step?, hLock])]
      cases hCheck : FileStore.checkName filesLocked path inode answers.comparable with
      | error error =>
        rw [hCheck] at hCreate
        obtain ⟨rfl, rfl⟩ := Prod.mk.inj hCreate
        refine ⟨_, (hAdvance [.closed]).trans ?_⟩
        rw [List.map_cons, run?_alone (by rw [ClaimStage.step?, hCheck])]
        rfl
      | ok value =>
        rw [hCheck] at hCreate
        dsimp only at hCreate
        cases hDiscard : FileStore.discardStale filesLocked path inode answers.sizeFailure?
          answers.truncateFailure? with
        | error error =>
          rw [hDiscard] at hCreate
          obtain ⟨rfl, rfl⟩ := Prod.mk.inj hCreate
          refine ⟨_, (hAdvance
            [.emptied answers.sizeFailure? answers.truncateFailure?, .closed]).trans ?_⟩
          rw [List.map_cons, run?_alone (by rw [ClaimStage.step?, hCheck]), List.map_cons,
            run?_alone (by rw [ClaimStage.step?, hDiscard])]
          rfl
        | ok filesEmptied =>
          rw [hDiscard] at hCreate
          obtain ⟨rfl, rfl⟩ := Prod.mk.inj hCreate
          refine ⟨_, (hAdvance
            [.emptied answers.sizeFailure? answers.truncateFailure?]).trans ?_⟩
          rw [List.map_cons, run?_alone (by rw [ClaimStage.step?, hCheck]), List.map_cons,
            run?_alone (by rw [ClaimStage.step?, hDiscard])]
          rfl

theorem run?_eq_remove (store : FileStore) (files : FileSystem) :
    run? { files := files, path := store.path, claimants := [.live store] }
        [.acted 0 .unlinked, .acted 0 .closed] =
      some { files := (store.remove files).2, path := store.path, claimants := [.gone] } := by
  rw [FileStore.remove]
  cases hUnlink : FileStore.unlinkFile files store.path with
  | ok unlinked =>
    rw [run?_alone (by rw [ClaimStage.step?, hUnlink])]
    rfl
  | error error =>
    rw [run?_alone (by rw [ClaimStage.step?, hUnlink])]
    rfl

end Contest

/-! ## What one step can be -/

namespace ClaimStage

variable {path : String} {files filesAfter : FileSystem}

/-- One step of a claimant, with what it was allowed by and all it changed.  Nobody who is before
the lock changes a file that the path leads to. -/
inductive Transition (path : String) (files : FileSystem) :
    ClaimStage → ClaimStage → FileSystem → Prop
  | opened {inode : Nat} {filesAfter : FileSystem} {failure? : Option IoFailure}
      (hOpen : FileStore.openFile files path failure? = .ok (inode, filesAfter)) :
      Transition path files arriving (opened inode) filesAfter
  | turnedAway {stage : ClaimStage} (hStage : stage.held? = none) :
      Transition path files stage gone files
  | locked {inode : Nat} (hFree : inode ∉ files.locked) :
      Transition path files (opened inode) (locked inode)
        { files with locked := inode :: files.locked }
  | admitted {inode : Nat} (hNamed : files.find path = .ok inode) :
      Transition path files (locked inode) (admitted inode) files
  | refused {inode : Nat} : Transition path files (locked inode) (refused inode) files
  /-- Whoever stands works on its own file, whose name stays as it is. -/
  | worked {stage after : ClaimStage} {inode : Nat} {filesAfter : FileSystem}
      (hStage : stage.standing? = some inode) (hAfter : after.standing? = some inode)
      (hFind : filesAfter.find path = files.find path)
      (hLocked : filesAfter.locked = files.locked) :
      Transition path files stage after filesAfter
  | unlinked {store : FileStore} {filesAfter : FileSystem}
      (hLocked : filesAfter.locked = files.locked) :
      Transition path files (live store) (unlinked store.inode) filesAfter
  | closed {stage : ClaimStage} {inode : Nat} (hHeld : stage.held? = some inode) :
      Transition path files stage gone (files.unlock inode)

theorem transition_of_step? {stage after : ClaimStage} {event : ClaimEvent}
    (hStep : stage.step? path files event = some (after, filesAfter)) :
    Transition path files stage after filesAfter := by
  unfold step? at hStep
  split at hStep
  · split at hStep
    · next inode files' hOpen =>
      obtain ⟨rfl, rfl⟩ := Prod.mk.inj (Option.some.inj hStep)
      exact .opened hOpen
    · obtain ⟨rfl, rfl⟩ := Prod.mk.inj (Option.some.inj hStep)
      exact .turnedAway rfl
  · split at hStep
    · next files' hLock =>
      obtain ⟨rfl, rfl⟩ := Prod.mk.inj (Option.some.inj hStep)
      obtain ⟨hFree, rfl⟩ := FileStore.eq_of_lockFile hLock
      exact .locked hFree
    · obtain ⟨rfl, rfl⟩ := Prod.mk.inj (Option.some.inj hStep)
      exact .turnedAway rfl
  · split at hStep
    · next hCheck =>
      obtain ⟨rfl, rfl⟩ := Prod.mk.inj (Option.some.inj hStep)
      exact .admitted (FileStore.find_of_checkName hCheck)
    · obtain ⟨rfl, rfl⟩ := Prod.mk.inj (Option.some.inj hStep)
      exact .refused
  · split at hStep
    · next emptied hDiscard =>
      obtain ⟨rfl, rfl⟩ := Prod.mk.inj (Option.some.inj hStep)
      obtain rfl := FileStore.eq_of_discardStale hDiscard
      exact .worked rfl rfl (FileStore.find_setContents files _ [] path)
        (files.locked_setContents _ [])
    · obtain ⟨rfl, rfl⟩ := Prod.mk.inj (Option.some.inj hStep)
      exact .worked rfl rfl rfl rfl
  · next store bytes answers =>
    obtain ⟨rfl, rfl⟩ := Prod.mk.inj (Option.some.inj hStep)
    obtain ⟨hInode, hSkeleton, hLocked⟩ := store.frame_append files bytes answers
    refine .worked rfl (congrArg some hInode) ?_ hLocked
    rw [← FileSystem.find_skeleton, hSkeleton, FileSystem.find_skeleton]
  · split at hStep
    · next files' hUnlink =>
      obtain ⟨rfl, rfl⟩ := Prod.mk.inj (Option.some.inj hStep)
      exact .unlinked (FileStore.locked_of_unlinkFile hUnlink)
    · obtain ⟨rfl, rfl⟩ := Prod.mk.inj (Option.some.inj hStep)
      exact .worked rfl rfl rfl rfl
  · obtain ⟨rfl, rfl⟩ := Prod.mk.inj (Option.some.inj hStep)
    cases hHeld : stage.held? with
    | none =>
      rw [close, hHeld]
      exact .turnedAway hHeld
    | some inode =>
      rw [close, hHeld]
      exact .closed hHeld
  · cases hStep

theorem held?_of_standing? {stage : ClaimStage} {inode : Nat}
    (hStanding : stage.standing? = some inode) : stage.held? = some inode := by
  cases stage with
  | admitted => exact hStanding
  | live => exact hStanding
  | kept => exact hStanding
  | arriving | opened | locked | refused | unlinked | gone => cases hStanding

end ClaimStage

/-! ## The order of a contest -/

namespace Contest

def held? (contest : Contest) (i : Nat) : Option Nat := contest.claimants[i]?.bind ClaimStage.held?

def standing? (contest : Contest) (i : Nat) : Option Nat :=
  contest.claimants[i]?.bind ClaimStage.standing?

/-- Every claimant has a lock of its own, and the path leads to the file of whoever stands. -/
structure Orderly (contest : Contest) : Prop where
  locked : ∀ i inode, contest.held? i = some inode → inode ∈ contest.files.locked
  alone : ∀ i j inode, contest.held? i = some inode → contest.held? j = some inode → i = j
  named : ∀ i inode, contest.standing? i = some inode → contest.files.find contest.path = .ok inode

variable {contest next : Contest}

theorem held?_of_standing? {i inode : Nat} (hStanding : contest.standing? i = some inode) :
    contest.held? i = some inode := by
  obtain ⟨stage, hStage, hInode⟩ := Option.bind_eq_some_iff.mp hStanding
  rw [held?, hStage]
  exact ClaimStage.held?_of_standing? hInode

/-- **One stands.**  The path cannot lead to two files. -/
theorem Orderly.eq_of_standing? (hOrderly : contest.Orderly) {i j inode other : Nat}
    (hStanding : contest.standing? i = some inode) (hOther : contest.standing? j = some other) :
    i = j := by
  have hNamed := hOrderly.named i inode hStanding
  rw [hOrderly.named j other hOther] at hNamed
  obtain rfl := Except.ok.inj hNamed
  exact hOrderly.alone i j other (held?_of_standing? hStanding) (held?_of_standing? hOther)

section Moved

variable {i j : Nat} {old after : ClaimStage} {filesAfter : FileSystem}

theorem claimants_moved_self (hOld : contest.claimants[i]? = some old) :
    (contest.moved i after filesAfter).claimants[i]? = some after := by
  obtain ⟨hLt, -⟩ := List.getElem?_eq_some_iff.mp hOld
  exact List.getElem?_set_self hLt

theorem claimants_moved_of_ne (hNe : j ≠ i) :
    (contest.moved i after filesAfter).claimants[j]? = contest.claimants[j]? :=
  List.getElem?_set_ne hNe.symm

/-- What has to be seen to when one claimant moves on: its own lock and place, and those of the
others. -/
theorem Orderly.moved (hOrderly : contest.Orderly) (hOld : contest.claimants[i]? = some old)
    (hLocked : ∀ inode, after.held? = some inode → inode ∈ filesAfter.locked)
    (hNamed : ∀ inode, after.standing? = some inode → filesAfter.find contest.path = .ok inode)
    (hOthers : ∀ j ≠ i, ∀ inode, contest.held? j = some inode →
      inode ∈ filesAfter.locked ∧ after.held? ≠ some inode)
    (hStanding : ∀ j ≠ i, ∀ inode, contest.standing? j = some inode →
      filesAfter.find contest.path = .ok inode) :
    (contest.moved i after filesAfter).Orderly := by
  have hSelf : (contest.moved i after filesAfter).held? i = after.held? := by
    rw [held?, claimants_moved_self hOld]
    rfl
  have hOther {j : Nat} (hNe : j ≠ i) :
      (contest.moved i after filesAfter).held? j = contest.held? j := by
    rw [held?, claimants_moved_of_ne hNe, held?]
  refine ⟨fun j inode hHeld => ?_, fun j k inode hHeld hAlso => ?_, fun j inode hStands => ?_⟩
  · by_cases hActs : j = i
    · rw [hActs, hSelf] at hHeld
      exact hLocked inode hHeld
    · rw [hOther hActs] at hHeld
      exact (hOthers j hActs inode hHeld).1
  · by_cases hActs : j = i
    · by_cases hAlsoActs : k = i
      · rw [hActs, hAlsoActs]
      · rw [hActs, hSelf] at hHeld
        rw [hOther hAlsoActs] at hAlso
        exact absurd hHeld (hOthers k hAlsoActs inode hAlso).2
    · rw [hOther hActs] at hHeld
      by_cases hAlsoActs : k = i
      · rw [hAlsoActs, hSelf] at hAlso
        exact absurd hAlso (hOthers j hActs inode hHeld).2
      · rw [hOther hAlsoActs] at hAlso
        exact hOrderly.alone j k inode hHeld hAlso
  · by_cases hActs : j = i
    · rw [hActs, standing?, claimants_moved_self hOld] at hStands
      exact hNamed inode hStands
    · rw [standing?, claimants_moved_of_ne hActs] at hStands
      exact hStanding j hActs inode hStands

theorem Orderly.step_acted (hOrderly : contest.Orderly) (hOld : contest.claimants[i]? = some old)
    (hTransition : ClaimStage.Transition contest.path contest.files old after filesAfter) :
    (contest.moved i after filesAfter).Orderly := by
  have hHere {inode : Nat} (hHeld : old.held? = some inode) : contest.held? i = some inode := by
    rw [held?, hOld]
    exact hHeld
  have hStands {inode : Nat} (hStanding : old.standing? = some inode) :
      contest.standing? i = some inode := by
    rw [standing?, hOld]
    exact hStanding
  -- Whoever keeps its lock shares it with nobody, as before.
  have hKeeps {inode : Nat} (hHeld : old.held? = some inode) (j : Nat) (hNe : j ≠ i) (other : Nat)
      (hOther : contest.held? j = some other) : some inode ≠ some other := fun hSame =>
    hNe (hOrderly.alone j i other hOther (hSame ▸ hHere hHeld))
  cases hTransition with
  | opened hOpen =>
    have hLocked := FileStore.locked_of_openFile hOpen
    refine hOrderly.moved hOld nofun nofun (fun j _ inode hHeld => ?_) fun j _ inode hStands => ?_
    · rw [hLocked]
      exact ⟨hOrderly.locked j inode hHeld, nofun⟩
    · have hNamed := hOrderly.named j inode hStands
      rw [(FileStore.eq_of_openFile hNamed hOpen).2]
      exact hNamed
  | turnedAway hStage =>
    exact hOrderly.moved hOld nofun nofun
      (fun j _ inode hHeld => ⟨hOrderly.locked j inode hHeld, nofun⟩)
      fun j _ inode hStands => hOrderly.named j inode hStands
  | @locked inode hFree =>
    refine hOrderly.moved hOld ?_ nofun (fun j _ other hHeld => ?_) fun j _ other hStands => ?_
    · intro other hHeld
      exact Option.some.inj hHeld ▸ List.mem_cons_self
    · have hMem := hOrderly.locked j other hHeld
      exact ⟨List.mem_cons_of_mem _ hMem, fun hSame => hFree (Option.some.inj hSame ▸ hMem)⟩
    · rw [FileSystem.find_withLocked]
      exact hOrderly.named j other hStands
  | @admitted inode hNamed =>
    refine hOrderly.moved hOld (fun other hHeld => hOrderly.locked i other (hHere hHeld)) ?_
      (fun j hNe other hHeld => ⟨hOrderly.locked j other hHeld, hKeeps rfl j hNe other hHeld⟩)
      fun j _ other hStands => hOrderly.named j other hStands
    intro other hStands
    exact Option.some.inj hStands ▸ hNamed
  | refused =>
    exact hOrderly.moved hOld (fun other hHeld => hOrderly.locked i other (hHere hHeld)) nofun
      (fun j hNe other hHeld => ⟨hOrderly.locked j other hHeld, hKeeps rfl j hNe other hHeld⟩)
      fun j _ other hStands => hOrderly.named j other hStands
  | @worked _ _ inode _ hStage hAfter hFind hLocked =>
    have hHeld := ClaimStage.held?_of_standing? hStage
    have hHeldAfter := ClaimStage.held?_of_standing? hAfter
    refine hOrderly.moved hOld (fun other hOther => ?_) (fun other hOther => ?_)
      (fun j hNe other hOther => ⟨?_, ?_⟩) fun j _ other hOther => ?_
    · rw [hHeldAfter] at hOther
      rw [hLocked, ← Option.some.inj hOther]
      exact hOrderly.locked i inode (hHere hHeld)
    · rw [hAfter] at hOther
      rw [hFind, ← Option.some.inj hOther]
      exact hOrderly.named i inode (hStands hStage)
    · rw [hLocked]
      exact hOrderly.locked j other hOther
    · rw [hHeldAfter]
      exact hKeeps hHeld j hNe other hOther
    · rw [hFind]
      exact hOrderly.named j other hOther
  | @unlinked store _ hLocked =>
    refine hOrderly.moved hOld (fun other hOther => ?_) nofun
      (fun j hNe other hOther => ⟨?_, hKeeps rfl j hNe other hOther⟩) fun j hNe other hOther => ?_
    · rw [hLocked]
      exact hOrderly.locked i other (hHere hOther)
    · rw [hLocked]
      exact hOrderly.locked j other hOther
    · -- The name that went was that of the only one to stand.
      exact absurd (hOrderly.eq_of_standing? hOther (hStands rfl)) hNe
  | @closed _ inode hHeld =>
    refine hOrderly.moved hOld nofun nofun (fun j hNe other hOther => ⟨?_, nofun⟩)
      fun j _ other hOther => ?_
    · have hApart : other ≠ inode := fun hSame =>
        hKeeps hHeld j hNe other hOther (congrArg some hSame.symm)
      exact (List.mem_erase_of_ne hApart).mpr (hOrderly.locked j other hOther)
    · rw [FileSystem.unlock, FileSystem.find_withLocked]
      exact hOrderly.named j other hOther

end Moved

theorem bind_arriving {place? : ClaimStage → Option Nat} (hNone : place? .arriving = none)
    (claimants : List ClaimStage) (j : Nat) :
    (claimants ++ [ClaimStage.arriving])[j]?.bind place? = claimants[j]?.bind place? := by
  rcases Nat.lt_trichotomy j claimants.length with hLt | rfl | hGt
  · rw [List.getElem?_append_left hLt]
  · rw [List.getElem?_concat_length, List.getElem?_eq_none (Nat.le_refl _)]
    exact hNone
  · have hPast : (claimants ++ [ClaimStage.arriving]).length ≤ j := by
      rw [List.length_append, List.length_singleton]
      exact hGt
    rw [List.getElem?_eq_none hPast, List.getElem?_eq_none (Nat.le_of_lt hGt)]

theorem mem_held {i inode : Nat} (hHeld : contest.held? i = some inode) :
    inode ∈ contest.claimants.filterMap ClaimStage.held? := by
  obtain ⟨stage, hStage, hInode⟩ := Option.bind_eq_some_iff.mp hHeld
  exact List.mem_filterMap.mpr ⟨stage, List.mem_of_getElem? hStage, hInode⟩

theorem Orderly.step (hOrderly : contest.Orderly) {event : ContestEvent}
    (hStep : contest.step? event = some next) : next.Orderly := by
  cases event with
  | arrived =>
    obtain rfl := Option.some.inj hStep
    refine ⟨fun i inode hHeld => ?_, fun i j inode hHeld hAlso => ?_, fun i inode hStands => ?_⟩
    · rw [held?, bind_arriving rfl] at hHeld
      exact hOrderly.locked i inode hHeld
    · rw [held?, bind_arriving rfl] at hHeld hAlso
      exact hOrderly.alone i j inode hHeld hAlso
    · rw [standing?, bind_arriving rfl] at hStands
      exact hOrderly.named i inode hStands
  | acted i event =>
    obtain ⟨old, hOld, hActed⟩ := Option.bind_eq_some_iff.mp hStep
    obtain ⟨⟨after, files⟩, hAfter, hNext⟩ := Option.bind_eq_some_iff.mp hActed
    obtain rfl := Option.some.inj hNext
    exact hOrderly.step_acted hOld (ClaimStage.transition_of_step? hAfter)
  | elsewhere files =>
    obtain ⟨⟨hFind, hLocked⟩, hNext⟩ := Option.ite_none_right_eq_some.mp hStep
    obtain rfl := Option.some.inj hNext
    refine ⟨fun i inode hHeld => hLocked inode (mem_held hHeld), hOrderly.alone,
      fun i inode hStands => ?_⟩
    rw [hOrderly.named i inode hStands] at hFind
    rcases hNow : files.find contest.path with failure | found <;> rw [hNow] at hFind
    · cases hFind
    · exact congrArg Except.ok (Option.some.inj hFind)

theorem path_of_step? {event : ContestEvent} (hStep : contest.step? event = some next) :
    next.path = contest.path := by
  cases event with
  | arrived =>
    obtain rfl := Option.some.inj hStep
    rfl
  | acted i event =>
    obtain ⟨old, -, hActed⟩ := Option.bind_eq_some_iff.mp hStep
    obtain ⟨⟨after, files⟩, -, hNext⟩ := Option.bind_eq_some_iff.mp hActed
    obtain rfl := Option.some.inj hNext
    rfl
  | elsewhere files =>
    obtain ⟨-, hNext⟩ := Option.ite_none_right_eq_some.mp hStep
    obtain rfl := Option.some.inj hNext
    rfl

theorem Orderly.run (hOrderly : contest.Orderly) {events : List ContestEvent} {last : Contest}
    (hRun : contest.run? events = some last) : last.Orderly ∧ last.path = contest.path := by
  induction events generalizing contest with
  | nil =>
    obtain rfl := Option.some.inj hRun
    exact ⟨hOrderly, rfl⟩
  | cons event later ih =>
    obtain ⟨next, hStep, hRest⟩ := Option.bind_eq_some_iff.mp hRun
    obtain ⟨hLast, hPath⟩ := ih (hOrderly.step hStep) hRest
    exact ⟨hLast, hPath.trans (path_of_step? hStep)⟩

theorem orderly_of_new (files : FileSystem) (path : String) :
    Orderly { files := files, path := path } where
  locked := fun i _ hHeld => by cases hHeld
  alone := fun i _ _ hHeld => by cases hHeld
  named := fun i _ hStands => by cases hStands

/-- While somebody stands, the others can do no more to the files than take and give back locks. -/
theorem Orderly.files_eq (hOrderly : contest.Orderly) {i j inode : Nat}
    (hStands : contest.standing? i = some inode) (hNe : j ≠ i) {event : ClaimEvent}
    (hStep : contest.step? (.acted j event) = some next) :
    next.files = { contest.files with locked := next.files.locked } ∧
      next.standing? i = some inode := by
  obtain ⟨old, hOld, hActed⟩ := Option.bind_eq_some_iff.mp hStep
  obtain ⟨⟨after, files⟩, hAfter, hNext⟩ := Option.bind_eq_some_iff.mp hActed
  obtain rfl := Option.some.inj hNext
  have hStill : (contest.moved j after files).standing? i = some inode := by
    rw [standing?, claimants_moved_of_ne hNe.symm]
    exact hStands
  refine ⟨?_, hStill⟩
  show files = { contest.files with locked := files.locked }
  have hOther {other : Nat} : old.standing? ≠ some other := fun hAlso =>
    hNe (hOrderly.eq_of_standing? (by rw [standing?, hOld]; exact hAlso) hStands)
  cases ClaimStage.transition_of_step? hAfter with
  | opened hOpen => rw [(FileStore.eq_of_openFile (hOrderly.named i inode hStands) hOpen).2]
  | turnedAway hStage => rfl
  | locked hFree => rfl
  | admitted hNamed => rfl
  | refused => rfl
  | worked hStage hAfter hFind hLocked => exact absurd hStage hOther
  | unlinked hLocked => exact absurd rfl hOther
  | closed hHeld => rfl

/-- **At most one stands, and on the file that the path leads to.**  However many claimants come to
a path, in whatever order their steps are taken and wherever they break off: at most one of them has
passed the check and has neither deleted the name nor closed its file.  While one has, the path
leads to its file, and a step of any other leaves it standing and all files as they are, but for
locks. -/
theorem one_stands {files : FileSystem} {path : String} {events : List ContestEvent}
    {last : Contest} (hRun : run? { files := files, path := path } events = some last) :
    (∀ i j inode other, last.standing? i = some inode → last.standing? j = some other → i = j) ∧
    (∀ i inode, last.standing? i = some inode → last.files.find path = .ok inode) ∧
    ∀ i j inode event next, last.standing? i = some inode → j ≠ i →
      last.step? (.acted j event) = some next →
      next.standing? i = some inode ∧ next.files.find path = .ok inode ∧
      next.files = { last.files with locked := next.files.locked } := by
  obtain ⟨hOrderly, rfl⟩ := (orderly_of_new files path).run hRun
  refine ⟨fun i j inode other => hOrderly.eq_of_standing?, hOrderly.named, ?_⟩
  intro i j inode event next hStands hNe hStep
  obtain ⟨hFiles, hStill⟩ := hOrderly.files_eq hStands hNe hStep
  refine ⟨hStill, ?_, hFiles⟩
  rw [hFiles, FileSystem.find_withLocked]
  exact hOrderly.named i inode hStands

/-- The second claimant waits with the first one's file open, while a third finds the name free. -/
theorem one_stands_of_three_claimants :
    let events : List ContestEvent :=
      [.arrived, .acted 0 .opened, .acted 0 .locked, .acted 0 .checked, .acted 0 .emptied,
        .arrived, .acted 1 .opened, .acted 0 (.appended [97, 10] [.accepted 2]),
        .acted 0 .unlinked, .acted 0 .closed, .arrived, .acted 1 .locked, .acted 2 .opened,
        .acted 2 .locked, .acted 2 .checked, .acted 1 .checked, .acted 2 .emptied]
    ∃ last next, run? { files := {}, path := "/a" } events = some last ∧
      last.claimants = [.gone, .refused 1, .live { path := "/a", inode := 2 }] ∧
      last.step? (.acted 1 .closed) = some next ∧
      next.standing? 2 = some 2 ∧ next.files.find "/a" = .ok 2 := by
  intro events
  obtain ⟨last, next, hRun, hClaimants, hStep⟩ : ∃ last next,
      run? { files := {}, path := "/a" } events = some last ∧
      last.claimants = [.gone, .refused 1, .live { path := "/a", inode := 2 }] ∧
      last.step? (.acted 1 .closed) = some next := ⟨_, _, by cbv, rfl, rfl⟩
  have hStands : last.standing? 2 = some 2 := by
    rw [standing?, hClaimants]
    rfl
  obtain ⟨-, -, hOthers⟩ := one_stands hRun
  obtain ⟨hStill, hFind, -⟩ := hOthers 2 1 2 _ next hStands (by decide) hStep
  exact ⟨last, next, hRun, hClaimants, hStep, hStill, hFind⟩

end Contest

end PacketLog
