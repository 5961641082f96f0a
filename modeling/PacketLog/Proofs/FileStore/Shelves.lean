import PacketLog.Proofs.FileStore.Appends
import PacketLog.Proofs.FileSystem.WellFormed

/-!
# Runs over a shelf of stores

Stores are created on any paths and into any slots, appended to, read, removed and
dropped, and in between others rename, link and unlink what they like.  `appended` reads
off the record of such a run what has been appended to a slot since its store was created.

The store in a slot has the lock on its file, and no lock is held twice, so two slots never
share a file (`Sound`), whatever becomes of the names.  Whoever acts on one slot spares
the files of all others (`Spares`): a new store empties a file only if it holds the lock
on it.  Names are not among what a store looks at again, so a store shows what was
appended to it and no more (`readAll_run`).
-/

namespace PacketLog

inductive ShelfEvent
  | create (slot path : String) (answers : CreateAnswers := {})
  /-- An act on the store in a slot, if there is one; the write calls of an append answer
  `answers`, and a read goes as `answer` says. -/
  | act (slot : String) (act : StoreAct) (answers : List WriteAnswer := [])
    (answer : ReadAnswer := .whole)
  | outside (act : OutsideAct)
deriving DecidableEq

inductive ShelfAnswer
  | created (answer : Except Error FileStore)
  | acted (outcome : Outcome Bytes)
  /-- The slot is empty. -/
  | absent
  | outside (answer : Except IoFailure Unit)

/-- Nobody but the stores changes the bytes of a file. -/
def ShelfEvent.keepsBytes : ShelfEvent → Bool
  | .outside done => done.keepsBytes
  | _ => true

/-! ## Files that are not one's own -/

theorem FileSystem.node?_setContents_of_ne (files : FileSystem) {inode other : Nat}
    (hNe : other ≠ inode) (contents : Bytes) :
    (files.setContents inode contents).node? other = files.node? other := by
  rw [setContents]
  split
  · exact node?_setNode_of_ne hNe _
  · rfl

namespace FileStore

theorem node?_append_of_ne (store : FileStore) (files : FileSystem) (bytes : Bytes)
    (answers : List WriteAnswer) {other : Nat} (hNe : other ≠ store.inode) :
    (store.append files bytes answers).2.2.node? other = files.node? other := by
  induction store, files, bytes, answers using append_induction with
  | done | waiting | zero | failed => rfl
  | accepted store files bytes count later hBytes ih =>
    rw [ih hNe, FileSystem.appendTo_eq, FileSystem.node?_setContents_of_ne _ hNe]
  | interrupted store files bytes failure later hBytes hAgain ih => exact ih hNe

/-- The store has taken a lock that was free, and has emptied what it is the lock on. -/
structure Claims (files : FileSystem) (store : FileStore) (after : FileSystem) : Prop where
  wellFormed : after.WellFormed
  not_mem_locked : store.inode ∉ files.locked
  locked_eq : after.locked = store.inode :: files.locked
  isOpenable : after.isOpenable store.inode
  node?_eq : ∀ other, other ≠ store.inode → files.isOpenable other →
    after.node? other = files.node? other
  node?_self : after.isRegular store.inode → after.node? store.inode = some (.file [])
  length_eq : store.length = 0

theorem renames_of_create_error {files after : FileSystem} {path : String}
    {answers : CreateAnswers} {error : Error} (hFiles : files.WellFormed)
    (hCreate : create files path answers = (.error error, after)) : files.Renames after := by
  rcases exists_of_create_error hCreate with rfl | ⟨absolute, inode, hOpen⟩
  · exact .refl hFiles
  · exact FileSystem.renames_of_openOrCreate hFiles (openOrCreate_of_openFile hOpen)

theorem claims_of_create {files after : FileSystem} {path : String} {answers : CreateAnswers}
    {store : FileStore} (hFiles : files.WellFormed)
    (hCreate : create files path answers = (.ok store, after)) : Claims files store after := by
  have hEmpty := fun hRegular => node?_of_create hCreate hRegular
  obtain ⟨opened, hOpen, hFree, -, hLength, rfl⟩ := exists_of_create hCreate
  have hOpened := openOrCreate_of_openFile hOpen
  have hRenames := FileSystem.renames_of_openOrCreate hFiles hOpened
  have hSkeleton := FileSystem.skeleton_setContents
    { opened with locked := store.inode :: opened.locked } store.inode []
  refine ⟨hRenames.wellFormed.of_skeleton hSkeleton, ?_, ?_, ?_, fun other hNe hOther => ?_, hEmpty,
    hLength⟩
  · rwa [← hRenames.locked_eq]
  · rw [FileSystem.locked_setContents, ← hRenames.locked_eq]
  · rw [← FileSystem.isOpenable_skeleton, hSkeleton]
    exact (opened.isOpenable_skeleton store.inode).trans
      (FileSystem.isOpenable_of_openOrCreate hFiles hOpened)
  · rw [FileSystem.node?_setContents_of_ne _ hNe]
    exact hRenames.node?_of_isOpenable hOther

end FileStore

namespace Shelf

def step (shelf : Shelf) : ShelfEvent → ShelfAnswer × Shelf
  | .create slot path answers =>
    let (created, shelf) := shelf.create slot path answers
    (.created created, shelf)
  | .act slot act answers answer =>
    match shelf.store? slot with
    | some store =>
      let (outcome, shelf) := shelf.perform slot store act answers answer
      (.acted outcome, shelf)
    | none => (.absent, shelf)
  | .outside act =>
    let (answer, shelf) := shelf.outside act
    (.outside answer, shelf)

def run (shelf : Shelf) : List ShelfEvent → List (ShelfEvent × ShelfAnswer) × Shelf
  | [] => ([], shelf)
  | event :: later =>
    let (answer, shelf) := shelf.step event
    let (record, shelf) := shelf.run later
    ((event, answer) :: record, shelf)

/-- An append that was made returned without an error. -/
def writesWhole : ShelfEvent × ShelfAnswer → Bool
  | (.act _ (.append _) _ _, .acted (.ok _)) => true
  | (.act _ (.append _) _ _, .acted _) => false
  | _ => true

/-- What becomes of the packets appended to a slot: a new store begins with none. -/
def noted (slot : String) (packets : List Bytes) : ShelfEvent × ShelfAnswer → List Bytes
  | (.create other _ _, .created (.ok _)) => if other = slot then [] else packets
  | (.act other (.append data) _ _, .acted (.ok _)) =>
    if other = slot then packets ++ [data] else packets
  | _ => packets

/-- The packets appended to a slot since its store was created. -/
def appended (slot : String) (record : List (ShelfEvent × ShelfAnswer)) : List Bytes :=
  record.foldl (noted slot) []

/-! ## Slots -/

section Slots

variable (shelf : Shelf) {slot other : String} (store : FileStore)

theorem store?_setSlot_self : (shelf.setSlot slot store).store? slot = some store :=
  List.lookup_cons_self

theorem store?_setSlot_of_ne (hNe : other ≠ slot) :
    (shelf.setSlot slot store).store? other = shelf.store? other := by
  rw [store?, setSlot, List.lookup_cons, beq_false_of_ne hNe]
  exact lookup_filter_of_ne shelf.slots hNe

theorem store?_clearSlot_self : (shelf.clearSlot slot).store? slot = none :=
  lookup_filter_self shelf.slots slot

theorem store?_clearSlot_of_ne (hNe : other ≠ slot) :
    (shelf.clearSlot slot).store? other = shelf.store? other :=
  lookup_filter_of_ne shelf.slots hNe

end Slots

/-! ## Stores that do not share files -/

/-- Each store has the lock on a file or a device, and no two have the same one. -/
structure Sound (shelf : Shelf) : Prop where
  wellFormed : shelf.files.WellFormed
  mem_locked : ∀ slot store, shelf.store? slot = some store → store.inode ∈ shelf.files.locked
  isOpenable : ∀ slot store, shelf.store? slot = some store →
    shelf.files.isOpenable store.inode
  slot_unique : ∀ slot other store another, shelf.store? slot = some store →
    shelf.store? other = some another → store.inode = another.inode → slot = other

theorem sound_empty {files : FileSystem} (hFiles : files.WellFormed) :
    ({ files := files } : Shelf).Sound where
  wellFormed := hFiles
  mem_locked := nofun
  isOpenable := nofun
  slot_unique := nofun

/-- From `shelf` to `after` every slot but one has kept its store, and that store its file. -/
structure Spares (shelf : Shelf) (slot : String) (after : Shelf) : Prop where
  wellFormed : after.files.WellFormed
  store?_eq : ∀ other, other ≠ slot → after.store? other = shelf.store? other
  node?_eq : ∀ other store, other ≠ slot → shelf.store? other = some store →
    after.files.node? store.inode = shelf.files.node? store.inode
  mem_locked : ∀ other store, other ≠ slot → shelf.store? other = some store →
    store.inode ∈ after.files.locked

variable {shelf after : Shelf} {slot : String}

/-- A store for `slot` has a file to itself: no other slot has that one. -/
structure Owns (shelf : Shelf) (slot : String) (files : FileSystem) (store : FileStore) : Prop where
  mem_locked : store.inode ∈ files.locked
  isOpenable : files.isOpenable store.inode
  inode_ne : ∀ other another, other ≠ slot → shelf.store? other = some another →
    another.inode ≠ store.inode

theorem Sound.act (hSound : shelf.Sound) (hSpares : shelf.Spares slot after)
    (hOwns : ∀ store, after.store? slot = some store → shelf.Owns slot after.files store) :
    after.Sound where
  wellFormed := hSpares.wellFormed
  mem_locked := fun other store hStore => by
    by_cases hHere : other = slot
    · exact (hOwns store (hHere ▸ hStore)).mem_locked
    · rw [hSpares.store?_eq other hHere] at hStore
      exact hSpares.mem_locked other store hHere hStore
  isOpenable := fun other store hStore => by
    by_cases hHere : other = slot
    · exact (hOwns store (hHere ▸ hStore)).isOpenable
    · rw [hSpares.store?_eq other hHere] at hStore
      rw [FileSystem.isOpenable_congr (hSpares.node?_eq other store hHere hStore)]
      exact hSound.isOpenable other store hStore
  slot_unique := fun one other store another hStore hAnother hSame => by
    by_cases hOne : one = slot
    · by_cases hOther : other = slot
      · rw [hOne, hOther]
      · rw [hSpares.store?_eq other hOther] at hAnother
        have hOwn := hOwns store (hOne ▸ hStore)
        exact absurd hSame.symm (hOwn.inode_ne other another hOther hAnother)
    · rw [hSpares.store?_eq one hOne] at hStore
      by_cases hOther : other = slot
      · exact absurd hSame ((hOwns another (hOther ▸ hAnother)).inode_ne one store hOne hStore)
      · rw [hSpares.store?_eq other hOther] at hAnother
        exact hSound.slot_unique one other store another hStore hAnother hSame

theorem Sound.evolve (hSound : shelf.Sound) {files : FileSystem}
    (hEvolves : shelf.files.Evolves files) : ({ shelf with files := files } : Shelf).Sound where
  wellFormed := hEvolves.wellFormed
  mem_locked := fun slot store hStore => by
    rw [hEvolves.locked_eq]
    exact hSound.mem_locked slot store hStore
  isOpenable := fun slot store hStore =>
    hEvolves.isOpenable _ (hSound.isOpenable slot store hStore)
  slot_unique := hSound.slot_unique

/-! ## Acts on one slot -/

/-- The files once the store in a slot is closed, if there is one. -/
def closeSlot (shelf : Shelf) (slot : String) (files : FileSystem) : FileSystem :=
  match shelf.store? slot with
  | some old => old.close files
  | none => files

theorem create_eq {path : String} {answers : CreateAnswers} {store : FileStore}
    {files : FileSystem} (hNew : FileStore.create shelf.files path answers = (.ok store, files)) :
    shelf.create slot path answers =
      (.ok store,
        ({ shelf with files := shelf.closeSlot slot files } : Shelf).setSlot slot store) := by
  rw [Shelf.create, hNew]
  rfl

theorem create_eq_error {path : String} {answers : CreateAnswers} {error : Error}
    {files : FileSystem}
    (hNew : FileStore.create shelf.files path answers = (.error error, files)) :
    shelf.create slot path answers = (.error error, { shelf with files := files }) := by
  rw [Shelf.create, hNew]

theorem skeleton_closeSlot (shelf : Shelf) (slot : String) (files : FileSystem) :
    (shelf.closeSlot slot files).skeleton = files.skeleton := by
  rw [closeSlot]
  split <;> rfl

theorem node?_closeSlot (shelf : Shelf) (slot : String) (files : FileSystem) (inode : Nat) :
    (shelf.closeSlot slot files).node? inode = files.node? inode := by
  rw [closeSlot]
  split <;> rfl

/-- Closing a store gives back the lock on its own file alone. -/
theorem mem_locked_closeSlot {files : FileSystem} {inode : Nat} (hLocked : inode ∈ files.locked)
    (hNe : ∀ old, shelf.store? slot = some old → inode ≠ old.inode) :
    inode ∈ (shelf.closeSlot slot files).locked := by
  rw [closeSlot]
  split
  · next old hOld => exact (List.mem_erase_of_ne (hNe old hOld)).mpr hLocked
  · exact hLocked

theorem Sound.inode_ne (hSound : shelf.Sound) {other : String} (hNe : other ≠ slot)
    {store another : FileStore} (hStore : shelf.store? slot = some store)
    (hAnother : shelf.store? other = some another) : another.inode ≠ store.inode :=
  fun hSame => hNe (hSound.slot_unique other slot another store hAnother hStore hSame)

/-- A store that is closed leaves its slot empty, whatever became of its name before. -/
theorem Sound.vacate (hSound : shelf.Sound) {store : FileStore}
    (hStore : shelf.store? slot = some store) {files : FileSystem}
    (hRenames : shelf.files.Renames files) :
    shelf.Spares slot (({ shelf with files := store.close files } : Shelf).clearSlot slot) where
  wellFormed := hRenames.wellFormed.of_skeleton rfl
  store?_eq := fun _ hNe => store?_clearSlot_of_ne _ hNe
  node?_eq := fun other another _ hAnother =>
    hRenames.node?_of_isOpenable (hSound.isOpenable other another hAnother)
  mem_locked := fun other another hNe hAnother => by
    refine (List.mem_erase_of_ne (hSound.inode_ne hNe hStore hAnother)).mpr ?_
    rw [hRenames.locked_eq]
    exact hSound.mem_locked other another hAnother

theorem Sound.append (hSound : shelf.Sound) {store grown : FileStore}
    (hStore : shelf.store? slot = some store) {data : Bytes} {answers : List WriteAnswer}
    {outcome : Outcome Unit} {files : FileSystem}
    (hAppend : store.append shelf.files data answers = (outcome, grown, files)) :
    shelf.Spares slot (({ shelf with files := files } : Shelf).setSlot slot grown) ∧
      shelf.Owns slot files grown := by
  obtain ⟨hInode, hSkeleton, hLocked⟩ := store.frame_append shelf.files data answers
  rw [hAppend] at hInode hSkeleton hLocked
  dsimp only at hInode hSkeleton hLocked
  refine ⟨⟨hSound.wellFormed.of_skeleton hSkeleton, fun other hNe => store?_setSlot_of_ne _ _ hNe,
    fun other another hNe hAnother => ?_, fun other another hNe hAnother => ?_⟩, ⟨?_, ?_, ?_⟩⟩
  · have hNode := store.node?_append_of_ne shelf.files data answers
      (hSound.inode_ne hNe hStore hAnother)
    rwa [hAppend] at hNode
  · show another.inode ∈ files.locked
    rw [hLocked]
    exact hSound.mem_locked other another hAnother
  · rw [hLocked, hInode]
    exact hSound.mem_locked slot store hStore
  · rw [hInode, ← FileSystem.isOpenable_skeleton, hSkeleton, FileSystem.isOpenable_skeleton]
    exact hSound.isOpenable slot store hStore
  · rw [hInode]
    exact fun other another hNe hAnother => hSound.inode_ne hNe hStore hAnother

/-- A new store takes the place of the one that was in its slot, which is closed. -/
theorem Sound.create (hSound : shelf.Sound) (slot : String) {store : FileStore} {files : FileSystem}
    (hClaims : FileStore.Claims shelf.files store files) :
    shelf.Spares slot
        (({ shelf with files := shelf.closeSlot slot files } : Shelf).setSlot slot store) ∧
      shelf.Owns slot (shelf.closeSlot slot files) store := by
  have hOther (other : String) (another : FileStore)
      (hAnother : shelf.store? other = some another) : another.inode ≠ store.inode :=
    fun hSame => hClaims.not_mem_locked (hSame ▸ hSound.mem_locked other another hAnother)
  have hSkeleton := shelf.skeleton_closeSlot slot files
  refine ⟨⟨hClaims.wellFormed.of_skeleton hSkeleton, fun other hNe => store?_setSlot_of_ne _ _ hNe,
    fun other another hNe hAnother => ?_, fun other another hNe hAnother => ?_⟩,
    ⟨?_, ?_, fun other another _ => hOther other another⟩⟩
  · exact (shelf.node?_closeSlot slot files another.inode).trans
      (hClaims.node?_eq _ (hOther other another hAnother)
        (hSound.isOpenable other another hAnother))
  · refine mem_locked_closeSlot ?_ fun old hOld => hSound.inode_ne hNe hOld hAnother
    rw [hClaims.locked_eq]
    exact List.mem_cons_of_mem _ (hSound.mem_locked other another hAnother)
  · refine mem_locked_closeSlot ?_ fun old hOld => (hOther slot old hOld).symm
    rw [hClaims.locked_eq]
    exact List.mem_cons_self
  · rw [FileSystem.isOpenable_congr (shelf.node?_closeSlot slot files store.inode)]
    exact hClaims.isOpenable

/-! ## One step -/

/-- If its file is a regular one, the store shows `packets`. -/
def Shows (files : FileSystem) (store : FileStore) (packets : List Bytes) : Prop :=
  files.isRegular store.inode →
    files.node? store.inode = some (.file packets.flatten.reverse) ∧
      store.length = packets.flatten.length

theorem Shows.congr {files filesAfter : FileSystem} {store : FileStore} {packets : List Bytes}
    (hShows : Shows files store packets)
    (hNode : filesAfter.node? store.inode = files.node? store.inode) :
    Shows filesAfter store packets := by
  intro hRegular
  rw [FileSystem.isRegular_congr hNode] at hRegular
  rw [hNode]
  exact hShows hRegular

theorem Shows.append {files filesAfter : FileSystem} {store grown : FileStore}
    {packets : List Bytes} (hShows : Shows files store packets) {data : Bytes}
    {answers : List WriteAnswer}
    (hAppend : store.append files data answers = (.ok (), grown, filesAfter)) :
    Shows filesAfter grown (packets ++ [data]) := by
  intro hRegular
  obtain ⟨hExtends, hWhole⟩ := FileStore.append_spec store files data answers hAppend
  rw [hWhole.mp rfl] at hExtends
  obtain ⟨-, hSkeleton, -⟩ := store.frame_append files data answers
  rw [hAppend] at hSkeleton
  rw [← FileSystem.isRegular_skeleton, hSkeleton, FileSystem.isRegular_skeleton,
    hExtends.inode_eq] at hRegular
  obtain ⟨hNode, hLength⟩ := hShows hRegular
  rw [List.flatten_append, List.flatten_singleton, List.reverse_append, List.length_append,
    hExtends.inode_eq, hExtends.node?_eq _ hNode, hExtends.length_eq, hLength]
  exact ⟨rfl, rfl⟩

/-- What a step does: it changes files that belong to no store, or it acts on one slot. -/
inductive Moves (shelf : Shelf) (event : ShelfEvent) (answer : ShelfAnswer) : Shelf → Prop
  | elsewhere (files : FileSystem) (hEvolves : shelf.files.Evolves files)
      (hRenames : event.keepsBytes → shelf.files.Renames files)
      (hNoted : ∀ slot packets, noted slot packets (event, answer) = packets) :
      Moves shelf event answer { shelf with files := files }
  | within (slot : String) (after : Shelf) (hSpares : shelf.Spares slot after)
      (hOwns : ∀ store, after.store? slot = some store → shelf.Owns slot after.files store)
      (hNoted : ∀ other packets, other ≠ slot → noted other packets (event, answer) = packets)
      (hShows : writesWhole (event, answer) → ∀ packets,
        (∀ store, shelf.store? slot = some store → Shows shelf.files store packets) →
        ∀ store, after.store? slot = some store →
          Shows after.files store (noted slot packets (event, answer))) :
      Moves shelf event answer after

theorem Moves.vacate (hSound : shelf.Sound) {store : FileStore}
    (hStore : shelf.store? slot = some store) {files : FileSystem}
    (hRenames : shelf.files.Renames files) {event : ShelfEvent} {answer : ShelfAnswer}
    (hNoted : ∀ other packets, noted other packets (event, answer) = packets) :
    Moves shelf event answer
      (({ shelf with files := store.close files } : Shelf).clearSlot slot) := by
  have hEmpty (found : FileStore) :
      (({ shelf with files := store.close files } : Shelf).clearSlot slot).store? slot ≠
        some found := by
    rw [store?_clearSlot_self]
    exact nofun
  exact .within slot _ (hSound.vacate hStore hRenames)
    (fun found hFound => absurd hFound (hEmpty found)) (fun other packets _ => hNoted other packets)
    (fun _ _ _ found hFound => absurd hFound (hEmpty found))

theorem moves_create (hSound : shelf.Sound) (slot path : String) (answers : CreateAnswers) :
    Moves shelf (.create slot path answers) (shelf.step (.create slot path answers)).1
      (shelf.step (.create slot path answers)).2 := by
  rw [step]
  rcases hNew : FileStore.create shelf.files path answers with ⟨error | store, files⟩
  · rw [create_eq_error hNew]
    have hRenames := FileStore.renames_of_create_error hSound.wellFormed hNew
    exact .elsewhere files hRenames.evolves (fun _ => hRenames) fun _ _ => rfl
  · rw [create_eq hNew]
    have hClaims := FileStore.claims_of_create hSound.wellFormed hNew
    obtain ⟨hSpares, hOwns⟩ := hSound.create slot hClaims
    refine .within slot _ hSpares (fun found hFound => ?_) (fun other packets hNe => ?_)
      (fun _ packets _ found hFound hRegular => ?_)
    · obtain rfl := Option.some.inj ((store?_setSlot_self _ store).symm.trans hFound)
      exact hOwns
    · exact if_neg hNe.symm
    · obtain rfl := Option.some.inj ((store?_setSlot_self _ store).symm.trans hFound)
      have hNode := shelf.node?_closeSlot slot files store.inode
      rw [show noted slot packets (.create slot path answers, .created (.ok store)) = []
        from if_pos rfl]
      refine ⟨hNode.trans (hClaims.node?_self ?_), hClaims.length_eq⟩
      rwa [← FileSystem.isRegular_congr hNode]

theorem moves_append (hSound : shelf.Sound) {store : FileStore}
    (hStore : shelf.store? slot = some store) (data : Bytes) (answers : List WriteAnswer)
    (answer : ReadAnswer) :
    Moves shelf (.act slot (.append data) answers answer)
      (.acted (shelf.perform slot store (.append data) answers answer).1)
      (shelf.perform slot store (.append data) answers answer).2 := by
  rw [perform]
  rcases hAppend : store.append shelf.files data answers with ⟨outcome, grown, files⟩
  obtain ⟨hSpares, hOwns⟩ := hSound.append hStore hAppend
  refine .within slot _ hSpares (fun found hFound => ?_) (fun other packets hNe => ?_)
    (fun hOk packets hBefore found hFound => ?_)
  · obtain rfl := Option.some.inj ((store?_setSlot_self _ grown).symm.trans hFound)
    exact hOwns
  · cases outcome with
    | ok _ => exact if_neg hNe.symm
    | _ => rfl
  · obtain rfl := Option.some.inj ((store?_setSlot_self _ grown).symm.trans hFound)
    cases outcome with
    | ok _ =>
      have hNoted : noted slot packets
          (.act slot (.append data) answers answer, .acted (.ok [])) = packets ++ [data] :=
        if_pos rfl
      have hShows := (hBefore store hStore).append hAppend
      rw [← hNoted] at hShows
      exact hShows
    | _ => cases hOk

theorem moves_read (hSound : shelf.Sound) {store : FileStore}
    (hStore : shelf.store? slot = some store) (answers : List WriteAnswer) (answer : ReadAnswer) :
    Moves shelf (.act slot .readAll answers answer)
      (.acted (shelf.perform slot store .readAll answers answer).1)
      (shelf.perform slot store .readAll answers answer).2 := by
  rw [perform]
  rcases hRead : store.read shelf.files answer with ⟨outcome, moved⟩
  obtain ⟨position, rfl⟩ := FileStore.exists_seek_of_read hRead
  refine .within slot _
    ⟨hSound.wellFormed, fun other hNe => store?_setSlot_of_ne _ _ hNe, fun _ _ _ _ => rfl,
      fun other another _ hAnother => hSound.mem_locked other another hAnother⟩
    (fun found hFound => ?_) (fun _ _ _ => rfl) (fun _ packets hBefore found hFound => ?_)
  · obtain rfl := Option.some.inj ((store?_setSlot_self _ _).symm.trans hFound)
    exact ⟨hSound.mem_locked slot store hStore, hSound.isOpenable slot store hStore,
      fun other another hNe hAnother =>
        show another.inode ≠ store.inode from hSound.inode_ne hNe hStore hAnother⟩
  · obtain rfl := Option.some.inj ((store?_setSlot_self _ _).symm.trans hFound)
    exact hBefore store hStore

theorem moves_act (hSound : shelf.Sound) (slot : String) (act : StoreAct)
    (answers : List WriteAnswer) (answer : ReadAnswer) :
    Moves shelf (.act slot act answers answer) (shelf.step (.act slot act answers answer)).1
      (shelf.step (.act slot act answers answer)).2 := by
  have hRefl := FileSystem.Renames.refl hSound.wellFormed
  rw [step]
  cases hStore : shelf.store? slot with
  | none =>
    refine .elsewhere shelf.files hRefl.evolves (fun _ => hRefl) fun _ _ => ?_
    cases act <;> rfl
  | some store =>
    cases act with
    | append data => exact moves_append hSound hStore data answers answer
    | readAll => exact moves_read hSound hStore answers answer
    | drop => exact .vacate hSound hStore hRefl fun _ _ => rfl
    | remove =>
      show Moves shelf _ (.acted (shelf.perform slot store .remove answers answer).1)
        (shelf.perform slot store .remove answers answer).2
      rw [perform, FileStore.remove]
      rcases hUnlink : FileStore.unlinkFile shelf.files store.path with error | files
      · exact .vacate hSound hStore hRefl fun _ _ => rfl
      · exact .vacate hSound hStore (FileSystem.renames_of_unlink hSound.wellFormed
          (FileSystem.eq_ok_of_guarded hUnlink)) fun _ _ => rfl

theorem moves_outside (hSound : shelf.Sound) (act : OutsideAct) :
    Moves shelf (.outside act) (shelf.step (.outside act)).1 (shelf.step (.outside act)).2 := by
  rw [step, outside]
  rcases hResult : FileSystem.guarded act.paths (act.result shelf.files) with failure | files
  · have hRefl := FileSystem.Renames.refl hSound.wellFormed
    exact .elsewhere shelf.files hRefl.evolves (fun _ => hRefl) fun _ _ => rfl
  · have hOk := FileSystem.ok_of_guarded hResult
    exact .elsewhere files (OutsideAct.evolves hSound.wellFormed hOk)
      (fun hKeeps => OutsideAct.renames hSound.wellFormed hKeeps hOk) fun _ _ => rfl

theorem moves_step (hSound : shelf.Sound) (event : ShelfEvent) :
    Moves shelf event (shelf.step event).1 (shelf.step event).2 := by
  cases event with
  | create slot path answers => exact moves_create hSound slot path answers
  | act slot act answers answer => exact moves_act hSound slot act answers answer
  | outside act => exact moves_outside hSound act

theorem Sound.of_moves (hSound : shelf.Sound) {event : ShelfEvent} {answer : ShelfAnswer}
    (hMoves : Moves shelf event answer after) : after.Sound := by
  cases hMoves with
  | elsewhere files hEvolves => exact hSound.evolve hEvolves
  | within slot after hSpares hOwns => exact hSound.act hSpares hOwns

/-- Every slot goes on to show what has been noted of it. -/
theorem Shows.of_moves (hSound : shelf.Sound) {event : ShelfEvent} {answer : ShelfAnswer}
    (hMoves : Moves shelf event answer after) (hKeeps : event.keepsBytes)
    (hWrites : writesWhole (event, answer)) {packets : String → List Bytes}
    (hShows : ∀ slot store, shelf.store? slot = some store →
      Shows shelf.files store (packets slot)) {slot : String} {store : FileStore}
    (hStore : after.store? slot = some store) :
    Shows after.files store (noted slot (packets slot) (event, answer)) := by
  cases hMoves with
  | elsewhere files _ hRenames hNoted =>
    rw [hNoted]
    exact (hShows slot store hStore).congr
      ((hRenames hKeeps).node?_of_isOpenable (hSound.isOpenable slot store hStore))
  | within here after hSpares _ hNoted hHere =>
    by_cases hSlot : slot = here
    · subst hSlot
      exact hHere hWrites _ (hShows slot) store hStore
    · rw [hNoted slot _ hSlot]
      rw [hSpares.store?_eq slot hSlot] at hStore
      exact (hShows slot store hStore).congr (hSpares.node?_eq slot store hSlot hStore)

/-! ## Runs -/

theorem run_cons (shelf : Shelf) (event : ShelfEvent) (later : List ShelfEvent) :
    shelf.run (event :: later) =
      ((event, (shelf.step event).1) :: ((shelf.step event).2.run later).1,
        ((shelf.step event).2.run later).2) := rfl

theorem sound_run (hSound : shelf.Sound) (events : List ShelfEvent) :
    (shelf.run events).2.Sound := by
  induction events generalizing shelf with
  | nil => exact hSound
  | cons event later ih => exact ih (hSound.of_moves (moves_step hSound event))

theorem shows_run (hSound : shelf.Sound) {events : List ShelfEvent}
    (hKeeps : ∀ event ∈ events, event.keepsBytes)
    (hWrites : ∀ entry ∈ (shelf.run events).1, writesWhole entry) (packets : String → List Bytes)
    (hShows : ∀ slot store, shelf.store? slot = some store →
      Shows shelf.files store (packets slot)) {slot : String} {store : FileStore}
    (hStore : (shelf.run events).2.store? slot = some store) :
    Shows (shelf.run events).2.files store
      ((shelf.run events).1.foldl (noted slot) (packets slot)) := by
  induction events generalizing shelf packets with
  | nil => exact hShows slot store hStore
  | cons event later ih =>
    obtain ⟨hKeep, hKeepLater⟩ := List.forall_mem_cons.mp hKeeps
    rw [run_cons] at hWrites
    obtain ⟨hWrite, hWriteLater⟩ := List.forall_mem_cons.mp hWrites
    have hMoves := moves_step hSound event
    have hNext : ∀ slot store, (shelf.step event).2.store? slot = some store →
        Shows (shelf.step event).2.files store
          (noted slot (packets slot) (event, (shelf.step event).1)) :=
      fun _ _ hThere => Shows.of_moves hSound hMoves hKeep hWrite hShows hThere
    exact ih (hSound.of_moves hMoves) hKeepLater hWriteLater _ hNext hStore

/-- A creation that fails leaves every store and every file as it is. -/
theorem create_error_spec (hSound : shelf.Sound) {path : String} {answers : CreateAnswers}
    {error : Error} (hCreate : shelf.create slot path answers = (.error error, after)) :
    after.slots = shelf.slots ∧ shelf.files.Renames after.files := by
  rcases hNew : FileStore.create shelf.files path answers with ⟨failure | store, files⟩
  · rw [create_eq_error hNew] at hCreate
    obtain ⟨-, rfl⟩ := Prod.mk.inj hCreate
    exact ⟨rfl, FileStore.renames_of_create_error hSound.wellFormed hNew⟩
  · rw [create_eq hNew] at hCreate
    cases hCreate

/-- **A store shows what was appended to it.**  Stores are created, appended to, read, removed and
dropped in any order, while others unlink, rename and link what they like but write to no file;
creations and reads may fail at any of their calls.  If no append fails, a store whose file is a
regular one shows the packets appended to it since its creation, laid end to end, and counts their
bytes, wherever reads and appends have left its position; the read leaves all as it is but for that
position.  And a creation that fails, for whatever reason, leaves all slots, all locks and all nodes
but directories as they were. -/
theorem readAll_run {files : FileSystem} (hFiles : files.WellFormed) {events : List ShelfEvent}
    (hKeeps : ∀ event ∈ events, event.keepsBytes)
    (hWrites : ∀ entry ∈ (({ files := files } : Shelf).run events).1, writesWhole entry) :
    let record := (({ files := files } : Shelf).run events).1
    let shelf := (({ files := files } : Shelf).run events).2
    (∀ slot store, shelf.store? slot = some store → shelf.files.isRegular store.inode →
      shelf.perform slot store .readAll =
        (.ok (appended slot record).flatten, shelf.setSlot slot (store.seek store.length)) ∧
      store.length = (appended slot record).flatten.length) ∧
    ∀ slot path answers error after, shelf.create slot path answers = (.error error, after) →
      after.slots = shelf.slots ∧ after.files.locked = shelf.files.locked ∧
      (∀ inode node, shelf.files.node? inode = some node → ¬ shelf.files.isDirectory inode →
        after.files.node? inode = some node) ∧
      ∀ other store, shelf.store? other = some store →
        (store.read after.files .whole).1 = (store.read shelf.files .whole).1 := by
  intro record shelf
  have hSound := sound_run (sound_empty hFiles) events
  refine ⟨fun slot store hStore hRegular => ?_, fun slot path answers error after hCreate => ?_⟩
  · have hShows : Shows shelf.files store (appended slot record) :=
      shows_run (sound_empty hFiles) hKeeps hWrites (fun _ => []) nofun hStore
    obtain ⟨hNode, hLength⟩ := hShows hRegular
    refine ⟨?_, hLength⟩
    rw [perform, store.read_whole, FileSystem.contents, FileSystem.size, hNode, hLength]
    dsimp only
    rw [List.reverse_reverse, List.length_reverse]
    rfl
  · obtain ⟨hSlots, hRenames⟩ := create_error_spec hSound hCreate
    refine ⟨hSlots, hRenames.locked_eq, hRenames.node?_eq, fun other store hStore => ?_⟩
    rw [store.read_whole, store.read_whole, FileSystem.contents, FileSystem.contents,
      hRenames.node?_of_isOpenable (hSound.isOpenable other store hStore)]

/-- The file is renamed and gets a second name; a new one takes its place, and while both stores
live the second name is refused to a third.  A read breaks off half-way, and what the dropped store
has left is not emptied for want of room. -/
theorem readAll_run_of_moved_file :
    let events : List ShelfEvent :=
      [.create "x" "/a",
        .act "x" (.append [97, 98, 10]) [.accepted 1, .failed .interruptedCall, .accepted 2],
        .outside (.rename "/a" "/b"), .create "y" "/a", .act "y" (.append [99, 10]) [.accepted 2],
        .outside (.addHardLink "/b" "/c"), .create "y" "/c",
        .act "x" .readAll [] (.failed SystemFailure.noSpace.toIoFailure 1),
        .outside (.unlink "/b"), .act "x" (.append [100, 10]) [.accepted 2], .act "y" .drop]
    let start : Shelf := { files := {} }
    let answers : CreateAnswers := { truncateFailure? := some SystemFailure.noSpace.toIoFailure }
    let store : FileStore := { path := "/a", inode := 1, length := 5, position := 5 }
    ∃ (record : List (ShelfEvent × ShelfAnswer)) (shelf : Shelf) (error : Error) (after : Shelf),
      start.run events = (record, shelf) ∧
      start.files.WellFormed ∧ (∀ event ∈ events, event.keepsBytes) ∧
      (∀ entry ∈ record, writesWhole entry) ∧
      shelf.slots = [("x", store)] ∧
      shelf.perform "x" store .readAll =
        (.ok [97, 98, 10, 100, 10], shelf.setSlot "x" store) ∧
      shelf.create "y" "/a" answers = (.error error, after) ∧
      error.message = some "failed to truncate stale data file" ∧
      after.slots = shelf.slots ∧ after.files.contents 2 = [99, 10] := by
  intro events start answers store
  obtain ⟨record, shelf, error, after, hRun, hWrites, hSlots, ⟨hRegular, hPackets⟩, hCreate,
      hMessage, hNode, hFile⟩ :
      ∃ (record : List (ShelfEvent × ShelfAnswer)) (shelf : Shelf) (error : Error) (after : Shelf),
      start.run events = (record, shelf) ∧ (∀ entry ∈ record, writesWhole entry) ∧
      shelf.slots = [("x", store)] ∧
      (shelf.files.isRegular 1 ∧ appended "x" record = [[97, 98, 10], [100, 10]]) ∧
      shelf.create "y" "/a" answers = (.error error, after) ∧
      error.message = some "failed to truncate stale data file" ∧
      shelf.files.node? 2 = some (.file [10, 99]) ∧ ¬ shelf.files.isDirectory 2 :=
    ⟨_, _, _, _, by cbv, by decide, rfl, ⟨rfl, by decide⟩, by cbv, rfl, rfl, by decide⟩
  have hKeeps : ∀ event ∈ events, event.keepsBytes := by decide
  obtain ⟨hReads, hFails⟩ := readAll_run FileSystem.wellFormed_empty hKeeps
    (show ∀ entry ∈ (start.run events).1, writesWhole entry by rwa [hRun])
  rw [show ({ files := {} } : Shelf).run events = (record, shelf) from hRun] at hReads hFails
  obtain ⟨hRead, -⟩ := hReads "x" store (by rw [store?, hSlots]; rfl) hRegular
  obtain ⟨hSame, -, hNodes, -⟩ := hFails "y" "/a" answers error after hCreate
  rw [hPackets] at hRead
  refine ⟨record, shelf, error, after, hRun, FileSystem.wellFormed_empty, hKeeps, hWrites, hSlots,
    hRead, hCreate, hMessage, hSame, ?_⟩
  rw [FileSystem.contents, hNodes 2 _ hNode hFile]
  rfl

end Shelf

end PacketLog
