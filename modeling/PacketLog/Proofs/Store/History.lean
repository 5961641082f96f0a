import PacketLog.Context
import PacketLog.Proofs.FileSystem.Names
import PacketLog.Proofs.Ring.History

/-!
# What a store keeps of its history

A file keeps all that was committed and a ring the newest entries: `kept` says which.
`Holds store choice entries` says that a store of that choice is what the commits
`entries` make of it, down to the bytes of its file.  A successful append goes on to
hold the new entry too, whatever the lengths of the writes it took (`Holds.append`),
and what the store shows is what it keeps, laid end to end (`Holds.readAll_eq`).  The
critical sections of a context do no more than that.
-/

namespace PacketLog

/-! ## One file -/

namespace FileSystem

variable {files : FileSystem} {inode : Nat}

theorem node?_emptied (hRegular : (files.setContents inode []).isRegular inode) :
    (files.setContents inode []).node? inode = some (.file []) := by
  rw [setContents] at hRegular ⊢
  split at hRegular
  · next reversed hNode => exact node?_setNode hNode _
  · next hNotFile =>
    obtain ⟨reversed, hNode⟩ := exists_of_isRegular hRegular
    exact absurd hNode (hNotFile reversed)

theorem node?_appendTo {reversed : Bytes} (hNode : files.node? inode = some (.file reversed))
    (bytes : Bytes) :
    (files.appendTo inode bytes).node? inode = some (.file (bytes.reverse ++ reversed)) := by
  rw [appendTo, hNode]
  exact node?_setNode hNode _

end FileSystem

namespace FileStore

/-- An append that succeeds has added the whole of its bytes, in however many writes. -/
theorem node?_of_append {file after : FileStore} {files filesAfter : FileSystem}
    {bytes reversed : Bytes} {answers : List WriteAnswer}
    (hAppend : file.append files bytes answers = (.ok (), after, filesAfter))
    (hNode : files.node? file.inode = some (.file reversed)) :
    filesAfter.node? after.inode = some (.file (bytes.reverse ++ reversed)) := by
  suffices hGrown : (file.append files bytes answers).1 = .ok () →
      (file.append files bytes answers).2.2.node? (file.append files bytes answers).2.1.inode =
        some (.file (bytes.reverse ++ reversed)) by
    rw [hAppend] at hGrown
    exact hGrown rfl
  clear hAppend
  induction file, files, bytes, answers using append_induction generalizing reversed with
  | done => exact fun _ => hNode
  | waiting | zero | failed => exact nofun
  | accepted file files bytes count later hBytes ih =>
    -- The later calls add the rest behind what this one took.
    have hTaken := ih (FileSystem.node?_appendTo hNode (bytes.take (count + 1)))
    rwa [← List.append_assoc, ← List.reverse_append, List.take_append_drop] at hTaken
  | interrupted file files bytes failure later hBytes hAgain ih => exact ih hNode

theorem node?_of_create {file : FileStore} {files filesAfter : FileSystem} {path : String}
    {answers : CreateAnswers} (hCreate : create files path answers = (.ok file, filesAfter))
    (hRegular : filesAfter.isRegular file.inode) :
    filesAfter.node? file.inode = some (.file []) := by
  obtain ⟨opened, -, -, -, -, rfl⟩ := exists_of_create hCreate
  exact FileSystem.node?_emptied hRegular

end FileStore

/-! ## Any store -/

/-- What a store of this choice keeps of a history: a ring as many as it has slots for. -/
def StoreChoice.kept {α : Type} : StoreChoice → List α → List α
  | .ring capacity, history => history.rtake capacity
  | .file _, history => history

theorem StoreChoice.kept_map {α β : Type} (choice : StoreChoice) (f : α → β) (history : List α) :
    choice.kept (history.map f) = (choice.kept history).map f := by
  cases choice with
  | ring capacity => simp only [kept, List.rtake, List.length_map, List.map_drop]
  | file path => rfl

theorem StoreChoice.kept_isSuffix {α : Type} (choice : StoreChoice) (history : List α) :
    choice.kept history <:+ history := by
  cases choice with
  | ring capacity => exact List.drop_suffix _ _
  | file path => exact List.suffix_refl _

namespace Store

def readAll (files : FileSystem) : Store → Bytes
  | inMemory ring => ring.contents
  | inFile file => files.contents file.inode

/-- The store is what the commits `entries` make of it. -/
inductive Holds (files : FileSystem) : Store → StoreChoice → List Entry → Prop
  | inMemory {ring : Ring} {capacity : Nat} {entries : List Entry}
      (hCapacity : ring.capacity = capacity) (hKeeps : ring.Keeps entries) :
      Holds files (.inMemory ring) (.ring capacity) entries
  | inFile {file : FileStore} {entries : List Entry} (path : String)
      (hNode : files.node? file.inode = some (.file entries.flatten.reverse)) :
      Holds files (.inFile file) (.file path) entries

variable {files filesAfter : FileSystem} {store after : Store} {choice : StoreChoice}
  {entries : List Entry}

theorem Holds.readAll_eq (hHolds : store.Holds files choice entries) :
    store.readAll files = (choice.kept entries).flatten := by
  cases hHolds with
  | inMemory hCapacity hKeeps =>
    rw [readAll, Ring.contents, hKeeps.entries_eq, hCapacity, StoreChoice.kept]
  | inFile path hNode =>
    rw [readAll, FileSystem.contents, hNode, StoreChoice.kept]
    exact List.reverse_reverse _

theorem Holds.append (hHolds : store.Holds files choice entries) {entry : Entry}
    {answers : List WriteAnswer} {evicted : Option Entry}
    (hAppend : store.append files entry answers = (.ok evicted, after, filesAfter)) :
    after.Holds filesAfter choice (entries ++ [entry]) := by
  cases hHolds with
  | @inMemory ring capacity _ hCapacity hKeeps =>
    obtain ⟨-, rfl, rfl⟩ := hAppend
    exact .inMemory ((ring.capacity_append entry).trans hCapacity) (hKeeps.append entry)
  | @inFile file _ path hNode =>
    rw [Store.append] at hAppend
    rcases hFile : file.append files entry answers with
      ⟨outcome | error | _ | _, fileAfter, filesLast⟩ <;> rw [hFile] at hAppend
    · obtain ⟨-, rfl, rfl⟩ := hAppend
      refine .inFile path ?_
      rw [FileStore.node?_of_append hFile hNode, List.flatten_append, List.flatten_singleton,
        List.reverse_append]
    · cases hAppend
    · cases hAppend
    · cases hAppend

theorem Holds.seek (hHolds : store.Holds files choice entries) (position : Nat) :
    (store.seek position).Holds files choice entries := by
  cases hHolds with
  | inMemory hCapacity hKeeps => exact .inMemory hCapacity hKeeps
  | inFile path hNode => exact .inFile path hNode

theorem exists_read_whole (files : FileSystem) (store : Store) :
    ∃ position, store.read files .whole = (.ok (store.readAll files), store.seek position) := by
  cases store with
  | inMemory ring => exact ⟨0, rfl⟩
  | inFile file =>
    rw [read, file.read_whole]
    exact ⟨_, rfl⟩

/-- The store is in memory, or its file is a regular one. -/
def isRegular (files : FileSystem) : Store → Bool
  | inMemory _ => true
  | inFile file => files.isRegular file.inode

/-- A new store is empty: what was left in a regular file is discarded. -/
theorem holds_of_create {choice : StoreChoice}
    (hCreate : create files choice = (.ok store, filesAfter))
    (hRegular : store.isRegular filesAfter) : store.Holds filesAfter choice [] := by
  cases choice with
  | ring capacity =>
    rw [create] at hCreate
    cases hRing : Ring.create? capacity with
    | error error => rw [hRing] at hCreate; cases hCreate
    | ok ring =>
      rw [hRing] at hCreate
      obtain ⟨rfl, rfl⟩ := hCreate
      obtain ⟨hPos, rfl⟩ := Ring.eq_empty_of_create? hRing
      exact .inMemory rfl (Ring.keeps_empty hPos)
  | file path =>
    rw [create] at hCreate
    rcases hFile : FileStore.create files path with ⟨error | file, filesLast⟩
      <;> rw [hFile] at hCreate
    · cases hCreate
    · obtain ⟨rfl, rfl⟩ := hCreate
      exact .inFile path (FileStore.node?_of_create hFile hRegular)

end Store

/-! ## Behind the lock -/

namespace Context

variable {context after : Context} {patience : Patience} {attempts : List Attempt}

/-- Whether a call goes on or not, the store is not touched before it does. -/
theorem meet_eq (context : Context) (call : StoreCall) :
    (context.meet call).2.store = context.store ∧ (context.meet call).2.files = context.files :=
  ⟨rfl, rfl⟩

/-- A commit that succeeds had the lock and has appended the entry. -/
theorem holds_of_commit {choice : StoreChoice} {entries : List Entry} {entry : Entry}
    {answers : List WriteAnswer} (hHolds : context.store.value.Holds context.files choice entries)
    (hCommit : context.commit patience attempts entry answers = (.ok (), after)) :
    patience.acquire attempts = .acquired ∧
      after.store.value.Holds after.files choice (entries ++ [entry]) := by
  rw [commit] at hCommit
  cases hAcquire : patience.acquire attempts <;> rw [hAcquire] at hCommit
  · refine ⟨rfl, ?_⟩
    rw [Acquisition.enter, appendHeld] at hCommit
    rcases hMeet : context.meet .append with ⟨_ | error | _, met⟩ <;> rw [hMeet] at hCommit
    · obtain ⟨hStore, hFiles⟩ := context.meet_eq .append
      rw [hMeet] at hStore hFiles
      dsimp only at hStore hFiles hCommit
      rw [hStore, hFiles] at hCommit
      rcases hAppend : context.store.value.append context.files entry answers with
        ⟨evicted | error | _ | _, store, files⟩ <;> rw [hAppend] at hCommit
      · obtain ⟨-, rfl⟩ := hCommit
        exact hHolds.append hAppend
      · cases hCommit
      · cases hCommit
      · cases hCommit
    · cases hCommit
    · cases hCommit
  · cases hCommit
  · cases hCommit

/-- A snapshot that succeeds had the lock and shows the whole store, which it leaves as it is but
for the position of its file. -/
theorem of_snapshot {bytes : Bytes}
    (hSnapshot : context.snapshot patience attempts = (.ok bytes, after)) :
    patience.acquire attempts = .acquired ∧ bytes = context.store.value.readAll context.files ∧
      (∃ position, after.store =
        { context.store with value := context.store.value.seek position }) ∧
      after.files = context.files := by
  rw [snapshot] at hSnapshot
  cases hAcquire : patience.acquire attempts <;> rw [hAcquire] at hSnapshot
  · refine ⟨rfl, ?_⟩
    rw [Acquisition.enter, readHeld] at hSnapshot
    rcases hMeet : context.meet .read with ⟨_ | error | _, met⟩ <;> rw [hMeet] at hSnapshot
    · obtain ⟨hStore, hFiles⟩ := context.meet_eq .read
      rw [hMeet] at hStore hFiles
      dsimp only at hStore hFiles hSnapshot
      obtain ⟨position, hRead⟩ := Store.exists_read_whole context.files context.store.value
      rw [hStore, hFiles, hRead] at hSnapshot
      obtain ⟨rfl, rfl⟩ := hSnapshot
      exact ⟨rfl, ⟨position, rfl⟩, rfl⟩
    · cases hSnapshot
    · cases hSnapshot
  · cases hSnapshot
  · cases hSnapshot

end Context

end PacketLog
