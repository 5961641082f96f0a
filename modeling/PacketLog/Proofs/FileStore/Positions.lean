import PacketLog.Store

/-!
# The position of an open file

Reads and writes of one open file share a position, and neither may disturb the other.
A write goes to the end first, and there it is an append (`FileSystem.writeAt_size`), so
a store appends the same wherever its position is (`append_seek`).  A read of the whole
file goes back to the start first, so it brings all that the file holds (`read_whole`),
and whatever becomes of it only the position has moved (`exists_seek_of_read`).
-/

namespace PacketLog

namespace FileSystem

variable {files : FileSystem} {inode : Nat}

theorem length_contents (files : FileSystem) (inode : Nat) :
    (files.contents inode).length = files.size inode := by
  rw [contents, size]
  split
  · exact List.length_reverse
  · rfl

theorem exists_of_isRegular (hRegular : files.isRegular inode) :
    ∃ reversed, files.node? inode = some (.file reversed) := by
  unfold isRegular at hRegular
  split at hRegular
  · next reversed hNode => exact ⟨reversed, hNode⟩
  · cases hRegular

theorem isRegular_congr {after : FileSystem} (hNode : after.node? inode = files.node? inode) :
    after.isRegular inode = files.isRegular inode := by
  rw [isRegular, isRegular, hNode]

theorem size_eq_zero (hRegular : files.isRegular inode = false) : files.size inode = 0 := by
  rw [isRegular] at hRegular
  rw [size]
  split
  · next reversed hNode =>
    rw [hNode] at hRegular
    cases hRegular
  · rfl

theorem node?_setNode {old : Node} (hNode : files.node? inode = some old) (new : Node) :
    (files.setNode inode new).node? inode = some new := by
  obtain ⟨hLt, -⟩ := List.getElem?_eq_some_iff.mp hNode
  exact List.getElem?_set_self hLt

theorem setNode_self {node : Node} (hNode : files.node? inode = some node) :
    files.setNode inode node = files := by
  obtain ⟨hLt, rfl⟩ := List.getElem?_eq_some_iff.mp hNode
  rw [setNode, List.set_getElem_self]

theorem setContents_nil (hEmpty : files.size inode = 0) : files.setContents inode [] = files := by
  rw [setContents]
  split
  · next reversed hNode =>
    rw [size, hNode] at hEmpty
    obtain rfl := List.eq_nil_of_length_eq_zero hEmpty
    exact setNode_self hNode
  · rfl

theorem writeAt_size (files : FileSystem) (inode : Nat) (bytes : Bytes) :
    files.writeAt inode (files.size inode) bytes = files.appendTo inode bytes := by
  rw [writeAt, appendTo, size]
  cases files.node? inode with
  | none => rfl
  | some node =>
    cases node with
    | file reversed => simp
    | directory _ _ | link _ | device _ => rfl

theorem size_appendTo (files : FileSystem) (inode : Nat) (bytes : Bytes) :
    (files.appendTo inode bytes).size inode =
      if files.isRegular inode then files.size inode + bytes.length else files.size inode := by
  split
  · next hRegular =>
    obtain ⟨reversed, hNode⟩ := exists_of_isRegular hRegular
    rw [appendTo, hNode, size, node?_setNode hNode, size, hNode]
    dsimp only
    rw [List.length_append, List.length_reverse, Nat.add_comm]
  · next hNotRegular =>
    rw [appendTo]
    split
    · next reversed hNode => exact absurd (by rw [isRegular, hNode]) hNotRegular
    · rfl

theorem contents_writeAt (hRegular : files.isRegular inode) (position : Nat) (bytes : Bytes) :
    (files.writeAt inode position bytes).contents inode =
      (files.contents inode).take position ++
        List.replicate (position - (files.contents inode).length) 0 ++ bytes ++
        (files.contents inode).drop (position + bytes.length) := by
  obtain ⟨reversed, hNode⟩ := exists_of_isRegular hRegular
  have hTake (count : Nat) : reversed.reverse.take (reversed.length - (reversed.length - count)) =
      reversed.reverse.take count := by
    rw [Nat.sub_sub_eq_min, Nat.min_comm, ← List.length_reverse, ← List.take_eq_take_min]
  have hDrop (count : Nat) : reversed.reverse.drop (reversed.length - (reversed.length - count)) =
      reversed.reverse.drop count := by
    rw [Nat.sub_sub_eq_min, Nat.min_comm, ← List.length_reverse, ← List.drop_eq_drop_min]
  simp only [writeAt, hNode]
  rw [contents, node?_setNode hNode, contents, hNode]
  simp [List.reverse_take, List.reverse_drop, hTake, hDrop]

end FileSystem

namespace FileStore

variable {store after : FileStore} {files : FileSystem}

theorem advance_seek (store : FileStore) (files : FileSystem) (position count : Nat) :
    (store.seek position).advance files count =
      store.seek (if files.isRegular store.inode then position + count else position) := by
  rw [advance]
  split
  · next hRegular => rw [if_pos (show files.isRegular store.inode from hRegular)]; rfl
  · next hNotRegular => rw [if_neg (show ¬ files.isRegular store.inode from hNotRegular)]

/-! ## Reading -/

/-- A read of the whole file ends at its end, wherever the last call stopped. -/
theorem read_whole (store : FileStore) (files : FileSystem) :
    store.read files .whole =
      (.ok (files.contents store.inode), store.seek (files.size store.inode)) := by
  have hLength := files.length_contents store.inode
  have hAll : ((files.contents store.inode).drop 0).take (files.size store.inode) =
      files.contents store.inode := List.take_of_length_le (Nat.le_of_eq hLength)
  have hHere : (store.seek 0).readHere files (files.size store.inode) =
      (files.contents store.inode, (store.seek 0).advance files (files.size store.inode)) := by
    rw [readHere, show (store.seek 0).inode = store.inode from rfl,
      show (store.seek 0).position = 0 from rfl, hAll, hLength]
  rw [read, hHere, advance_seek, Nat.zero_add]
  cases hRegular : files.isRegular store.inode with
  | true => rfl
  | false => rw [FileSystem.size_eq_zero hRegular]; rfl

theorem exists_seek_of_read {answer : ReadAnswer} {outcome : Except Error Bytes}
    (hRead : store.read files answer = (outcome, after)) :
    ∃ position, after = store.seek position := by
  cases answer with
  | whole =>
    rw [read_whole] at hRead
    exact ⟨_, (Prod.mk.inj hRead).2.symm⟩
  | notRewound failure => exact ⟨store.position, (Prod.mk.inj hRead).2.symm⟩
  | noRoom => exact ⟨0, (Prod.mk.inj hRead).2.symm⟩
  | failed failure count => exact ⟨_, (Prod.mk.inj hRead).2.symm.trans (advance_seek ..)⟩

/-! ## Appending -/

/-- The store once `added` is written: it stands at the end of its file. -/
def extend (store : FileStore) (files : FileSystem) (added : Bytes) : FileStore :=
  { store with
    length := store.length + added.length
    position :=
      if added = [] then store.position else (files.appendTo store.inode added).size store.inode }

theorem write_eq {bytes : Bytes} (store : FileStore) (files : FileSystem) (hBytes : bytes ≠ []) :
    store.write files bytes = (store.extend files bytes, files.appendTo store.inode bytes) := by
  rw [write, extend, if_neg hBytes, FileSystem.size_appendTo, ← files.writeAt_size]
  dsimp only
  rw [advance_seek]
  rfl

section Append

variable {bytes : Bytes} (store : FileStore) (files : FileSystem) (later : List WriteAnswer)

theorem append_nil (answers : List WriteAnswer) :
    store.append files [] answers = (.ok (), store, files) := by
  cases answers <;> rfl

theorem append_accepted (hBytes : bytes ≠ []) (count : Nat) :
    store.append files bytes (.accepted (count + 1) :: later) =
      (store.extend files (bytes.take (count + 1))).append
        (files.appendTo store.inode (bytes.take (count + 1))) (bytes.drop (count + 1)) later := by
  have hTaken : bytes.take (count + 1) ≠ [] := by simpa using hBytes
  rw [append, if_neg hBytes, write_eq store files hTaken]
  exact Nat.succ_ne_zero count

theorem append_zero (hBytes : bytes ≠ []) :
    store.append files bytes (.accepted 0 :: later) =
      (.error (store.appendFailure "data file accepted zero bytes"), store, files) := by
  rw [append, if_neg hBytes]

theorem append_interrupted (hBytes : bytes ≠ []) {failure : SystemFailure}
    (hAgain : failure.kind = .interrupted) :
    store.append files bytes (.failed failure :: later) = store.append files bytes later := by
  rw [append, if_neg hBytes, if_pos hAgain]

theorem append_failed (hBytes : bytes ≠ []) {failure : SystemFailure}
    (hFinal : failure.kind ≠ .interrupted) :
    store.append files bytes (.failed failure :: later) =
      (.error ((store.appendFailure "failed to append to data file").withFailure
        failure.toIoFailure), store, files) := by
  rw [append, if_neg hBytes, if_neg hFinal]

/-- Induction along the write calls of an append. -/
@[elab_as_elim]
theorem append_induction {motive : FileStore → FileSystem → Bytes → List WriteAnswer →
      Outcome Unit × FileStore × FileSystem → Prop}
    (done : ∀ store files answers, motive store files [] answers (.ok (), store, files))
    (waiting : ∀ store files bytes, bytes ≠ [] →
      motive store files bytes [] (.waiting, store, files))
    (zero : ∀ store files bytes later, bytes ≠ [] →
      motive store files bytes (.accepted 0 :: later)
        (.error (store.appendFailure "data file accepted zero bytes"), store, files))
    (accepted : ∀ (store : FileStore) (files : FileSystem) (bytes : Bytes) count later,
      bytes ≠ [] →
      motive (store.extend files (bytes.take (count + 1)))
        (files.appendTo store.inode (bytes.take (count + 1))) (bytes.drop (count + 1)) later
        ((store.extend files (bytes.take (count + 1))).append
          (files.appendTo store.inode (bytes.take (count + 1))) (bytes.drop (count + 1)) later) →
      motive store files bytes (.accepted (count + 1) :: later)
        ((store.extend files (bytes.take (count + 1))).append
          (files.appendTo store.inode (bytes.take (count + 1))) (bytes.drop (count + 1)) later))
    (interrupted : ∀ (store : FileStore) files bytes (failure : SystemFailure) later,
      bytes ≠ [] → failure.kind = .interrupted →
      motive store files bytes later (store.append files bytes later) →
      motive store files bytes (.failed failure :: later) (store.append files bytes later))
    (failed : ∀ (store : FileStore) files bytes (failure : SystemFailure) later,
      bytes ≠ [] → failure.kind ≠ .interrupted →
      motive store files bytes (.failed failure :: later)
        (.error ((store.appendFailure "failed to append to data file").withFailure
          failure.toIoFailure), store, files))
    (store : FileStore) (files : FileSystem) (bytes : Bytes) (answers : List WriteAnswer) :
    motive store files bytes answers (store.append files bytes answers) := by
  induction answers generalizing store files bytes with
  | nil =>
    by_cases hBytes : bytes = []
    · rw [hBytes, append_nil]
      exact done store files []
    · rw [append, if_neg hBytes]
      exact waiting store files bytes hBytes
  | cons answer later ih =>
    by_cases hBytes : bytes = []
    · rw [hBytes, append_nil]
      exact done store files _
    · rcases answer with ⟨_ | count⟩ | failure
      · rw [append_zero _ _ _ hBytes]
        exact zero store files bytes later hBytes
      · rw [append_accepted _ _ _ hBytes]
        exact accepted store files bytes count later hBytes (ih _ _ _)
      · by_cases hAgain : failure.kind = .interrupted
        · rw [append_interrupted _ _ _ hBytes hAgain]
          exact interrupted store files bytes failure later hBytes hAgain (ih _ _ _)
        · rw [append_failed _ _ _ hBytes hAgain]
          exact failed store files bytes failure later hBytes hAgain

/-- An append does the same wherever the position is: the first write goes to the end. -/
theorem append_seek (position : Nat) (bytes : Bytes) (answers : List WriteAnswer) :
    ∃ last, (store.seek position).append files bytes answers =
      ((store.append files bytes answers).1, (store.append files bytes answers).2.1.seek last,
        (store.append files bytes answers).2.2) := by
  induction answers with
  | nil => exact ⟨position, rfl⟩
  | cons answer later ih =>
    by_cases hBytes : bytes = []
    · rw [hBytes, append_nil, append_nil]
      exact ⟨position, rfl⟩
    · rcases answer with ⟨_ | count⟩ | failure
      · rw [append_zero _ _ _ hBytes, append_zero _ _ _ hBytes]
        exact ⟨position, rfl⟩
      · have hTaken : bytes.take (count + 1) ≠ [] := by simpa using hBytes
        have hSame : (store.seek position).extend files (bytes.take (count + 1)) =
            store.extend files (bytes.take (count + 1)) := by
          rw [extend, extend, if_neg hTaken, if_neg hTaken]
          rfl
        rw [append_accepted _ _ _ hBytes, append_accepted _ _ _ hBytes, hSame]
        exact ⟨_, rfl⟩
      · by_cases hAgain : failure.kind = .interrupted
        · rw [append_interrupted _ _ _ hBytes hAgain, append_interrupted _ _ _ hBytes hAgain]
          exact ih
        · rw [append_failed _ _ _ hBytes hAgain, append_failed _ _ _ hBytes hAgain]
          exact ⟨position, rfl⟩

end Append

end FileStore

/-! ## Any store -/

namespace Store

variable {store after : Store} {files : FileSystem}

/-- The store with the position of its file elsewhere. -/
def seek : Store → Nat → Store
  | inMemory ring, _ => .inMemory ring
  | inFile file, position => .inFile (file.seek position)

theorem exists_seek_self (store : Store) : ∃ position, store.seek position = store := by
  cases store with
  | inMemory ring => exact ⟨0, rfl⟩
  | inFile file => exact ⟨file.position, rfl⟩

theorem exists_seek_of_read {answer : ReadAnswer} {outcome : Except Error Bytes}
    (hRead : store.read files answer = (outcome, after)) :
    ∃ position, after = store.seek position := by
  cases store with
  | inMemory ring => exact ⟨0, (Prod.mk.inj hRead).2.symm⟩
  | inFile file =>
    rcases hFile : file.read files answer with ⟨found, fileAfter⟩
    obtain ⟨position, rfl⟩ := FileStore.exists_seek_of_read hFile
    rw [read, hFile] at hRead
    exact ⟨position, (Prod.mk.inj hRead).2.symm⟩

end Store

end PacketLog
