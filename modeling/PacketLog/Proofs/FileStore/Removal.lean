import PacketLog.Proofs.FileStore.Shelves

/-!
# Which name a removal takes away

A store is removed by its path.  As long as that path still leads to the store's own file,
the name at its end is a name of that file, or a link on the way to it, and no other store
loses one (`child?_remove_run`).  A removal does not look whether it does: once the file has
been renamed and the path has been taken by another store, the name that goes is the
other store's (`name_lost_of_moved_file`).
-/

namespace PacketLog

namespace FileStore

variable {files after : FileSystem} {store : FileStore}

/-- A removal that succeeds takes away the name at the end of the path. -/
theorem exists_of_remove (hRemove : store.remove files = (.ok (), after)) :
    ∃ directory name slashed found,
      files.walk .never store.path = .ok (.entry directory name slashed) ∧
      files.child? directory name = some found ∧ ¬ files.isDirectory found ∧
      after = store.close (files.removeName directory name) := by
  rw [remove] at hRemove
  split at hRemove
  · next unlinked hUnlink =>
    obtain ⟨-, rfl⟩ := Prod.mk.inj hRemove
    obtain ⟨directory, name, slashed, found, hWalk, hChild, hPlain, rfl⟩ :=
      FileSystem.exists_of_unlink (FileSystem.eq_ok_of_guarded hUnlink)
    exact ⟨directory, name, slashed, found, hWalk, hChild, hPlain, rfl⟩
  · cases hRemove

theorem eq_of_remove_error {error : Error} (hRemove : store.remove files = (.error error, after)) :
    after = store.close files := by
  rw [remove] at hRemove
  split at hRemove
  · cases hRemove
  · exact (Prod.mk.inj hRemove).2.symm

end FileStore

namespace Shelf

/-- **A removal takes away one name, and none of another store's file if its path has not been
moved.**  After any run over a shelf, whatever was done to the names and the files from outside: a
removal that fails takes away none.  One that succeeds takes away one name, of something that is no
directory; and if the store's path still leads to its file, then that was a name of this file or a
link, and whatever names the file of another store names it still. -/
theorem child?_remove_run {files : FileSystem} (hFiles : files.WellFormed)
    (events : List ShelfEvent) :
    let shelf := (({ files := files } : Shelf).run events).2
    ∀ slot store answer after, shelf.store? slot = some store →
      store.remove shelf.files = (answer, after) →
      Store.close shelf.files (.inFile store) = (answer, after) ∧
      (answer ≠ .ok () → ∀ directory name,
        after.child? directory name = shelf.files.child? directory name) ∧
      (answer = .ok () → ∃ directory name found,
        shelf.files.child? directory name = some found ∧ ¬ shelf.files.isDirectory found ∧
        after.child? directory name = none ∧
        (∀ other otherName, ¬ (other = directory ∧ otherName = name) →
          after.child? other otherName = shelf.files.child? other otherName) ∧
        (shelf.files.find store.path = .ok store.inode →
          found = store.inode ∨ (shelf.files.linkTarget? found).isSome)) ∧
      (shelf.files.find store.path = .ok store.inode → ∀ otherSlot another, otherSlot ≠ slot →
        shelf.store? otherSlot = some another → ∀ directory name,
        shelf.files.child? directory name = some another.inode →
        after.child? directory name = some another.inode) := by
  intro shelf slot store answer after hStore hRemove
  have hSound : shelf.Sound := sound_run (sound_empty hFiles) events
  cases answer with
  | error error =>
    obtain rfl := FileStore.eq_of_remove_error hRemove
    exact ⟨hRemove, fun _ _ _ => rfl, nofun, fun _ _ _ _ _ _ _ hChild => hChild⟩
  | ok =>
    obtain ⟨directory, name, slashed, found, hWalk, hChild, hPlain, rfl⟩ :=
      FileStore.exists_of_remove hRemove
    obtain ⟨above, names, hNode⟩ := FileSystem.exists_directory_of_child? hChild
    have hOwn (hFind : shelf.files.find store.path = .ok store.inode) :
        found = store.inode ∨ (shelf.files.linkTarget? found).isSome :=
      FileSystem.eq_or_isLink_of_find hWalk hChild hFind
    refine ⟨hRemove, fun hFailed => absurd rfl hFailed, fun _ => ⟨directory, name, found, hChild,
      hPlain, FileSystem.child?_removeName_self hNode,
      fun other otherName hNe => FileSystem.child?_removeName_of_ne hNode hNe, hOwn⟩, ?_⟩
    intro hFind otherSlot another hNe hAnother other otherName hName
    by_cases hHere : other = directory ∧ otherName = name
    · obtain ⟨rfl, rfl⟩ := hHere
      obtain rfl := Option.some.inj (hChild.symm.trans hName)
      rcases hOwn hFind with hSame | hLink
      · exact absurd hSame (hSound.inode_ne hNe hStore hAnother)
      · rw [FileSystem.linkTarget?_of_isOpenable (hSound.isOpenable otherSlot another hAnother)]
          at hLink
        cases hLink
    · exact (FileSystem.child?_removeName_of_ne hNode hHere).trans hName

/-- The store whose file is reached by a link takes the link away; the renamed file of the other
keeps its name. -/
theorem child?_remove_run_of_link :
    let events : List ShelfEvent :=
      [.create "x" "/a", .outside (.makeLink "a" "/c"), .outside (.rename "/a" "/b"),
        .create "y" "/c", .act "y" (.append [97, 10]) [.accepted 2]]
    let x : FileStore := { path := "/a", inode := 1 }
    let y : FileStore := { path := "/c", inode := 3, length := 2, position := 2 }
    ∃ record shelf after, ({ files := {} } : Shelf).run events = (record, shelf) ∧
      ({} : FileSystem).WellFormed ∧ shelf.store? "x" = some x ∧ shelf.store? "y" = some y ∧
      shelf.files.find "/c" = .ok 3 ∧ shelf.files.child? FileSystem.root "b" = some 1 ∧
      y.remove shelf.files = (.ok (), after) ∧
      (∃ directory name found, shelf.files.child? directory name = some found ∧
        after.child? directory name = none ∧
        (found = 3 ∨ (shelf.files.linkTarget? found).isSome)) ∧
      after.child? FileSystem.root "b" = some 1 := by
  intro events x y
  obtain ⟨record, shelf, after, hRun, hX, hY, hFind, hChild, hRemove⟩ :
      ∃ record shelf after, ({ files := {} } : Shelf).run events = (record, shelf) ∧
      shelf.store? "x" = some x ∧ shelf.store? "y" = some y ∧
      shelf.files.find "/c" = .ok 3 ∧ shelf.files.child? FileSystem.root "b" = some 1 ∧
      y.remove shelf.files = (.ok (), after) :=
    ⟨_, _, _, by cbv, rfl, rfl, by cbv, rfl, by cbv⟩
  have hRemoval := child?_remove_run FileSystem.wellFormed_empty events
  rw [hRun] at hRemoval
  obtain ⟨-, -, hOne, hOthers⟩ := hRemoval "y" y (.ok ()) after hY hRemove
  obtain ⟨directory, name, found, hFound, -, hGone, -, hOwn⟩ := hOne rfl
  exact ⟨record, shelf, after, hRun, FileSystem.wellFormed_empty, hX, hY, hFind, hChild, hRemove,
    ⟨directory, name, found, hFound, hGone, hOwn hFind⟩,
    hOthers hFind "x" x (by decide) hX FileSystem.root "b" hChild⟩

/-- A removal can take the name of another store's file: the path of the first store leads to the
file of the second, which holds the lock on it and is left without a name. -/
theorem name_lost_of_moved_file :
    let events : List ShelfEvent :=
      [.create "x" "/a", .outside (.rename "/a" "/b"), .create "y" "/a",
        .act "y" (.append [97, 10]) [.accepted 2]]
    let x : FileStore := { path := "/a", inode := 1 }
    let y : FileStore := { path := "/a", inode := 2, length := 2, position := 2 }
    ∃ record shelf after, ({ files := {} } : Shelf).run events = (record, shelf) ∧
      shelf.store? "x" = some x ∧ shelf.store? "y" = some y ∧
      2 ∈ shelf.files.locked ∧ shelf.files.child? FileSystem.root "a" = some 2 ∧
      x.remove shelf.files = (.ok (), after) ∧
      after.child? FileSystem.root "a" = none ∧ after.hasPath y.path = false := by
  intro events x y
  obtain ⟨record, shelf, after, hRun, hX, hY, hLocked, hChild, hRemove, hGone⟩ :
      ∃ record shelf after, ({ files := {} } : Shelf).run events = (record, shelf) ∧
      shelf.store? "x" = some x ∧ shelf.store? "y" = some y ∧
      2 ∈ shelf.files.locked ∧ shelf.files.child? FileSystem.root "a" = some 2 ∧
      x.remove shelf.files = (.ok (), after) ∧
      after.child? FileSystem.root "a" = none :=
    ⟨_, _, _, by cbv, rfl, rfl, by decide, rfl, by cbv, rfl⟩
  have hNowhere : after.hasPath x.path = false := FileStore.hasPath_of_remove hRemove
  exact ⟨record, shelf, after, hRun, hX, hY, hLocked, hChild, hRemove, hGone, hNowhere⟩

end Shelf

end PacketLog
