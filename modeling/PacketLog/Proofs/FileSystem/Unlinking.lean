import PacketLog.Proofs.FileSystem.WellFormed

/-!
# What can be found can be unlinked

Who opens a file follows a link at the end of its path; who unlinks it stops at the link and
looks its name up.  Such a name may be one that nobody can look up: too long, or in a directory that
has been removed.  A file system without such names is `Legible`, which it remains when a file is
opened (`legible_of_openOrCreate`).  There a path that leads to a file can be unlinked
(`exists_unlink_of_find`): a walk that stops at links ends no later than one that follows them all,
and at something that is no directory.

`Removable` says all of this about one path.  It is a matter of names alone, so that whoever writes
to the file does not change it.
-/

namespace PacketLog

namespace FileSystem

variable {files after : FileSystem}

/-! ## Names that can be looked up -/

/-- Nobody is without a name who has names in it, and no name is too long. -/
structure Legible (files : FileSystem) : Prop where
  not_isRemoved : ∀ directory, files.names directory ≠ [] → files.isRemoved directory = false
  size_le : ∀ directory, ∀ entry ∈ files.names directory, entry.1.utf8ByteSize ≤ nameLimit

theorem legible_empty : ({} : FileSystem).Legible where
  not_isRemoved := fun directory hNames => by
    cases directory with
    | zero => exact absurd rfl hNames
    | succ directory => exact absurd rfl hNames
  size_le := fun directory entry hEntry => by
    cases directory with
    | zero => cases hEntry
    | succ directory => cases hEntry

theorem Legible.lookup_eq (hLegible : files.Legible) {directory inode : Nat} {name : String}
    (hChild : files.child? directory name = some inode) :
    files.lookup directory name = .ok (some inode) := by
  have hEntry : (name, inode) ∈ files.names directory := mem_of_lookup hChild
  rw [lookup, hLegible.not_isRemoved directory (List.ne_nil_of_mem hEntry),
    if_neg Bool.false_ne_true, if_neg (Nat.not_lt.mpr (hLegible.size_le directory _ hEntry)),
    hChild]

theorem isRemoved_skeleton (files : FileSystem) (directory : Nat) :
    files.skeleton.isRemoved directory = files.isRemoved directory := by
  rw [isRemoved, isRemoved, nameOf?, nameOf?, names_skeleton, parent_skeleton]

theorem Legible.of_skeleton (hLegible : files.Legible)
    (hSkeleton : after.skeleton = files.skeleton) : after.Legible where
  not_isRemoved := fun directory hNames => by
    rw [← names_skeleton, hSkeleton, names_skeleton] at hNames
    rw [← isRemoved_skeleton, hSkeleton, isRemoved_skeleton,
      hLegible.not_isRemoved directory hNames]
  size_le := fun directory entry hEntry => by
    rw [← names_skeleton, hSkeleton, names_skeleton] at hEntry
    exact hLegible.size_le directory entry hEntry

theorem isRemoved_eq_false_iff {directory : Nat} : files.isRemoved directory = false ↔
    directory = root ∨ ∃ entry ∈ files.names (files.parent directory), entry.2 = directory := by
  rw [isRemoved, Bool.and_eq_false_iff, decide_eq_false_iff_not, ne_eq, Decidable.not_not, nameOf?,
    Option.isNone_map, ← Option.not_isSome, Bool.not_eq_false', List.find?_isSome]
  simp only [decide_eq_true_eq]

/-- A directory keeps its name where names are only added. -/
theorem isRemoved_eq_false_of_grows {directory : Nat}
    (hThere : files.isRemoved directory = false)
    (hParent : after.parent directory = files.parent directory)
    (hNames : ∀ entry ∈ files.names (files.parent directory),
      entry ∈ after.names (files.parent directory)) : after.isRemoved directory = false := by
  rw [isRemoved_eq_false_iff] at hThere ⊢
  refine hThere.imp_right ?_
  rintro ⟨entry, hEntry, hSame⟩
  rw [hParent]
  exact ⟨entry, hNames entry hEntry, hSame⟩

/-- A name that was looked up in vain may be given. -/
theorem of_lookup_none {directory : Nat} {name : String}
    (hLookup : files.lookup directory name = .ok none) :
    files.isRemoved directory = false ∧ name.utf8ByteSize ≤ nameLimit ∧
      files.child? directory name = none := by
  rw [lookup] at hLookup
  split at hLookup
  · cases hLookup
  · next hThere =>
    split at hLookup
    · cases hLookup
    · next hSize =>
      split at hLookup
      · cases hLookup
      · next hChild => exact ⟨Bool.eq_false_iff.mpr hThere, Nat.not_lt.mp hSize, hChild⟩

/-! ## A new file -/

section NewFile

variable {directory : Nat}

theorem names_setNames (hDirectory : files.isDirectory directory) (names : List (String × Nat))
    (other : Nat) : (files.setNames directory names).names other =
      if other = directory then names else files.names other := by
  obtain ⟨above, old, hNode⟩ := isDirectory_iff.mp hDirectory
  by_cases hHere : other = directory
  · rw [if_pos hHere, hHere, setNames, FileSystem.names, node?_setNode hNode]
  · rw [if_neg hHere]
    exact names_congr (node?_setNode_of_ne hHere _)

theorem parent_setNames (hDirectory : files.isDirectory directory) (names : List (String × Nat))
    (other : Nat) : (files.setNames directory names).parent other = files.parent other := by
  obtain ⟨above, old, hNode⟩ := isDirectory_iff.mp hDirectory
  by_cases hHere : other = directory
  · rw [hHere, setNames, parent, node?_setNode hNode]
  · exact parent_congr (node?_setNode_of_ne hHere _)

theorem isDirectory_setNames (hDirectory : files.isDirectory directory)
    (names : List (String × Nat)) : (files.setNames directory names).isDirectory directory := by
  obtain ⟨above, old, hNode⟩ := isDirectory_iff.mp hDirectory
  exact isDirectory_iff.mpr ⟨_, names, node?_setNode hNode _⟩

theorem names_addNode_file (files : FileSystem) (other : Nat) :
    (files.addNode (.file [])).names other = files.names other ∧
      (files.addNode (.file [])).parent other = files.parent other := by
  rcases Nat.lt_or_ge other files.nodes.length with hLt | hGe
  · exact ⟨names_congr (node?_addNode_of_lt hLt _), parent_congr (node?_addNode_of_lt hLt _)⟩
  · have hNone : files.node? other = none := List.getElem?_eq_none hGe
    rw [names, names, parent, parent, hNone]
    rcases Nat.eq_or_lt_of_le hGe with rfl | hPast
    · rw [node?_addNode_self]
      exact ⟨rfl, rfl⟩
    · have hStill : (files.addNode (.file [])).node? other = none := by
        refine List.getElem?_eq_none ?_
        rw [addNode, List.length_append]
        exact hPast
      rw [hStill]
      exact ⟨rfl, rfl⟩

theorem names_addNamed_file (hDirectory : files.isDirectory directory) (name : String)
    (other : Nat) :
    (files.addNamed directory name (.file [])).names other =
        (if other = directory then
          ((files.names directory).filter fun entry => entry.1 ≠ name) ++
            [(name, files.nodes.length)]
        else files.names other) ∧
      (files.addNamed directory name (.file [])).parent other = files.parent other := by
  have hAdded : (files.addNode (.file [])).isDirectory directory := by
    obtain ⟨above, names, hNode⟩ := isDirectory_iff.mp hDirectory
    rw [isDirectory_congr (node?_addNode_of_lt (lt_of_node? hNode) _), hDirectory]
  have hRemoved := isDirectory_setNames hAdded
    (((files.addNode (.file [])).names directory).filter fun entry => entry.1 ≠ name)
  rw [addNamed, putName, removeName]
  rw [names_setNames hRemoved, parent_setNames hRemoved, names_setNames hAdded,
    names_setNames hAdded, parent_setNames hAdded, if_pos rfl]
  rw [(files.names_addNode_file directory).1, (files.names_addNode_file other).1,
    (files.names_addNode_file other).2]
  refine ⟨?_, rfl⟩
  split <;> rfl

theorem legible_of_openOrCreate (hFiles : files.WellFormed) (hLegible : files.Legible)
    {path : String} {opened : Nat} (hOpen : files.openOrCreate path = .ok (opened, after)) :
    after.Legible := by
  obtain ⟨directory, name, hWalk, ⟨hLookup, -, rfl⟩ | ⟨-, -, rfl⟩⟩ := exists_of_openOrCreate hOpen
  · have hDirectory : files.isDirectory directory := (hFiles.isDirectory_of_walk hWalk).1
    obtain ⟨hThere, hSize, hNew⟩ := of_lookup_none hLookup
    have hNames (other : Nat) := (names_addNamed_file hDirectory name other).1
    have hGrows (other : Nat) : ∀ entry ∈ files.names other,
        entry ∈ (files.addNamed directory name (.file [])).names other := by
      intro entry hEntry
      rw [hNames]
      split
      · next hHere =>
        subst hHere
        refine List.mem_append_left _ (List.mem_filter.mpr ⟨hEntry, ?_⟩)
        have hOther : name ≠ entry.1 := bne_iff_ne.mp (List.lookup_eq_none_iff.mp hNew entry hEntry)
        exact decide_eq_true hOther.symm
      · exact hEntry
    have hKeeps {other : Nat} (hOther : files.isRemoved other = false) :=
      isRemoved_eq_false_of_grows hOther (names_addNamed_file hDirectory name other).2 (hGrows _)
    refine ⟨fun other hOther => ?_, fun other entry hEntry => ?_⟩
    · by_cases hHere : other = directory
      · subst hHere
        exact hKeeps hThere
      · rw [hNames, if_neg hHere] at hOther
        exact hKeeps (hLegible.not_isRemoved other hOther)
    · rw [hNames] at hEntry
      split at hEntry
      · rcases List.mem_append.mp hEntry with hOld | hLast
        · exact hLegible.size_le directory entry (List.mem_of_mem_filter hOld)
        · rw [List.mem_singleton.mp hLast]
          exact hSize
      · exact hLegible.size_le other entry hEntry
  · exact hLegible

end NewFile

/-! ## The end of a path -/

theorem not_isDirectory_of_linkTarget? {inode : Nat} {target : String}
    (hLink : files.linkTarget? inode = some target) : ¬ files.isDirectory inode := by
  intro hDirectory
  obtain ⟨above, names, hNode⟩ := isDirectory_iff.mp hDirectory
  rw [linkTarget?, hNode] at hLink
  cases hLink

/-- Where a walk that follows every link ends at a file, one that stops at the last link ends at
that link or at the same file, and neither has come by a trailing slash. -/
theorem walkFrom_never_of_always {slashed : Bool} {links start : Nat} {components : List String}
    {directory inode : Nat} {name : String}
    (hPlace : files.walkFrom .always slashed links start components =
      .ok (.entry directory name false))
    (hChild : files.child? directory name = some inode) (hPlain : ¬ files.isDirectory inode) :
    slashed = false ∧ ∃ last lastName found,
      files.walkFrom .never slashed links start components = .ok (.entry last lastName false) ∧
      files.child? last lastName = some found ∧ ¬ files.isDirectory found := by
  fun_induction files.walkFrom .always slashed links start components with
  | case2 slashed links start rest ih =>
    rw [walkFrom_dot]
    exact ih hPlace
  | case4 slashed links start rest hRest hUp ih =>
    rw [walkFrom_up, if_neg hRest]
    exact ih hPlace
  | case5 slashed links start other rest hDot hUp found target hTarget hLast =>
    exact absurd rfl hLast.2
  | case7 slashed start other rest hDot hUp found target hTarget hLast links ih =>
    obtain ⟨hSlashed, hNever⟩ := ih hPlace
    obtain ⟨rfl, -⟩ := Bool.or_eq_false_iff.mp hSlashed
    rw [walkFrom_link hDot hUp hTarget]
    by_cases hRest : rest = []
    · -- The link at the end of the path, at which this walk stops.
      obtain ⟨link, hLink, hTo⟩ := Option.bind_eq_some_iff.mp hTarget
      rw [if_pos ⟨hRest, Bool.false_ne_true⟩]
      exact ⟨rfl, start, other, link, rfl, hLink, not_isDirectory_of_linkTarget? hTo⟩
    · rw [if_neg fun hEnd => hRest hEnd.1]
      exact ⟨rfl, hNever⟩
  | case8 slashed links start other hDot hUp found hNone =>
    obtain ⟨rfl, rfl, rfl⟩ := Place.entry.inj (Except.ok.inj hPlace)
    rw [walkFrom_name hDot hUp hNone, if_pos rfl]
    exact ⟨rfl, start, other, inode, rfl, hChild, hPlain⟩
  | case11 slashed links start other rest hDot hUp found hNone hRest inode hLookup hDirectory ih =>
    rw [walkFrom_name hDot hUp hNone, if_neg hRest, hLookup]
    dsimp only
    rw [if_pos hDirectory]
    exact ih hPlace
  | case1 | case3 | case6 | case9 | case10 | case12 => cases hPlace

/-- A path that leads to a file ends at its name, without a slash. -/
theorem exists_entry_of_find (hFiles : files.WellFormed) {path : String} {inode : Nat}
    (hFind : files.find path = .ok inode) (hPlain : ¬ files.isDirectory inode) :
    ∃ directory name, files.walk .always path = .ok (.entry directory name false) ∧
      files.child? directory name = some inode := by
  rw [find] at hFind
  obtain ⟨place, hWalk, hNode⟩ := bind_eq_ok.mp hFind
  cases place with
  | node found before =>
    obtain rfl := Except.ok.inj hNode
    exact absurd ((hFiles.isDirectory_of_walk hWalk).2 found before rfl) hPlain
  | entry directory name slashed =>
    rw [nodeAt] at hNode
    obtain ⟨there, hLookup, hThere⟩ := bind_eq_ok.mp hNode
    cases there with
    | none => cases hThere
    | some found =>
      dsimp only at hThere
      split at hThere
      · cases hThere
      · next hSlashed =>
        obtain rfl := Except.ok.inj hThere
        cases slashed with
        | true => exact absurd ⟨rfl, hPlain⟩ hSlashed
        | false => exact ⟨directory, name, hWalk, child?_of_lookup hLookup⟩

/-- **What can be found can be unlinked.** -/
theorem exists_unlink_of_find (hFiles : files.WellFormed) (hLegible : files.Legible)
    {path : String} {inode : Nat} (hFind : files.find path = .ok inode)
    (hPlain : ¬ files.isDirectory inode) : ∃ unlinked, files.unlink path = .ok unlinked := by
  obtain ⟨directory, name, hWalk, hChild⟩ := exists_entry_of_find hFiles hFind hPlain
  have hNever := walk_eq_walkFrom hWalk .never
  rw [walk_eq_walkFrom hWalk] at hWalk
  obtain ⟨-, last, lastName, found, hLast, hFound, hOther⟩ :=
    walkFrom_never_of_always hWalk hChild hPlain
  refine ⟨files.removeName last lastName, ?_⟩
  rw [unlink, hNever, hLast]
  change (files.lookup last lastName >>= _) = _
  rw [hLegible.lookup_eq hFound]
  change (if files.isDirectory found then _ else _) = _
  rw [if_neg hOther, if_neg Bool.false_ne_true]

/-! ## Files that can be deleted -/

/-- The path leads to a file, which can be deleted by it. -/
structure Removable (files : FileSystem) (path : String) : Prop where
  wellFormed : files.WellFormed
  legible : files.Legible
  leads : ∃ inode, files.find path = .ok inode ∧ ¬ files.isDirectory inode
  whole : path.toList.contains (Char.ofNat 0) = false

theorem Removable.of_skeleton {path : String} (hRemovable : files.Removable path)
    (hSkeleton : after.skeleton = files.skeleton) : after.Removable path where
  wellFormed := hRemovable.wellFormed.of_skeleton hSkeleton
  legible := hRemovable.legible.of_skeleton hSkeleton
  leads := by
    obtain ⟨inode, hFind, hPlain⟩ := hRemovable.leads
    refine ⟨inode, ?_, ?_⟩
    · rw [← find_skeleton, hSkeleton, find_skeleton, hFind]
    · rwa [← isDirectory_skeleton, hSkeleton, isDirectory_skeleton]
  whole := hRemovable.whole

theorem Removable.hasPath_eq {path : String} (hRemovable : files.Removable path) :
    files.hasPath path = true := by
  obtain ⟨inode, hFind, -⟩ := hRemovable.leads
  rw [hasPath, hFind]

end FileSystem

namespace FileStore

variable {files after : FileSystem} {store : FileStore}

theorem exists_remove_of_removable (hRemovable : files.Removable store.path) :
    ∃ removed, store.remove files = (.ok (), removed) := by
  obtain ⟨inode, hFind, hPlain⟩ := hRemovable.leads
  obtain ⟨unlinked, hUnlink⟩ :=
    FileSystem.exists_unlink_of_find hRemovable.wellFormed hRemovable.legible hFind hPlain
  have hDelete : unlinkFile files store.path = .ok unlinked := by
    rw [unlinkFile, FileSystem.guarded, List.any_cons, hRemovable.whole, hUnlink]
    rfl
  exact ⟨store.close unlinked, by rw [remove, hDelete]⟩

theorem contains_nul_of_openFile {path : String} {opened : Nat}
    (hOpen : openFile files path = .ok (opened, after)) :
    path.toList.contains (Char.ofNat 0) = false := by
  refine Bool.eq_false_iff.mpr fun hNul => ?_
  rw [openFile, FileSystem.guarded, if_pos (by rw [List.any_cons, hNul]; rfl)] at hOpen
  cases hOpen

/-- **A store that has just been created can delete its file.** -/
theorem removable_of_create (hFiles : files.WellFormed) (hLegible : files.Legible)
    {path : String} {answers : CreateAnswers}
    (hCreate : create files path answers = (.ok store, after)) : after.Removable store.path := by
  obtain ⟨opened, hOpen, -, hFind, -, rfl⟩ := exists_of_create hCreate
  have hOpened := openOrCreate_of_openFile hOpen
  have hOpenable := FileSystem.isOpenable_of_openOrCreate hFiles hOpened
  have hRemovable : opened.Removable store.path :=
    { wellFormed := (FileSystem.renames_of_openOrCreate hFiles hOpened).wellFormed
      legible := FileSystem.legible_of_openOrCreate hFiles hLegible hOpened
      leads := ⟨store.inode, hFind, FileSystem.not_isDirectory_of_isOpenable hOpenable⟩
      whole := contains_nul_of_openFile hOpen }
  refine hRemovable.of_skeleton ?_
  rw [FileSystem.skeleton_setContents]
  rfl

end FileStore

end PacketLog
