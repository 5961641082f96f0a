import PacketLog.FileStore.Shelf
import PacketLog.Proofs.FileSystem.Names
import PacketLog.Proofs.Store.History

/-!
# What acts on names leave alone

A file system is `WellFormed` if every directory has a directory above it and every name
leads to a node that is there.  A walk through it ends in a directory
(`WellFormed.isDirectory_of_walk`), so that whoever puts a name at the end of a path or
takes one away changes a directory and never a file.

`Renames files after` says that no more has happened than that: directories may have got
other names and there may be new nodes, but whatever is no directory is as it was, and so
are the locks.  One lemma for a changed directory and one for a new node make up all acts
on names (`OutsideAct.renames`).
-/

namespace PacketLog

namespace FileSystem

/-! ## One node -/

section Nodes

variable {files : FileSystem} {inode other : Nat}

theorem isDirectory_iff :
    files.isDirectory inode ↔
      ∃ parent names, files.node? inode = some (.directory parent names) := by
  rw [isDirectory]
  split
  · next parent names hNode => simp [hNode]
  · next hNode =>
    refine ⟨fun hFalse => absurd hFalse Bool.false_ne_true, ?_⟩
    rintro ⟨parent, names, hDirectory⟩
    exact absurd hDirectory (hNode parent names)

theorem lt_of_node? {node : Node} (hNode : files.node? inode = some node) :
    inode < files.nodes.length :=
  (List.getElem?_eq_some_iff.mp hNode).1

theorem exists_node?_of_lt (hLt : inode < files.nodes.length) :
    ∃ node, files.node? inode = some node :=
  ⟨files.nodes[inode], List.getElem?_eq_getElem hLt⟩

theorem node?_setNode_of_ne (hNe : other ≠ inode) (node : Node) :
    (files.setNode inode node).node? other = files.node? other :=
  List.getElem?_set_ne hNe.symm

theorem node?_addNode_of_lt (hLt : other < files.nodes.length) (node : Node) :
    (files.addNode node).node? other = files.node? other :=
  List.getElem?_append_left hLt

theorem node?_addNode_self (files : FileSystem) (node : Node) :
    (files.addNode node).node? files.nodes.length = some node :=
  List.getElem?_concat_length

theorem isDirectory_congr {after : FileSystem} (hNode : after.node? other = files.node? other) :
    after.isDirectory other = files.isDirectory other := by
  rw [isDirectory, isDirectory, hNode]

theorem parent_congr {after : FileSystem} (hNode : after.node? other = files.node? other) :
    after.parent other = files.parent other := by
  rw [parent, parent, hNode]

theorem names_congr {after : FileSystem} (hNode : after.node? other = files.node? other) :
    after.names other = files.names other := by
  rw [names, names, hNode]

end Nodes

/-! ## Well-formed file systems -/

/-- Above every directory is a directory, and every name leads to a node that is there. -/
structure WellFormed (files : FileSystem) : Prop where
  root_isDirectory : files.isDirectory root
  current_isDirectory : files.isDirectory files.current
  parent_isDirectory : ∀ inode, files.isDirectory (files.parent inode)
  lt_of_mem : ∀ directory, ∀ entry ∈ files.names directory, entry.2 < files.nodes.length

theorem wellFormed_empty : ({} : FileSystem).WellFormed where
  root_isDirectory := rfl
  current_isDirectory := rfl
  parent_isDirectory := fun inode => by
    cases inode with
    | zero => rfl
    | succ inode => rfl
  lt_of_mem := fun directory entry hEntry => by
    cases directory with
    | zero => cases hEntry
    | succ directory => cases hEntry

namespace WellFormed

variable {files : FileSystem}

theorem isDirectory_of_walkFrom (hFiles : files.WellFormed) {following : Following}
    {slashed : Bool} {links start : Nat} {components : List String} {place : Place}
    (hStart : files.isDirectory start)
    (hWalk : files.walkFrom following slashed links start components = .ok place) :
    files.isDirectory place.directory ∧
      ∀ inode before, place = .node inode before → files.isDirectory inode := by
  fun_induction files.walkFrom following slashed links start components with
  | case1 slashed links start =>
    cases hWalk
    exact ⟨hStart, fun inode before hNode => (Place.node.inj hNode).1 ▸ hStart⟩
  | case2 slashed links start rest ih => exact ih hStart hWalk
  | case3 slashed links start hUp =>
    cases hWalk
    exact ⟨hStart, fun inode before hNode =>
      (Place.node.inj hNode).1 ▸ hFiles.parent_isDirectory start⟩
  | case4 slashed links start rest hRest hUp ih =>
    exact ih (hFiles.parent_isDirectory start) hWalk
  | case7 slashed start name rest hDot hUp found target hTarget hLast links ih =>
    refine ih ?_ hWalk
    split
    · exact hFiles.root_isDirectory
    · exact hStart
  | case5 | case8 =>
    cases hWalk
    refine ⟨hStart, fun inode before hNode => ?_⟩
    cases hNode
  | case11 slashed links start name rest hDot hUp found hPlain hRest inode hLookup hDirectory ih =>
    exact ih hDirectory hWalk
  | case6 | case9 | case10 | case12 => cases hWalk

theorem isDirectory_of_walk (hFiles : files.WellFormed) {following : Following} {path : String}
    {place : Place} (hWalk : files.walk following path = .ok place) :
    files.isDirectory place.directory ∧
      ∀ inode before, place = .node inode before → files.isDirectory inode := by
  rw [walk_eq_walkFrom hWalk] at hWalk
  refine hFiles.isDirectory_of_walkFrom ?_ hWalk
  split
  · exact hFiles.root_isDirectory
  · exact hFiles.current_isDirectory

theorem lt_of_child? (hFiles : files.WellFormed) {directory inode : Nat} {name : String}
    (hChild : files.child? directory name = some inode) : inode < files.nodes.length :=
  hFiles.lt_of_mem directory _ (mem_of_lookup hChild)

theorem of_skeleton {after : FileSystem} (hFiles : files.WellFormed)
    (hSkeleton : after.skeleton = files.skeleton) : after.WellFormed := by
  have hDirectory (inode : Nat) : after.isDirectory inode = files.isDirectory inode := by
    rw [← isDirectory_skeleton, hSkeleton, isDirectory_skeleton]
  have hParent (inode : Nat) : after.parent inode = files.parent inode := by
    rw [← parent_skeleton, hSkeleton, parent_skeleton]
  have hNames (inode : Nat) : after.names inode = files.names inode := by
    rw [← names_skeleton, hSkeleton, names_skeleton]
  have hCurrent : after.current = files.current := congrArg (fun files => files.current) hSkeleton
  have hLength : after.nodes.length = files.nodes.length := by
    have hNodes := congrArg (fun files => files.nodes.length) hSkeleton
    simpa [skeleton] using hNodes
  exact {
    root_isDirectory := (hDirectory root).trans hFiles.root_isDirectory
    current_isDirectory := by rw [hDirectory, hCurrent, hFiles.current_isDirectory]
    parent_isDirectory := fun inode => by rw [hDirectory, hParent, hFiles.parent_isDirectory]
    lt_of_mem := fun directory entry hEntry => by
      rw [hLength]
      exact hFiles.lt_of_mem directory entry (hNames directory ▸ hEntry) }

end WellFormed

/-! ## Changes of names -/

/-- From `files` to `after` names have changed and nodes have been added, and no more. -/
structure Renames (files after : FileSystem) : Prop where
  wellFormed : after.WellFormed
  isDirectory : ∀ inode, files.isDirectory inode → after.isDirectory inode
  node?_eq : ∀ inode node, files.node? inode = some node → ¬ files.isDirectory inode →
    after.node? inode = some node
  length_le : files.nodes.length ≤ after.nodes.length
  locked_eq : after.locked = files.locked

namespace Renames

variable {files after last : FileSystem}

theorem refl (hFiles : files.WellFormed) : files.Renames files where
  wellFormed := hFiles
  isDirectory := fun _ hDirectory => hDirectory
  node?_eq := fun _ _ hNode _ => hNode
  length_le := Nat.le_refl _
  locked_eq := rfl

theorem trans (hFirst : files.Renames after) (hThen : after.Renames last) : files.Renames last where
  wellFormed := hThen.wellFormed
  isDirectory := fun inode hDirectory =>
    hThen.isDirectory inode (hFirst.isDirectory inode hDirectory)
  node?_eq := fun inode node hNode hOther => by
    have hAfter := hFirst.node?_eq inode node hNode hOther
    refine hThen.node?_eq inode node hAfter ?_
    rwa [isDirectory_congr (hAfter.trans hNode.symm)]
  length_le := hFirst.length_le.trans hThen.length_le
  locked_eq := hThen.locked_eq.trans hFirst.locked_eq

end Renames

section Changes

variable {files : FileSystem} {directory inode : Nat}

theorem renames_setDirectory (hFiles : files.WellFormed) (hDirectory : files.isDirectory directory)
    {above : Nat} (hAbove : files.isDirectory above) {names : List (String × Nat)}
    (hNames : ∀ entry ∈ names, entry.2 < files.nodes.length) :
    files.Renames (files.setNode directory (.directory above names)) := by
  obtain ⟨oldAbove, oldNames, hNode⟩ := isDirectory_iff.mp hDirectory
  have hSelf := node?_setNode hNode (.directory above names)
  have hKeep (other : Nat) :
      (files.setNode directory (.directory above names)).isDirectory other =
        files.isDirectory other := by
    by_cases hHere : other = directory
    · rw [hHere, hDirectory]
      exact isDirectory_iff.mpr ⟨above, names, hSelf⟩
    · exact isDirectory_congr (node?_setNode_of_ne hHere _)
  have hLength : (files.setNode directory (.directory above names)).nodes.length =
      files.nodes.length := List.length_set
  refine ⟨⟨?_, ?_, fun inode => ?_, fun other entry hEntry => ?_⟩, fun other hOther => ?_,
    fun other node hOther hPlain => ?_, hLength.ge, rfl⟩
  · rw [hKeep, hFiles.root_isDirectory]
  · rw [hKeep]
    exact hFiles.current_isDirectory
  · rw [hKeep]
    by_cases hHere : inode = directory
    · rw [hHere, parent, hSelf]
      exact hAbove
    · rw [parent_congr (node?_setNode_of_ne hHere _)]
      exact hFiles.parent_isDirectory inode
  · rw [hLength]
    by_cases hHere : other = directory
    · rw [hHere, FileSystem.names, hSelf] at hEntry
      exact hNames entry hEntry
    · rw [names_congr (node?_setNode_of_ne hHere _)] at hEntry
      exact hFiles.lt_of_mem other entry hEntry
  · rw [hKeep, hOther]
  · have hHere : other ≠ directory := fun hHere => hPlain (hHere ▸ hDirectory)
    rw [node?_setNode_of_ne hHere, hOther]

theorem renames_removeName (hFiles : files.WellFormed) (hDirectory : files.isDirectory directory)
    (name : String) : files.Renames (files.removeName directory name) :=
  renames_setDirectory hFiles hDirectory (hFiles.parent_isDirectory directory)
    fun entry hEntry => hFiles.lt_of_mem directory entry (List.mem_of_mem_filter hEntry)

theorem renames_putName (hFiles : files.WellFormed) (hDirectory : files.isDirectory directory)
    (name : String) (hInode : inode < files.nodes.length) :
    files.Renames (files.putName directory name inode) := by
  have hRemoved := renames_removeName hFiles hDirectory name
  refine hRemoved.trans (renames_setDirectory hRemoved.wellFormed
    (hRemoved.isDirectory directory hDirectory) (hRemoved.wellFormed.parent_isDirectory directory)
    fun entry hEntry => ?_)
  rcases List.mem_append.mp hEntry with hOld | hNew
  · exact hRemoved.wellFormed.lt_of_mem directory entry hOld
  · rw [List.mem_singleton.mp hNew]
    exact hInode.trans_le hRemoved.length_le

theorem renames_addNode (hFiles : files.WellFormed) {node : Node}
    (hNode : ∀ above names, node = .directory above names → files.isDirectory above ∧ names = []) :
    files.Renames (files.addNode node) := by
  have hSelf := node?_addNode_self files node
  have hKeep (other : Nat) (hDirectory : files.isDirectory other) :
      (files.addNode node).isDirectory other := by
    obtain ⟨above, names, hOther⟩ := isDirectory_iff.mp hDirectory
    rw [isDirectory_congr (node?_addNode_of_lt (lt_of_node? hOther) node), hDirectory]
  have hLength : (files.addNode node).nodes.length = files.nodes.length + 1 :=
    List.length_append
  have hCases (other : Nat) : other < files.nodes.length ∨ other = files.nodes.length ∨
      (files.addNode node).node? other = none := by
    rcases Nat.lt_trichotomy other files.nodes.length with hLt | hHere | hPast
    · exact Or.inl hLt
    · exact Or.inr (Or.inl hHere)
    · exact Or.inr (Or.inr (List.getElem?_eq_none (by rw [hLength]; omega)))
  refine ⟨⟨hKeep _ hFiles.root_isDirectory, hKeep _ hFiles.current_isDirectory, fun inode => ?_,
    fun other entry hEntry => ?_⟩, hKeep, fun other old hOther _ => ?_, by omega, rfl⟩
  · refine hKeep _ ?_
    rcases hCases inode with hLt | rfl | hNone
    · rw [parent_congr (node?_addNode_of_lt hLt node)]
      exact hFiles.parent_isDirectory inode
    · rw [parent, hSelf]
      split
      · next above names hNew => exact (hNode above names (Option.some.inj hNew)).1
      · exact hFiles.root_isDirectory
    · rw [parent, hNone]
      exact hFiles.root_isDirectory
  · rw [hLength]
    rcases hCases other with hLt | rfl | hNone
    · rw [names_congr (node?_addNode_of_lt hLt node)] at hEntry
      exact (hFiles.lt_of_mem other entry hEntry).trans (Nat.lt_succ_self _)
    · rw [FileSystem.names, hSelf] at hEntry
      split at hEntry
      · next above names hNew =>
        rw [(hNode above names (Option.some.inj hNew)).2] at hEntry
        cases hEntry
      · cases hEntry
    · rw [FileSystem.names, hNone] at hEntry
      cases hEntry
  · rw [node?_addNode_of_lt (lt_of_node? hOther), hOther]

theorem renames_addNamed (hFiles : files.WellFormed) (hDirectory : files.isDirectory directory)
    (name : String) {node : Node}
    (hNode : ∀ above names, node = .directory above names → files.isDirectory above ∧ names = []) :
    files.Renames (files.addNamed directory name node) := by
  have hAdded := renames_addNode hFiles hNode
  refine hAdded.trans (renames_putName hAdded.wellFormed (hAdded.isDirectory _ hDirectory) name ?_)
  rw [addNode, List.length_append]
  exact Nat.lt_succ_self _

theorem renames_moveName (hFiles : files.WellFormed) {oldDirectory newDirectory : Nat}
    (hOld : files.isDirectory oldDirectory) (hNew : files.isDirectory newDirectory)
    (oldName newName : String) (hInode : inode < files.nodes.length) :
    files.Renames (files.moveName oldDirectory oldName newDirectory newName inode) := by
  have hRemoved := renames_removeName hFiles hOld oldName
  have hMoved := hRemoved.trans (renames_putName hRemoved.wellFormed
    (hRemoved.isDirectory _ hNew) newName (hInode.trans_le hRemoved.length_le))
  show files.Renames (if _ then _ else _)
  split
  · next hDirectory =>
    exact hMoved.trans (renames_setDirectory hMoved.wellFormed hDirectory
      (hMoved.isDirectory _ hNew) (hMoved.wellFormed.lt_of_mem inode))
  · exact hMoved

end Changes

/-! ## Acts on names -/

section Acts

variable {files after : FileSystem} {path : String}

theorem renames_of_openOrCreate (hFiles : files.WellFormed) {opened : Nat}
    (hOpen : files.openOrCreate path = .ok (opened, after)) : files.Renames after := by
  obtain ⟨directory, name, hWalk, ⟨-, -, rfl⟩ | ⟨-, -, rfl⟩⟩ := exists_of_openOrCreate hOpen
  · exact renames_addNamed hFiles (hFiles.isDirectory_of_walk hWalk).1 name nofun
  · exact .refl hFiles

theorem renames_of_unlink (hFiles : files.WellFormed) (hUnlink : files.unlink path = .ok after) :
    files.Renames after := by
  obtain ⟨directory, name, slashed, inode, hWalk, -, -, rfl⟩ := exists_of_unlink hUnlink
  exact renames_removeName hFiles (hFiles.isDirectory_of_walk hWalk).1 name

theorem renames_of_makeDirectory (hFiles : files.WellFormed)
    (hMake : files.makeDirectory path = .ok after) : files.Renames after := by
  rw [makeDirectory] at hMake
  obtain ⟨place, hWalk, hPlace⟩ := bind_eq_ok.mp hMake
  have hDirectory := (hFiles.isDirectory_of_walk hWalk).1
  cases place with
  | node inode before => cases hPlace
  | entry directory name slashed =>
    obtain ⟨found, -, hFound⟩ := bind_eq_ok.mp hPlace
    cases found with
    | some inode => cases hFound
    | none =>
      obtain rfl := Except.ok.inj hFound
      refine renames_addNamed hFiles hDirectory name fun above names hNode => ?_
      obtain ⟨rfl, rfl⟩ := Node.directory.inj hNode
      exact ⟨hDirectory, rfl⟩

theorem isDirectory_of_newName (hFiles : files.WellFormed) {directory : Nat} {name : String}
    (hName : files.newName path = .ok (directory, name)) : files.isDirectory directory := by
  rw [newName] at hName
  obtain ⟨place, hWalk, hPlace⟩ := bind_eq_ok.mp hName
  have hDirectory := (hFiles.isDirectory_of_walk hWalk).1
  cases place with
  | node inode before => cases hPlace
  | entry found last slashed =>
    obtain ⟨there, -, hThere⟩ := bind_eq_ok.mp hPlace
    cases there with
    | some inode => cases hThere
    | none =>
      dsimp only at hThere
      split at hThere
      · cases hThere
      · obtain ⟨rfl, -⟩ := Prod.mk.inj (Except.ok.inj hThere)
        exact hDirectory

theorem renames_of_makeLink (hFiles : files.WellFormed) {target : String}
    (hMake : files.makeLink target path = .ok after) : files.Renames after := by
  rw [makeLink] at hMake
  split at hMake
  · cases hMake
  · split at hMake
    · cases hMake
    · obtain ⟨⟨directory, name⟩, hName, hAdded⟩ := bind_eq_ok.mp hMake
      obtain rfl := Except.ok.inj hAdded
      exact renames_addNamed hFiles (isDirectory_of_newName hFiles hName) name nofun

theorem lt_of_nodeAt (hFiles : files.WellFormed) {following : Following} {place : Place}
    {inode : Nat} (hWalk : files.walk following path = .ok place)
    (hNode : files.nodeAt place = .ok inode) : inode < files.nodes.length := by
  cases place with
  | node found before =>
    obtain rfl := Except.ok.inj hNode
    have hDirectory := (hFiles.isDirectory_of_walk hWalk).2 found before rfl
    obtain ⟨above, names, hFound⟩ := isDirectory_iff.mp hDirectory
    exact lt_of_node? hFound
  | entry directory name slashed =>
    rw [nodeAt] at hNode
    obtain ⟨found, hLookup, hFound⟩ := bind_eq_ok.mp hNode
    cases found with
    | none => cases hFound
    | some there =>
      dsimp only at hFound
      split at hFound
      · cases hFound
      · obtain rfl := Except.ok.inj hFound
        exact hFiles.lt_of_child? (child?_of_lookup hLookup)

theorem renames_of_addHardLink (hFiles : files.WellFormed) {existing : String}
    (hAdd : files.addHardLink existing path = .ok after) : files.Renames after := by
  rw [addHardLink] at hAdd
  obtain ⟨place, hWalk, hPlace⟩ := bind_eq_ok.mp hAdd
  obtain ⟨inode, hNode, hInode⟩ := bind_eq_ok.mp hPlace
  obtain ⟨⟨directory, name⟩, hName, hAdded⟩ := bind_eq_ok.mp hInode
  dsimp only at hAdded
  generalize (if files.isDirectory inode then inode else place.directory) = holder at hAdded
  split at hAdded
  · cases hAdded
  · split at hAdded
    · cases hAdded
    · obtain rfl := Except.ok.inj hAdded
      exact renames_putName hFiles (isDirectory_of_newName hFiles hName) name
        (lt_of_nodeAt hFiles hWalk hNode)

/-- A rename moves one name, unless both paths lead to the same node. -/
theorem renames_of_rename (hFiles : files.WellFormed) {target : String}
    (hRename : files.rename path target = .ok after) : files.Renames after := by
  rw [rename] at hRename
  obtain ⟨source, hSource, hRest⟩ := bind_eq_ok.mp hRename
  obtain ⟨destination, hDestination, hMove⟩ := bind_eq_ok.mp hRest
  have hOld := (hFiles.isDirectory_of_walk hSource).1
  have hNew := (hFiles.isDirectory_of_walk hDestination).1
  extract_lets move at hMove
  split at hMove
  · cases hMove
  · rcases source with ⟨_, _⟩ | ⟨oldDirectory, oldName, oldSlashed⟩
    · cases hMove
    · rcases destination with ⟨_, _⟩ | ⟨newDirectory, newName, newSlashed⟩
      · cases hMove
      · obtain ⟨found, hLookup, hFound⟩ := bind_eq_ok.mp hMove
        cases found with
        | none => cases hFound
        | some inode =>
          have hMoved := renames_moveName hFiles hOld hNew oldName newName
            (hFiles.lt_of_child? (child?_of_lookup hLookup))
          obtain ⟨replaced, -, hResult⟩ := bind_eq_ok.mp hFound
          -- Every check that passes leads on; the two moves at the end are the same one.
          split at hResult
          · cases hResult
          · split at hResult
            · cases hResult
            · cases replaced with
              | none =>
                dsimp only at hResult
                split at hResult
                · cases hResult
                · rwa [← Except.ok.inj hResult]
              | some replaced =>
                dsimp only at hResult
                split at hResult
                · cases hResult
                · split at hResult
                  · rw [← Except.ok.inj hResult]
                    exact .refl hFiles
                  · split at hResult
                    · cases hResult
                    · rwa [← Except.ok.inj hResult]

end Acts

/-! ## Acts on bytes too -/

/-- The node is a regular file or a device: one that can be opened for writing. -/
def isOpenable (files : FileSystem) (inode : Nat) : Bool :=
  match files.node? inode with
  | some (.file _) | some (.device _) => true
  | _ => false

/-- From `files` to `after` no file or device has become anything else, and no lock was touched. -/
structure Evolves (files after : FileSystem) : Prop where
  wellFormed : after.WellFormed
  isOpenable : ∀ inode, files.isOpenable inode → after.isOpenable inode
  locked_eq : after.locked = files.locked

section Bytes

variable {files after last : FileSystem}

theorem isOpenable_skeleton (files : FileSystem) (inode : Nat) :
    files.skeleton.isOpenable inode = files.isOpenable inode := by
  rw [isOpenable, isOpenable, node?_skeleton]
  rcases files.node? inode with _ | _ | _ | _ | _ <;> rfl

theorem isRegular_skeleton (files : FileSystem) (inode : Nat) :
    files.skeleton.isRegular inode = files.isRegular inode := by
  rw [isRegular, isRegular, node?_skeleton]
  rcases files.node? inode with _ | _ | _ | _ | _ <;> rfl

theorem not_isDirectory_of_isOpenable {inode : Nat} (hOpenable : files.isOpenable inode) :
    ¬ files.isDirectory inode := by
  intro hDirectory
  obtain ⟨above, names, hNode⟩ := isDirectory_iff.mp hDirectory
  rw [isOpenable, hNode] at hOpenable
  cases hOpenable

theorem linkTarget?_of_isOpenable {inode : Nat} (hOpenable : files.isOpenable inode) :
    files.linkTarget? inode = none := by
  unfold isOpenable at hOpenable
  rw [linkTarget?]
  split at hOpenable
  · next hNode => rw [hNode]
  · next hNode => rw [hNode]
  · cases hOpenable

/-- What is opened for writing is a file or a device: links are followed, directories refused. -/
theorem isOpenable_of_openOrCreate (hFiles : files.WellFormed) {path : String} {inode : Nat}
    (hOpen : files.openOrCreate path = .ok (inode, after)) : after.isOpenable inode := by
  obtain ⟨directory, name, hWalk, ⟨-, rfl, rfl⟩ | ⟨hLookup, hPlain, rfl⟩⟩ :=
    exists_of_openOrCreate hOpen
  · have hDirectory : files.isDirectory directory := (hFiles.isDirectory_of_walk hWalk).1
    have hAdded : files.Renames (files.addNode (.file [])) :=
      renames_addNode hFiles fun above names hSame => (by cases hSame)
    have hSelf := node?_addNode_self files (.file [])
    have hNamed := renames_putName hAdded.wellFormed (hAdded.isDirectory _ hDirectory) name
      (lt_of_node? hSelf)
    have hFile : (files.addNode (.file [])).isDirectory files.nodes.length ≠ true := by
      rw [isDirectory, hSelf]
      exact Bool.false_ne_true
    rw [isOpenable, addNamed, hNamed.node?_eq _ _ hSelf hFile]
  · have hChild := child?_of_lookup hLookup
    have hAlways := walk_always_of_ifPlain hWalk
    rw [walk_eq_walkFrom hAlways] at hAlways
    have hTarget := linkTarget?_of_walkFrom hAlways hChild
    obtain ⟨node, hNode⟩ := exists_node?_of_lt (hFiles.lt_of_child? hChild)
    rw [isDirectory, hNode] at hPlain
    rw [linkTarget?, hNode] at hTarget
    rw [isOpenable, hNode]
    cases node with
    | file reversed => rfl
    | device roomy => rfl
    | directory above names => exact absurd rfl hPlain
    | link target => cases hTarget

theorem Evolves.trans (hFirst : files.Evolves after) (hThen : after.Evolves last) :
    files.Evolves last where
  wellFormed := hThen.wellFormed
  isOpenable := fun inode hOpenable => hThen.isOpenable inode (hFirst.isOpenable inode hOpenable)
  locked_eq := hThen.locked_eq.trans hFirst.locked_eq

theorem Renames.node?_of_isOpenable (hRenames : files.Renames after) {inode : Nat}
    (hOpenable : files.isOpenable inode) : after.node? inode = files.node? inode := by
  have hPlain := not_isDirectory_of_isOpenable hOpenable
  cases hNode : files.node? inode with
  | none =>
    rw [FileSystem.isOpenable, hNode] at hOpenable
    cases hOpenable
  | some node => exact hRenames.node?_eq inode node hNode hPlain

theorem isOpenable_congr {inode : Nat} (hNode : after.node? inode = files.node? inode) :
    after.isOpenable inode = files.isOpenable inode := by
  rw [isOpenable, isOpenable, hNode]

theorem Renames.evolves (hRenames : files.Renames after) : files.Evolves after where
  wellFormed := hRenames.wellFormed
  isOpenable := fun inode hOpenable => by
    rwa [isOpenable_congr (hRenames.node?_of_isOpenable hOpenable)]
  locked_eq := hRenames.locked_eq

theorem evolves_of_skeleton (hFiles : files.WellFormed)
    (hSkeleton : after.skeleton = files.skeleton) (hLocked : after.locked = files.locked) : files.Evolves after where
  wellFormed := hFiles.of_skeleton hSkeleton
  isOpenable := fun inode hOpenable => by
    rwa [← isOpenable_skeleton, hSkeleton, isOpenable_skeleton]
  locked_eq := hLocked

theorem evolves_of_writeTo (hFiles : files.WellFormed) {inode : Nat} {bytes : Bytes}
    (hWrite : files.writeTo inode bytes = .ok after) : files.Evolves after := by
  rw [writeTo] at hWrite
  split at hWrite
  · split at hWrite
    · rw [← Except.ok.inj hWrite]
      exact evolves_of_skeleton hFiles rfl rfl
    · cases hWrite
  · rw [← Except.ok.inj hWrite]
    exact evolves_of_skeleton hFiles (files.skeleton_appendTo inode bytes)
      (files.locked_appendTo inode bytes)

end Bytes

end FileSystem

namespace OutsideAct

open FileSystem

variable {files after : FileSystem}

/-- The act leaves the bytes of all files alone. -/
def keepsBytes : OutsideAct → Bool
  | write _ _ | append _ _ => false
  | _ => true

/-- **What is done to names is done to nothing else.** -/
theorem renames (hFiles : files.WellFormed) {act : OutsideAct} (hKeeps : act.keepsBytes)
    (hAct : act.result files = .ok after) : files.Renames after := by
  cases act with
  | write path data => cases hKeeps
  | append path data => cases hKeeps
  | unlink path => exact renames_of_unlink hFiles hAct
  | makeDirectory path => exact renames_of_makeDirectory hFiles hAct
  | rename path target => exact renames_of_rename hFiles hAct
  | makeLink target path => exact renames_of_makeLink hFiles hAct
  | addHardLink existing path => exact renames_of_addHardLink hFiles hAct

/-- Whatever is done outside, no file becomes anything else. -/
theorem evolves (hFiles : files.WellFormed) {act : OutsideAct}
    (hAct : act.result files = .ok after) : files.Evolves after := by
  cases hKeeps : act.keepsBytes with
  | true => exact (renames hFiles hKeeps hAct).evolves
  | false =>
    cases act with
    | write path data =>
      obtain ⟨⟨inode, opened⟩, hOpen, hWrite⟩ := bind_eq_ok.mp hAct
      have hOpened := (renames_of_openOrCreate hFiles hOpen).evolves
      have hEmptied : opened.Evolves (opened.setContents inode []) :=
        evolves_of_skeleton hOpened.wellFormed (opened.skeleton_setContents inode [])
          (opened.locked_setContents inode [])
      exact (hOpened.trans hEmptied).trans (evolves_of_writeTo hEmptied.wellFormed hWrite)
    | append path data =>
      obtain ⟨inode, -, hWrite⟩ := bind_eq_ok.mp hAct
      split at hWrite
      · cases hWrite
      · exact evolves_of_writeTo hFiles hWrite
    | _ => cases hKeeps

end OutsideAct

end PacketLog
