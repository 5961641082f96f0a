import PacketLog.Proofs.FileStore.Positions
import PacketLog.Proofs.Lookup

/-!
# Names

What a path leads to depends on the directories, the symbolic links and the working
directory, and on nothing else: `skeleton` leaves out the bytes and the locks, and
`find_skeleton` says that no path is led astray by that.  Whoever opens a path that
leads somewhere opens what it leads to (`eq_of_openOrCreate`), and a path that has been
unlinked leads nowhere (`find_ne_ok_of_unlink`).  The last two are about walks that end
at a symbolic link in different ways, and are compared component by component.
-/

namespace PacketLog

def Node.bare : Node → Node
  | .file _ => .file []
  | node => node

namespace FileSystem

theorem bind_eq_ok {α β : Type} {first : Except SystemFailure α}
    {next : α → Except SystemFailure β} {value : β} :
    (first >>= next) = .ok value ↔ ∃ found, first = .ok found ∧ next found = .ok value := by
  cases first <;> simp [bind, Except.bind]

/-! ## One component -/

section Components

variable {files : FileSystem} {following : Following} {slashed : Bool} {links start : Nat}
  {name target : String} {rest : List String}

theorem walkFrom_nil :
    files.walkFrom following slashed links start [] = .ok (.node start start) := by
  rw [walkFrom]

theorem walkFrom_dot :
    files.walkFrom following slashed links start ("." :: rest) =
      files.walkFrom following slashed links start rest := by
  rw [walkFrom, if_pos rfl]

theorem walkFrom_up :
    files.walkFrom following slashed links start (".." :: rest) =
      if rest = [] then .ok (.node (files.parent start) start)
      else files.walkFrom following slashed links (files.parent start) rest := by
  rw [walkFrom, if_neg (by decide), if_pos rfl]

theorem walkFrom_link (hDot : name ≠ ".") (hUp : name ≠ "..")
    (hTarget : (files.child? start name).bind files.linkTarget? = some target) :
    files.walkFrom following slashed links start (name :: rest) =
      if rest = [] ∧ ¬ following.follows slashed then .ok (.entry start name slashed)
      else
        match links with
        | 0 => .error .tooManyLinks
        | links + 1 =>
          files.walkFrom following (slashed || (rest = [] && Path.slashed target)) links
            (if Path.isAbsolute target then root else start) (Path.components target ++ rest) := by
  rw [walkFrom.eq_def]
  dsimp only
  rw [if_neg hDot, if_neg hUp]
  split
  · next found hFound =>
    obtain rfl := Option.some.inj (hFound.symm.trans hTarget)
    rfl
  · next hFound =>
    rw [hFound] at hTarget
    cases hTarget

theorem walkFrom_name (hDot : name ≠ ".") (hUp : name ≠ "..")
    (hPlain : (files.child? start name).bind files.linkTarget? = none) :
    files.walkFrom following slashed links start (name :: rest) =
      if rest = [] then .ok (.entry start name slashed)
      else
        match files.lookup start name with
        | .error failure => .error failure
        | .ok none => .error .notFound
        | .ok (some inode) =>
          if files.isDirectory inode then files.walkFrom following slashed links inode rest
          else .error .notDirectory := by
  rw [walkFrom.eq_def]
  dsimp only
  rw [if_neg hDot, if_neg hUp]
  split
  · next found hFound =>
    rw [hFound] at hPlain
    cases hPlain
  · rfl

end Components

theorem walk_eq_walkFrom {files : FileSystem} {following : Following} {path : String}
    {place : Place} (hWalk : files.walk following path = .ok place) (other : Following) :
    files.walk other path =
      files.walkFrom other (Path.slashed path) linkBudget
        (if Path.isAbsolute path then root else files.current) (Path.components path) := by
  rw [walk] at hWalk ⊢
  split at hWalk
  · cases hWalk
  · split at hWalk
    · cases hWalk
    · next hEmpty hLimit => rw [if_neg hEmpty, if_neg hLimit]

/-- The names alone: no bytes and no locks. -/
def skeleton (files : FileSystem) : FileSystem where
  nodes := files.nodes.map Node.bare
  sealedDirectories := files.sealedDirectories
  current := files.current

variable (files : FileSystem)

theorem node?_skeleton (inode : Nat) :
    files.skeleton.node? inode = (files.node? inode).map Node.bare :=
  List.getElem?_map

theorem names_skeleton (directory : Nat) :
    files.skeleton.names directory = files.names directory := by
  rw [names, names, node?_skeleton]
  rcases files.node? directory with _ | _ | _ | _ | _ <;> rfl

theorem parent_skeleton (directory : Nat) :
    files.skeleton.parent directory = files.parent directory := by
  rw [parent, parent, node?_skeleton]
  rcases files.node? directory with _ | _ | _ | _ | _ <;> rfl

theorem isDirectory_skeleton (inode : Nat) :
    files.skeleton.isDirectory inode = files.isDirectory inode := by
  rw [isDirectory, isDirectory, node?_skeleton]
  rcases files.node? inode with _ | _ | _ | _ | _ <;> rfl

theorem linkTarget?_skeleton (inode : Nat) :
    files.skeleton.linkTarget? inode = files.linkTarget? inode := by
  rw [linkTarget?, linkTarget?, node?_skeleton]
  rcases files.node? inode with _ | _ | _ | _ | _ <;> rfl

theorem child?_skeleton (directory : Nat) (name : String) :
    files.skeleton.child? directory name = files.child? directory name := by
  rw [child?, names_skeleton, child?]

theorem lookup_skeleton (directory : Nat) (name : String) :
    files.skeleton.lookup directory name = files.lookup directory name := by
  rw [lookup, lookup, isRemoved, isRemoved, nameOf?, nameOf?, names_skeleton, parent_skeleton,
    child?_skeleton]
  rfl

theorem walkFrom_skeleton (following : Following) (slashed : Bool) (links start : Nat)
    (components : List String) :
    files.skeleton.walkFrom following slashed links start components =
      files.walkFrom following slashed links start components := by
  have hFound (start : Nat) (name : String) :
      (files.skeleton.child? start name).bind files.skeleton.linkTarget? =
        (files.child? start name).bind files.linkTarget? := by
    rw [child?_skeleton, funext files.linkTarget?_skeleton]
  fun_induction files.walkFrom following slashed links start components with
  | case1 => rw [walkFrom_nil]
  | case2 slashed links start rest ih => rw [walkFrom_dot, ih]
  | case3 slashed links start hUp => rw [walkFrom_up, if_pos rfl, parent_skeleton]
  | case4 slashed links start rest hRest hUp ih =>
    rw [walkFrom_up, if_neg hRest, parent_skeleton, ih]
  | case5 slashed links start name rest hDot hUp found target hTarget hLast =>
    rw [walkFrom_link hDot hUp ((hFound start name).trans hTarget), if_pos hLast]
  | case6 slashed start name rest hDot hUp found target hTarget hLast =>
    rw [walkFrom_link hDot hUp ((hFound start name).trans hTarget), if_neg hLast]
  | case7 slashed start name rest hDot hUp found target hTarget hLast links ih =>
    rw [walkFrom_link hDot hUp ((hFound start name).trans hTarget), if_neg hLast]
    exact ih
  | case8 slashed links start name hDot hUp found hPlain =>
    rw [walkFrom_name hDot hUp ((hFound start name).trans hPlain), if_pos rfl]
  | case9 slashed links start name rest hDot hUp found hPlain hRest failure hLookup =>
    rw [walkFrom_name hDot hUp ((hFound start name).trans hPlain), if_neg hRest, lookup_skeleton,
      hLookup]
  | case10 slashed links start name rest hDot hUp found hPlain hRest hLookup =>
    rw [walkFrom_name hDot hUp ((hFound start name).trans hPlain), if_neg hRest, lookup_skeleton,
      hLookup]
  | case11 slashed links start name rest hDot hUp found hPlain hRest inode hLookup hDirectory ih =>
    rw [walkFrom_name hDot hUp ((hFound start name).trans hPlain), if_neg hRest, lookup_skeleton,
      hLookup]
    dsimp only
    rw [isDirectory_skeleton, if_pos hDirectory, ih]
  | case12 slashed links start name rest hDot hUp found hPlain hRest inode hLookup hOther =>
    rw [walkFrom_name hDot hUp ((hFound start name).trans hPlain), if_neg hRest, lookup_skeleton,
      hLookup]
    dsimp only
    rw [isDirectory_skeleton, if_neg hOther]

theorem walk_skeleton (following : Following) (path : String) :
    files.skeleton.walk following path = files.walk following path := by
  rw [walk, walk, walkFrom_skeleton]
  rfl

/-- **No path is led astray.**  What it leads to, the names alone decide. -/
theorem find_skeleton (path : String) : files.skeleton.find path = files.find path := by
  have hNode (place : Place) : files.skeleton.nodeAt place = files.nodeAt place := by
    cases place with
    | node inode before => rfl
    | entry directory name slashed =>
      rw [nodeAt, nodeAt, lookup_skeleton]
      simp only [isDirectory_skeleton]
  rw [find, find, walk_skeleton, funext hNode]

theorem find_withLocked (locked : List Nat) (path : String) :
    { files with locked := locked }.find path = files.find path := by
  rw [← find_skeleton, ← files.find_skeleton]
  rfl

theorem skeleton_setContents (inode : Nat) (contents : Bytes) :
    (files.setContents inode contents).skeleton = files.skeleton := by
  rw [setContents]
  split
  · next reversed hNode =>
    obtain ⟨hLt, hGet⟩ := List.getElem?_eq_some_iff.mp hNode
    have hBare : Node.bare (.file contents.reverse) = files.nodes[inode].bare := by
      rw [hGet]
      rfl
    rw [skeleton, setNode]
    dsimp only
    rw [List.map_set, hBare, ← List.map_set, List.set_getElem_self]
    rfl
  · rfl

theorem locked_setContents (inode : Nat) (contents : Bytes) :
    (files.setContents inode contents).locked = files.locked := by
  rw [setContents]
  split <;> rfl

theorem skeleton_appendTo (inode : Nat) (bytes : Bytes) :
    (files.appendTo inode bytes).skeleton = files.skeleton := by
  rw [appendTo_eq, skeleton_setContents]

theorem locked_appendTo (inode : Nat) (bytes : Bytes) :
    (files.appendTo inode bytes).locked = files.locked := by
  rw [appendTo_eq, locked_setContents]

theorem child?_of_lookup {files : FileSystem} {directory inode : Nat} {name : String}
    (hLookup : files.lookup directory name = .ok (some inode)) :
    files.child? directory name = some inode := by
  rw [lookup] at hLookup
  split at hLookup
  · cases hLookup
  · split at hLookup
    · cases hLookup
    · split at hLookup
      · next found hChild =>
        obtain rfl := Option.some.inj (Except.ok.inj hLookup)
        exact hChild
      · split at hLookup
        · cases hLookup
        · cases hLookup

/-! ## Opening what a path leads to -/

/-- A link before a trailing slash is the only one that opening does not follow. -/
theorem walkFrom_always_of_ifPlain {files : FileSystem} {slashed : Bool} {links start : Nat}
    {components : List String} {directory : Nat} {name : String}
    (hPlace : files.walkFrom .ifPlain slashed links start components =
      .ok (.entry directory name false)) :
    files.walkFrom .always slashed links start components = .ok (.entry directory name false) := by
  fun_induction files.walkFrom .ifPlain slashed links start components with
  | case1 => cases hPlace
  | case2 slashed links start rest ih => rw [walkFrom_dot, ih hPlace]
  | case3 => cases hPlace
  | case4 slashed links start rest hRest hUp ih => rw [walkFrom_up, if_neg hRest, ih hPlace]
  | case5 slashed links start last rest hDot hUp found target hTarget hLast =>
    obtain ⟨-, -, rfl⟩ := Place.entry.inj (Except.ok.inj hPlace)
    exact absurd rfl hLast.2
  | case6 => cases hPlace
  | case7 slashed start last rest hDot hUp found target hTarget hLast links ih =>
    rw [walkFrom_link hDot hUp hTarget, if_neg fun hEnd => hEnd.2 rfl]
    exact ih hPlace
  | case8 slashed links start last hDot hUp found hPlain =>
    rw [walkFrom_name hDot hUp hPlain, if_pos rfl, hPlace]
  | case9 => cases hPlace
  | case10 => cases hPlace
  | case11 slashed links start last rest hDot hUp found hPlain hRest inode hLookup hDirectory ih =>
    rw [walkFrom_name hDot hUp hPlain, if_neg hRest, hLookup]
    dsimp only
    rw [if_pos hDirectory, ih hPlace]
  | case12 => cases hPlace

theorem linkTarget?_of_walkFrom {files : FileSystem} {slashed last : Bool} {links start : Nat}
    {components : List String} {directory inode : Nat} {name : String}
    (hPlace : files.walkFrom .always slashed links start components =
      .ok (.entry directory name last))
    (hChild : files.child? directory name = some inode) : files.linkTarget? inode = none := by
  fun_induction files.walkFrom .always slashed links start components with
  | case2 slashed links start rest ih => exact ih hPlace
  | case4 slashed links start rest hRest hUp ih => exact ih hPlace
  | case5 slashed links start name rest hDot hUp found target hTarget hLast =>
    exact absurd rfl hLast.2
  | case7 slashed start name rest hDot hUp found target hTarget hLast links ih => exact ih hPlace
  | case8 slashed links start other hDot hUp found hPlain =>
    obtain ⟨rfl, rfl, -⟩ := Place.entry.inj (Except.ok.inj hPlace)
    rw [show found = some inode from hChild] at hPlain
    exact hPlain
  | case11 slashed links start other rest hDot hUp found hPlain hRest inode hLookup hDirectory ih =>
    exact ih hPlace
  | case1 | case3 | case6 | case9 | case10 | case12 => cases hPlace

theorem walk_always_of_ifPlain {files : FileSystem} {path : String} {directory : Nat}
    {name : String} (hWalk : files.walk .ifPlain path = .ok (.entry directory name false)) :
    files.walk .always path = .ok (.entry directory name false) := by
  rw [walk_eq_walkFrom hWalk]
  rw [walk_eq_walkFrom hWalk] at hWalk
  exact walkFrom_always_of_ifPlain hWalk

/-- What is opened either is new, or was there under the name that the path leads to. -/
theorem exists_of_openOrCreate {files after : FileSystem} {path : String} {opened : Nat}
    (hOpen : files.openOrCreate path = .ok (opened, after)) :
    ∃ directory name, files.walk .ifPlain path = .ok (.entry directory name false) ∧
      (files.lookup directory name = .ok none ∧ opened = files.nodes.length ∧
          after = files.addNamed directory name (.file []) ∨
        files.lookup directory name = .ok (some opened) ∧ ¬ files.isDirectory opened ∧
          after = files) := by
  rw [openOrCreate] at hOpen
  obtain ⟨place, hWalk, hPlace⟩ := bind_eq_ok.mp hOpen
  cases place with
  | node inode before => cases hPlace
  | entry directory name slashed =>
    cases slashed with
    | true => cases hPlace
    | false =>
      refine ⟨directory, name, hWalk, ?_⟩
      obtain ⟨found, hLookup, hFound⟩ := bind_eq_ok.mp hPlace
      cases found with
      | none =>
        obtain ⟨rfl, rfl⟩ := Prod.mk.inj (Except.ok.inj hFound)
        exact Or.inl ⟨hLookup, rfl, rfl⟩
      | some inode =>
        dsimp only at hFound
        split at hFound
        · cases hFound
        · next hPlain =>
          obtain ⟨rfl, rfl⟩ := Prod.mk.inj (Except.ok.inj hFound)
          exact Or.inr ⟨hLookup, hPlain, rfl⟩

/-- Whoever opens what is there opens what the path leads to, and changes nothing. -/
theorem eq_of_openOrCreate {files after : FileSystem} {path : String} {inode opened : Nat}
    (hFind : files.find path = .ok inode)
    (hOpen : files.openOrCreate path = .ok (opened, after)) : opened = inode ∧ after = files := by
  obtain ⟨directory, name, hWalk, hCases⟩ := exists_of_openOrCreate hOpen
  rw [find, walk_always_of_ifPlain hWalk] at hFind
  change (files.lookup directory name >>= _) = _ at hFind
  rcases hCases with ⟨hLookup, -⟩ | ⟨hLookup, -, rfl⟩ <;> rw [hLookup] at hFind
  · cases hFind
  · exact ⟨Except.ok.inj hFind, rfl⟩

theorem locked_of_openOrCreate {files after : FileSystem} {path : String} {opened : Nat}
    (hOpen : files.openOrCreate path = .ok (opened, after)) : after.locked = files.locked := by
  obtain ⟨directory, name, -, ⟨-, -, rfl⟩ | ⟨-, -, rfl⟩⟩ := exists_of_openOrCreate hOpen <;> rfl

/-- Only a link at the very end of a path makes a difference to who does not follow it. -/
theorem walkFrom_always_of_never {files : FileSystem} {slashed last : Bool} {links start : Nat}
    {components : List String} {directory : Nat} {name : String}
    (hPlace : files.walkFrom .never slashed links start components =
      .ok (.entry directory name last))
    (hPlain : (files.child? directory name).bind files.linkTarget? = none) :
    files.walkFrom .always slashed links start components = .ok (.entry directory name last) := by
  fun_induction files.walkFrom .never slashed links start components with
  | case2 slashed links start rest ih => rw [walkFrom_dot, ih hPlace]
  | case4 slashed links start rest hRest hUp ih => rw [walkFrom_up, if_neg hRest, ih hPlace]
  | case5 slashed links start other rest hDot hUp found target hTarget hLast =>
    obtain ⟨rfl, rfl, -⟩ := Place.entry.inj (Except.ok.inj hPlace)
    cases hTarget.symm.trans hPlain
  | case7 slashed start other rest hDot hUp found target hTarget hLast links ih =>
    rw [walkFrom_link hDot hUp hTarget, if_neg fun hEnd => hEnd.2 rfl]
    exact ih hPlace
  | case8 slashed links start other hDot hUp found hNone =>
    rw [walkFrom_name hDot hUp hNone, if_pos rfl, hPlace]
  | case11 slashed links start other rest hDot hUp found hNone hRest inode hLookup hDirectory ih =>
    rw [walkFrom_name hDot hUp hNone, if_neg hRest, hLookup]
    dsimp only
    rw [if_pos hDirectory, ih hPlace]
  | case1 | case3 | case6 | case9 | case10 | case12 => cases hPlace

/-- Where a path ends stands what it leads to, or a link that leads on. -/
theorem eq_or_isLink_of_find {files : FileSystem} {path : String} {directory inode found : Nat}
    {name : String} {slashed : Bool}
    (hWalk : files.walk .never path = .ok (.entry directory name slashed))
    (hChild : files.child? directory name = some found) (hFind : files.find path = .ok inode) :
    found = inode ∨ (files.linkTarget? found).isSome := by
  by_cases hLink : (files.linkTarget? found).isSome
  · exact Or.inr hLink
  · have hPlain : (files.child? directory name).bind files.linkTarget? = none := by
      rw [hChild]
      exact Option.not_isSome_iff_eq_none.mp hLink
    have hAlways : files.walk .always path = .ok (.entry directory name slashed) := by
      rw [walk_eq_walkFrom hWalk]
      rw [walk_eq_walkFrom hWalk] at hWalk
      exact walkFrom_always_of_never hWalk hPlain
    rw [find, hAlways] at hFind
    change files.nodeAt (.entry directory name slashed) = _ at hFind
    rw [nodeAt] at hFind
    obtain ⟨there, hLookup, hThere⟩ := bind_eq_ok.mp hFind
    cases there with
    | none => cases hThere
    | some other =>
      rw [child?_of_lookup hLookup] at hChild
      obtain rfl := Option.some.inj hChild
      dsimp only at hThere
      split at hThere
      · cases hThere
      · exact Or.inl (Except.ok.inj hThere)

/-! ## Removing a name -/

section Removal

variable {files : FileSystem} {directory : Nat} {name : String}

theorem exists_directory_of_child? {inode : Nat}
    (hChild : files.child? directory name = some inode) :
    ∃ parent names, files.node? directory = some (.directory parent names) := by
  rw [child?, names] at hChild
  split at hChild
  · next parent names hNode => exact ⟨parent, names, hNode⟩
  · cases hChild

variable {parent : Nat} {names : List (String × Nat)}

theorem node?_removeName_self (hNode : files.node? directory = some (.directory parent names)) :
    (files.removeName directory name).node? directory =
      some (.directory parent (names.filter fun entry => entry.1 ≠ name)) := by
  obtain ⟨hLt, -⟩ := List.getElem?_eq_some_iff.mp hNode
  rw [removeName, setNames, FileSystem.parent, FileSystem.names, hNode]
  exact List.getElem?_set_self hLt

theorem node?_removeName_of_ne {other : Nat} (hNe : other ≠ directory) :
    (files.removeName directory name).node? other = files.node? other :=
  List.getElem?_set_ne hNe.symm

theorem child?_removeName_self (hNode : files.node? directory = some (.directory parent names)) :
    (files.removeName directory name).child? directory name = none := by
  rw [child?, FileSystem.names, node?_removeName_self hNode]
  exact lookup_filter_self names name

theorem child?_removeName_of_ne (hNode : files.node? directory = some (.directory parent names))
    {other : Nat} {otherName : String} (hNe : ¬ (other = directory ∧ otherName = name)) :
    (files.removeName directory name).child? other otherName = files.child? other otherName := by
  by_cases hDirectory : other = directory
  · subst hDirectory
    have hName : otherName ≠ name := fun hSame => hNe ⟨rfl, hSame⟩
    rw [child?, child?, FileSystem.names, FileSystem.names, node?_removeName_self hNode, hNode]
    exact lookup_filter_of_ne names hName
  · rw [child?, child?, FileSystem.names, FileSystem.names, node?_removeName_of_ne hDirectory]

theorem bare_removeName (hNode : files.node? directory = some (.directory parent names))
    (name : String) (other : Nat) :
    (files.removeName directory name).parent other = files.parent other ∧
      (files.removeName directory name).isDirectory other = files.isDirectory other ∧
      (files.removeName directory name).linkTarget? other = files.linkTarget? other := by
  by_cases hDirectory : other = directory
  · subst hDirectory
    rw [FileSystem.parent, isDirectory, linkTarget?, FileSystem.parent, isDirectory, linkTarget?,
      node?_removeName_self hNode, hNode]
    exact ⟨rfl, rfl, rfl⟩
  · rw [FileSystem.parent, isDirectory, linkTarget?, FileSystem.parent, isDirectory, linkTarget?,
      node?_removeName_of_ne hDirectory]
    exact ⟨rfl, rfl, rfl⟩

/-- Nothing lies behind a name that is unknown. -/
theorem walkFrom_ne_ok_of_unknown {following : Following} {slashed : Bool} {links start : Nat}
    {rest : List String} (hDot : name ≠ ".") (hUp : name ≠ "..") (hRest : rest ≠ [])
    (hUnknown : files.child? start name = none) (place : Place) :
    files.walkFrom following slashed links start (name :: rest) ≠ .ok place := by
  rw [walkFrom_name hDot hUp (by rw [hUnknown]; rfl), if_neg hRest]
  rcases hLookup : files.lookup start name with failure | _ | inode
  · exact nofun
  · exact nofun
  · rw [child?_of_lookup hLookup] at hUnknown
    cases hUnknown

/-- A walk to a name that has been removed since ends at that name, if it still ends. -/
theorem walkFrom_removeName (hNode : files.node? directory = some (.directory parent names))
    {slashed last : Bool} {links start : Nat} {components : List String} {place : Place}
    (hBefore : files.walkFrom .never slashed links start components =
      .ok (.entry directory name last))
    (hAfter : (files.removeName directory name).walkFrom .always slashed links start components =
      .ok place) :
    ∃ slashed, place = .entry directory name slashed := by
  have hFound (start : Nat) (other : String) (hNe : ¬ (start = directory ∧ other = name)) :
      ((files.removeName directory name).child? start other).bind
          (files.removeName directory name).linkTarget? =
        (files.child? start other).bind files.linkTarget? := by
    rw [child?_removeName_of_ne hNode hNe,
      funext fun other => (bare_removeName hNode name other).2.2]
  have hGone : ((files.removeName directory name).child? directory name).bind
      (files.removeName directory name).linkTarget? = none := by
    rw [child?_removeName_self hNode]
    rfl
  fun_induction files.walkFrom .never slashed links start components with
  | case1 => cases hBefore
  | case2 slashed links start rest ih =>
    rw [walkFrom_dot] at hAfter
    exact ih hBefore hAfter
  | case3 => cases hBefore
  | case4 slashed links start rest hRest hUp ih =>
    rw [walkFrom_up, if_neg hRest, (bare_removeName hNode name start).1] at hAfter
    exact ih hBefore hAfter
  | case5 slashed links start other rest hDot hUp found target hTarget hLast =>
    obtain ⟨rfl, rfl, rfl⟩ := Place.entry.inj (Except.ok.inj hBefore)
    rw [walkFrom_name hDot hUp hGone, if_pos hLast.1] at hAfter
    exact ⟨slashed, (Except.ok.inj hAfter).symm⟩
  | case6 => cases hBefore
  | case7 slashed start other rest hDot hUp found target hTarget hLast links ih =>
    by_cases hHere : start = directory ∧ other = name
    · -- The link that was followed is the name itself, and more would have to follow.
      obtain ⟨rfl, rfl⟩ := hHere
      exact absurd hAfter (walkFrom_ne_ok_of_unknown hDot hUp (fun hRest => hLast ⟨hRest, nofun⟩)
        (child?_removeName_self hNode) place)
    · rw [walkFrom_link hDot hUp ((hFound start other hHere).trans hTarget),
        if_neg fun hEnd => hEnd.2 rfl] at hAfter
      exact ih hBefore hAfter
  | case8 slashed links start other hDot hUp found hPlain =>
    obtain ⟨rfl, rfl, rfl⟩ := Place.entry.inj (Except.ok.inj hBefore)
    rw [walkFrom_name hDot hUp hGone, if_pos rfl] at hAfter
    exact ⟨slashed, (Except.ok.inj hAfter).symm⟩
  | case9 => cases hBefore
  | case10 => cases hBefore
  | case11 slashed links start other rest hDot hUp found hPlain hRest inode hLookup hDirectory ih =>
    by_cases hHere : start = directory ∧ other = name
    · obtain ⟨rfl, rfl⟩ := hHere
      exact absurd hAfter
        (walkFrom_ne_ok_of_unknown hDot hUp hRest (child?_removeName_self hNode) place)
    · rw [walkFrom_name hDot hUp ((hFound start other hHere).trans hPlain), if_neg hRest] at hAfter
      rcases hNow : (files.removeName directory name).lookup start other with failure | _ | now <;>
        rw [hNow] at hAfter
      · cases hAfter
      · cases hAfter
      · have hChild := child?_of_lookup hNow
        rw [child?_removeName_of_ne hNode hHere, child?_of_lookup hLookup] at hChild
        obtain rfl := Option.some.inj hChild
        dsimp only at hAfter
        rw [(bare_removeName hNode name _).2.1, if_pos hDirectory] at hAfter
        exact ih hBefore hAfter
  | case12 => cases hBefore

end Removal

/-- The walk to a name and the walk after its removal set out together. -/
theorem find_ne_ok_of_removeName {files : FileSystem} {path name : String} {directory parent : Nat}
    {names : List (String × Nat)} {slashed : Bool}
    (hNode : files.node? directory = some (.directory parent names))
    (hWalk : files.walk .never path = .ok (.entry directory name slashed)) (inode : Nat) :
    (files.removeName directory name).find path ≠ .ok inode := by
  intro hFind
  rcases hNow : (files.removeName directory name).walk .always path with failure | place <;>
    rw [find, hNow] at hFind
  · cases hFind
  · have hPlace : ∃ slashed, place = .entry directory name slashed := by
      rw [walk] at hWalk hNow
      split at hWalk
      · cases hWalk
      · split at hWalk
        · cases hWalk
        · next hEmpty hLimit =>
          rw [if_neg hEmpty, if_neg hLimit] at hNow
          exact walkFrom_removeName hNode hWalk hNow
    obtain ⟨slashed, rfl⟩ := hPlace
    change ((files.removeName directory name).lookup directory name >>= _) = _ at hFind
    rcases hLookup : (files.removeName directory name).lookup directory name with
      failure | _ | found <;> rw [hLookup] at hFind
    · cases hFind
    · cases hFind
    · have hChild := child?_of_lookup hLookup
      rw [child?_removeName_self hNode] at hChild
      cases hChild

theorem exists_of_unlink {files after : FileSystem} {path : String}
    (hUnlink : files.unlink path = .ok after) :
    ∃ directory name slashed inode, files.walk .never path = .ok (.entry directory name slashed) ∧
      files.child? directory name = some inode ∧ ¬ files.isDirectory inode ∧
      after = files.removeName directory name := by
  rw [unlink] at hUnlink
  obtain ⟨place, hWalk, hPlace⟩ := bind_eq_ok.mp hUnlink
  cases place with
  | node inode before => cases hPlace
  | entry directory name slashed =>
    obtain ⟨found, hLookup, hFound⟩ := bind_eq_ok.mp hPlace
    cases found with
    | none => cases hFound
    | some inode =>
      dsimp only at hFound
      split at hFound
      · cases hFound
      · next hPlain =>
        split at hFound
        · cases hFound
        · obtain rfl := Except.ok.inj hFound
          exact ⟨directory, name, slashed, inode, hWalk, child?_of_lookup hLookup, hPlain, rfl⟩

/-- **A path that has been unlinked leads nowhere.** -/
theorem find_ne_ok_of_unlink {files after : FileSystem} {path : String}
    (hUnlink : files.unlink path = .ok after) (inode : Nat) : after.find path ≠ .ok inode := by
  obtain ⟨directory, name, slashed, found, hWalk, hChild, -, rfl⟩ := exists_of_unlink hUnlink
  obtain ⟨parent, names, hNode⟩ := exists_directory_of_child? hChild
  exact find_ne_ok_of_removeName hNode hWalk inode

theorem locked_of_unlink {files after : FileSystem} {path : String}
    (hUnlink : files.unlink path = .ok after) : after.locked = files.locked := by
  obtain ⟨directory, name, slashed, found, -, -, -, rfl⟩ := exists_of_unlink hUnlink
  rfl

theorem ok_of_guarded {α : Type} {paths : List String} {result : Except SystemFailure α}
    {value : α} (hGuarded : guarded paths result = .ok value) : result = .ok value := by
  rw [guarded] at hGuarded
  split at hGuarded
  · cases hGuarded
  · cases result with
    | ok found =>
      obtain rfl := Except.ok.inj hGuarded
      rfl
    | error failure => cases hGuarded

theorem eq_ok_of_guarded {α : Type} {paths : List String} {result : Except SystemFailure α}
    {value : α} {toError : IoFailure → Error}
    (hGuarded : (guarded paths result).mapError toError = .ok value) : result = .ok value := by
  cases hResult : guarded paths result with
  | ok found =>
    rw [hResult] at hGuarded
    obtain rfl := Except.ok.inj hGuarded
    exact ok_of_guarded hResult
  | error failure =>
    rw [hResult] at hGuarded
    cases hGuarded

end FileSystem

/-! ## The steps of a file store -/

namespace FileStore

variable {files after : FileSystem} {path : String} {inode : Nat}

theorem openFile_eq_of_ok {failure? : Option IoFailure} {opened : Nat}
    (hOpen : openFile files path failure? = .ok (opened, after)) :
    openFile files path = .ok (opened, after) := by
  cases failure? with
  | some failure => cases hOpen
  | none => exact hOpen

theorem openOrCreate_of_openFile {failure? : Option IoFailure} {opened : Nat}
    (hOpen : openFile files path failure? = .ok (opened, after)) :
    files.openOrCreate path = .ok (opened, after) :=
  FileSystem.eq_ok_of_guarded (openFile_eq_of_ok hOpen)

theorem eq_of_openFile {failure? : Option IoFailure} {opened : Nat}
    (hFind : files.find path = .ok inode)
    (hOpen : openFile files path failure? = .ok (opened, after)) :
    opened = inode ∧ after = files :=
  FileSystem.eq_of_openOrCreate hFind (openOrCreate_of_openFile hOpen)

theorem locked_of_openFile {failure? : Option IoFailure} {opened : Nat}
    (hOpen : openFile files path failure? = .ok (opened, after)) : after.locked = files.locked :=
  FileSystem.locked_of_openOrCreate (openOrCreate_of_openFile hOpen)

theorem eq_of_lockFile {failure? : Option IoFailure}
    (hLock : lockFile files path inode failure? = .ok after) :
    inode ∉ files.locked ∧ after = { files with locked := inode :: files.locked } := by
  unfold lockFile FileSystem.lock? at hLock
  split at hLock
  · cases hLock
  · next locked hFree =>
    obtain ⟨hNotMem, hLocked⟩ := Option.ite_none_left_eq_some.mp hFree
    obtain rfl := Option.some.inj hLocked
    obtain rfl := Except.ok.inj hLock
    exact ⟨hNotMem, rfl⟩
  · cases hLock

theorem find_of_checkName {comparable : Bool}
    (hCheck : checkName files path inode comparable = .ok ()) : files.find path = .ok inode := by
  have hNames : namesFile files path inode = true := by
    rw [checkName] at hCheck
    split at hCheck
    · next hBoth => exact (Bool.and_eq_true_iff.mp hBoth).2
    · cases hCheck
  rw [namesFile] at hNames
  rcases hFind : files.find path with failure | found <;> rw [hFind] at hNames
  · cases hNames
  · exact congrArg Except.ok (of_decide_eq_true hNames)

theorem eq_of_discardStale {sizeFailure? truncateFailure? : Option IoFailure}
    (hDiscard : discardStale files path inode sizeFailure? truncateFailure? = .ok after) :
    after = files.setContents inode [] := by
  unfold discardStale at hDiscard
  split at hDiscard
  · cases hDiscard
  · split at hDiscard
    · next hEmpty =>
      obtain rfl := Except.ok.inj hDiscard
      exact (FileSystem.setContents_nil hEmpty).symm
    · split at hDiscard
      · cases hDiscard
      · exact (Except.ok.inj hDiscard).symm

/-- A store that is created holds the lock on the file that its path leads to, and the file has been
emptied. -/
theorem exists_of_create {answers : CreateAnswers} {store : FileStore}
    (hCreate : create files path answers = (.ok store, after)) :
    ∃ opened, openFile files store.path = .ok (store.inode, opened) ∧
      store.inode ∉ opened.locked ∧ opened.find store.path = .ok store.inode ∧
      store.length = 0 ∧
      after = FileSystem.setContents { opened with locked := store.inode :: opened.locked }
        store.inode [] := by
  unfold create at hCreate
  split at hCreate
  · cases hCreate
  · next absolute _ =>
    split at hCreate
    · cases hCreate
    · next inode opened hOpen =>
      split at hCreate
      · cases hCreate
      · next locked hLock =>
        split at hCreate
        · cases hCreate
        · next hCheck =>
          split at hCreate
          · cases hCreate
          · next emptied hDiscard =>
            obtain ⟨rfl, rfl⟩ := hCreate
            obtain ⟨hFree, rfl⟩ := eq_of_lockFile hLock
            have hFind := find_of_checkName hCheck
            rw [FileSystem.find_withLocked] at hFind
            exact ⟨opened, openFile_eq_of_ok hOpen, hFree, hFind, rfl, eq_of_discardStale hDiscard⟩

/-- A creation that fails has opened a file at most. -/
theorem exists_of_create_error {answers : CreateAnswers} {error : Error}
    (hCreate : create files path answers = (.error error, after)) :
    after = files ∨ ∃ absolute inode, openFile files absolute = .ok (inode, after) := by
  unfold create at hCreate
  split at hCreate
  · obtain ⟨-, rfl⟩ := hCreate
    exact Or.inl rfl
  · next absolute _ =>
    split at hCreate
    · obtain ⟨-, rfl⟩ := hCreate
      exact Or.inl rfl
    · next inode opened hOpen =>
      have hOpened := openFile_eq_of_ok hOpen
      split at hCreate
      · obtain ⟨-, rfl⟩ := hCreate
        exact Or.inr ⟨absolute, inode, hOpened⟩
      · next locked hLock =>
        -- Behind the lock, closing the file gives back what was taken.
        obtain ⟨-, rfl⟩ := eq_of_lockFile hLock
        have hClosed : FileSystem.unlock { opened with locked := inode :: opened.locked } inode =
            opened := by rw [FileSystem.unlock, List.erase_cons_head]
        split at hCreate
        · obtain ⟨-, rfl⟩ := hCreate
          exact Or.inr ⟨absolute, inode, hOpened.trans (by rw [hClosed])⟩
        · split at hCreate
          · obtain ⟨-, rfl⟩ := hCreate
            exact Or.inr ⟨absolute, inode, hOpened.trans (by rw [hClosed])⟩
          · cases hCreate

theorem find_setContents (files : FileSystem) (inode : Nat) (contents : Bytes) (path : String) :
    (files.setContents inode contents).find path = files.find path := by
  rw [← FileSystem.find_skeleton, FileSystem.skeleton_setContents, FileSystem.find_skeleton]

theorem frame_append (store : FileStore) (files : FileSystem) (bytes : Bytes)
    (answers : List WriteAnswer) :
    (store.append files bytes answers).2.1.inode = store.inode ∧
      (store.append files bytes answers).2.2.skeleton = files.skeleton ∧
      (store.append files bytes answers).2.2.locked = files.locked := by
  induction store, files, bytes, answers using append_induction with
  | done | waiting | zero | failed => exact ⟨rfl, rfl, rfl⟩
  | accepted store files bytes count later hBytes ih =>
    obtain ⟨hInode, hSkeleton, hLocked⟩ := ih
    exact ⟨hInode, hSkeleton.trans (files.skeleton_appendTo _ _),
      hLocked.trans (files.locked_appendTo _ _)⟩
  | interrupted store files bytes failure later hBytes hAgain ih => exact ih

theorem locked_of_unlinkFile (hUnlink : unlinkFile files path = .ok after) :
    after.locked = files.locked :=
  FileSystem.locked_of_unlink (FileSystem.eq_ok_of_guarded hUnlink)

theorem find_ne_ok_of_unlinkFile (hUnlink : unlinkFile files path = .ok after) (found : Nat) :
    after.find path ≠ .ok found :=
  FileSystem.find_ne_ok_of_unlink (FileSystem.eq_ok_of_guarded hUnlink) found

theorem hasPath_of_remove {store : FileStore} (hRemove : store.remove files = (.ok (), after)) :
    after.hasPath store.path = false := by
  rw [remove] at hRemove
  split at hRemove
  · next unlinked hUnlink =>
    obtain ⟨-, rfl⟩ := Prod.mk.inj hRemove
    rw [close, FileSystem.hasPath, FileSystem.unlock, FileSystem.find_withLocked]
    split
    · next found hFind => exact absurd hFind (find_ne_ok_of_unlinkFile hUnlink found)
    · rfl
  · cases hRemove

end FileStore

end PacketLog
