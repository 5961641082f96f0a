import PacketLog.Bytes
import PacketLog.Path
import PacketLog.SystemFailure

/-!
# Files, names and locks

A file system is a list of nodes, each known by its number, the numbers of the
nodes on which a lock is held, and the working directory that relative paths
start from.  Names live in directories; several names may lead to one node, and
a node outlives its names.  Some directories are mount points: what lies below
one is a volume of its own, and no name moves from one volume to another.
`walk` follows a path to its last component, and the operations below say what
becomes of that component.
-/

namespace PacketLog

inductive Node
  | directory (parent : Nat) (names : List (String × Nat))
  /-- A regular file, with its bytes from the last to the first: they are added at the end. -/
  | file (reversed : Bytes)
  | link (target : String)
  /-- A device that keeps nothing, and either takes every byte or has no room for any. -/
  | device (roomy : Bool)
deriving DecidableEq

structure FileSystem where
  nodes : List Node := [.directory 0 []]
  /-- The nodes on which a lock is held. -/
  locked : List Nat := []
  /-- The directories at which a volume of its own begins. -/
  mountPoints : List Nat := []
  /-- The directories that take no new name: there an unknown name is a failure to look it up. -/
  sealedDirectories : List Nat := []
  /-- The working directory. -/
  current : Nat := 0
deriving DecidableEq

/-- Which last component of a path is followed if it is a symbolic link. -/
inductive Following
  | always
  | never
  /-- Only one before a trailing slash. -/
  | ifSlashed
  /-- Only one before no trailing slash. -/
  | ifPlain
deriving DecidableEq

def Following.follows : Following → Bool → Bool
  | always, _ => true
  | never, _ => false
  | ifSlashed, slashed => slashed
  | ifPlain, slashed => !slashed

/-- Where a path leads. -/
inductive Place
  /-- To a directory that the path does not call by a name of its own.  The last step was made
  in the directory `before`. -/
  | node (inode before : Nat)
  /-- To a name in a directory, which need not exist. -/
  | entry (directory : Nat) (name : String) (slashed : Bool)
deriving DecidableEq

/-- The directory in which the last step of the path is made. -/
def Place.directory : Place → Nat
  | node _ before => before
  | entry directory _ _ => directory

namespace FileSystem

/-- The number of the root directory. -/
def root : Nat := 0

/-- How many symbolic links a path may lead through. -/
def linkBudget : Nat := 40

/-- The longest name, in bytes. -/
def nameLimit : Nat := 255

/-- The longest path, in bytes. -/
def pathLimit : Nat := 4095

def node? (files : FileSystem) (inode : Nat) : Option Node := files.nodes[inode]?

def setNode (files : FileSystem) (inode : Nat) (node : Node) : FileSystem :=
  { files with nodes := files.nodes.set inode node }

/-- Adds a node, which gets the next free number. -/
def addNode (files : FileSystem) (node : Node) : FileSystem :=
  { files with nodes := files.nodes ++ [node] }

def names (files : FileSystem) (directory : Nat) : List (String × Nat) :=
  match files.node? directory with
  | some (.directory _ names) => names
  | _ => []

def parent (files : FileSystem) (directory : Nat) : Nat :=
  match files.node? directory with
  | some (.directory parent _) => parent
  | _ => root

def isDirectory (files : FileSystem) (inode : Nat) : Bool :=
  match files.node? inode with
  | some (.directory _ _) => true
  | _ => false

def linkTarget? (files : FileSystem) (inode : Nat) : Option String :=
  match files.node? inode with
  | some (.link target) => some target
  | _ => none

def child? (files : FileSystem) (directory : Nat) (name : String) : Option Nat :=
  (files.names directory).lookup name

/-- The name of a directory in its parent.  The root has none, and neither has a directory that
is removed. -/
def nameOf? (files : FileSystem) (directory : Nat) : Option String :=
  ((files.names (files.parent directory)).find? fun entry => entry.2 = directory).map Prod.fst

/-- A directory that has lost its name, which may still be somebody's working directory. -/
def isRemoved (files : FileSystem) (directory : Nat) : Bool :=
  directory ≠ root && (files.nameOf? directory).isNone

/-- Looks a name up, which fails in a directory that is removed, if the name is too long to be one,
and for an unknown name in a sealed directory. -/
def lookup (files : FileSystem) (directory : Nat) (name : String) :
    Except SystemFailure (Option Nat) :=
  if files.isRemoved directory then .error .notFound
  else if nameLimit < name.utf8ByteSize then .error .nameTooLong
  else
    match files.child? directory name with
    | some inode => .ok (some inode)
    | none => if directory ∈ files.sealedDirectories then .error .notFound else .ok none

def setNames (files : FileSystem) (directory : Nat) (names : List (String × Nat)) : FileSystem :=
  files.setNode directory (.directory (files.parent directory) names)

def removeName (files : FileSystem) (directory : Nat) (name : String) : FileSystem :=
  files.setNames directory ((files.names directory).filter fun entry => entry.1 ≠ name)

/-- Makes `name` lead to `inode`, whatever it led to before. -/
def putName (files : FileSystem) (directory : Nat) (name : String) (inode : Nat) : FileSystem :=
  let files := files.removeName directory name
  files.setNames directory (files.names directory ++ [(name, inode)])

/-- Adds a node under a new name. -/
def addNamed (files : FileSystem) (directory : Nat) (name : String) (node : Node) : FileSystem :=
  (files.addNode node).putName directory name files.nodes.length

/-- The path of a directory from the root, which is at most `height` above it. -/
def pathWithin? (files : FileSystem) : Nat → Nat → Option String
  | 0, directory => if directory = root then some "/" else none
  | height + 1, directory =>
    if directory = root then some "/"
    else do
      let name ← files.nameOf? directory
      let above ← files.pathWithin? height (files.parent directory)
      return Path.push above name

/-- The path of the working directory, unless it is removed. -/
def currentPath? (files : FileSystem) : Option String :=
  files.pathWithin? files.nodes.length files.current

/-- The mount point that is met first on the way up from `directory`, which is at most `height`
long, or the root. -/
def volumeWithin (files : FileSystem) : Nat → Nat → Nat
  | 0, _ => root
  | height + 1, directory =>
    if directory ∈ files.mountPoints then directory
    else files.volumeWithin height (files.parent directory)

/-- The directory at which the volume of `directory` begins. -/
def volume (files : FileSystem) (directory : Nat) : Nat :=
  files.volumeWithin files.nodes.length directory

/-! ## Walking a path -/

/-- Follows the components of a path from the directory `start`.  Every component but the last
has to lead to a directory. -/
def walkFrom (files : FileSystem) (following : Following) (slashed : Bool)
    (links start : Nat) : List String → Except SystemFailure Place
  | [] => .ok (.node start start)
  | name :: rest =>
    if name = "." then files.walkFrom following slashed links start rest
    else if name = ".." then
      if rest = [] then .ok (.node (files.parent start) start)
      else files.walkFrom following slashed links (files.parent start) rest
    else
      let found := files.child? start name
      match found.bind files.linkTarget? with
      | some target =>
        if rest = [] ∧ ¬ following.follows slashed then .ok (.entry start name slashed)
        else
          match links with
          | 0 => .error .tooManyLinks
          | links + 1 =>
            files.walkFrom following (slashed || (rest = [] && Path.slashed target)) links
              (if Path.isAbsolute target then root else start) (Path.components target ++ rest)
      | none =>
        if rest = [] then .ok (.entry start name slashed)
        else
          match files.lookup start name with
          | .error failure => .error failure
          | .ok none => .error .notFound
          | .ok (some inode) =>
            if files.isDirectory inode then
              files.walkFrom following slashed links inode rest
            else .error .notDirectory
termination_by components => (links, components.length)

def walk (files : FileSystem) (following : Following) (path : String) :
    Except SystemFailure Place :=
  if path = "" then .error .notFound
  else if pathLimit < path.utf8ByteSize then .error .nameTooLong
  else
    files.walkFrom following (Path.slashed path) linkBudget
      (if Path.isAbsolute path then root else files.current) (Path.components path)

/-- The node that a place leads to, which has to be a directory if the path ends in a slash. -/
def nodeAt (files : FileSystem) : Place → Except SystemFailure Nat
  | .node inode _ => .ok inode
  | .entry directory name slashed => do
    match ← files.lookup directory name with
    | none => .error .notFound
    | some inode =>
      if slashed ∧ ¬ files.isDirectory inode then .error .notDirectory else .ok inode

/-- The node that a path leads to through all symbolic links. -/
def find (files : FileSystem) (path : String) : Except SystemFailure Nat := do
  files.nodeAt (← files.walk .always path)

/-! ## Nodes and locks -/

/-- The bytes that reading a node from its start gives. -/
def contents (files : FileSystem) (inode : Nat) : Bytes :=
  match files.node? inode with
  | some (.file reversed) => reversed.reverse
  | _ => []

/-- The node is a regular file. -/
def isRegular (files : FileSystem) (inode : Nat) : Bool :=
  match files.node? inode with
  | some (.file _) => true
  | _ => false

/-- How many bytes reading a node from its start gives. -/
def size (files : FileSystem) (inode : Nat) : Nat :=
  match files.node? inode with
  | some (.file reversed) => reversed.length
  | _ => 0

/-- Replaces the bytes of a regular file. -/
def setContents (files : FileSystem) (inode : Nat) (contents : Bytes) : FileSystem :=
  match files.node? inode with
  | some (.file _) => files.setNode inode (.file contents.reverse)
  | _ => files

/-- Adds bytes at the end of a regular file. -/
def appendTo (files : FileSystem) (inode : Nat) (bytes : Bytes) : FileSystem :=
  match files.node? inode with
  | some (.file reversed) => files.setNode inode (.file (bytes.reverse ++ reversed))
  | _ => files

theorem appendTo_eq (files : FileSystem) (inode : Nat) (bytes : Bytes) :
    files.appendTo inode bytes = files.setContents inode (files.contents inode ++ bytes) := by
  unfold appendTo setContents contents
  split <;> simp_all

/-- Writes bytes of a regular file from `position` on, over what is there.  A position behind the
end leaves zeros in between. -/
def writeAt (files : FileSystem) (inode position : Nat) (bytes : Bytes) : FileSystem :=
  match files.node? inode with
  | some (.file reversed) =>
    let before := List.replicate (position - reversed.length) 0 ++
      reversed.drop (reversed.length - position)
    let behind := reversed.take (reversed.length - (position + bytes.length))
    files.setNode inode (.file (behind ++ (bytes.reverse ++ before)))
  | _ => files

/-- Takes the lock on a node unless it is held. -/
def lock? (files : FileSystem) (inode : Nat) : Option FileSystem :=
  if inode ∈ files.locked then none else some { files with locked := inode :: files.locked }

def unlock (files : FileSystem) (inode : Nat) : FileSystem :=
  { files with locked := files.locked.erase inode }

/-- A node with room for no byte refuses every write. -/
def writeFailure? (files : FileSystem) (inode : Nat) : Option SystemFailure :=
  match files.node? inode with
  | some (.device false) => some .noSpace
  | _ => none

/-! ## Operations on paths -/

/-- Opens what a path leads to for writing and creates a regular file if nothing is there. -/
def openOrCreate (files : FileSystem) (path : String) :
    Except SystemFailure (Nat × FileSystem) := do
  match ← files.walk .ifPlain path with
  | .node _ _ => .error .isDirectory
  | .entry directory name slashed =>
    if slashed then .error .isDirectory
    else
      match ← files.lookup directory name with
      | none => .ok (files.nodes.length, files.addNamed directory name (.file []))
      | some inode => if files.isDirectory inode then .error .isDirectory else .ok (inode, files)

def read (files : FileSystem) (path : String) : Except SystemFailure Bytes := do
  let inode ← files.find path
  if files.isDirectory inode then .error .isDirectory else .ok (files.contents inode)

/-- Writes `bytes` to an open node: after what it holds, or in its place. -/
def writeTo (files : FileSystem) (inode : Nat) (bytes : Bytes) :
    Except SystemFailure FileSystem :=
  match files.writeFailure? inode with
  | some failure => if bytes = [] then .ok files else .error failure
  | none => .ok (files.appendTo inode bytes)

/-- Makes `bytes` all that the file holds; the file is created if need be. -/
def write (files : FileSystem) (path : String) (bytes : Bytes) :
    Except SystemFailure FileSystem := do
  let (inode, files) ← files.openOrCreate path
  (files.setContents inode []).writeTo inode bytes

/-- Adds `bytes` to a file that exists. -/
def append (files : FileSystem) (path : String) (bytes : Bytes) :
    Except SystemFailure FileSystem := do
  let inode ← files.find path
  if files.isDirectory inode then .error .isDirectory else files.writeTo inode bytes

/-- Whether a path leads anywhere. -/
def hasPath (files : FileSystem) (path : String) : Bool :=
  match files.find path with
  | .ok _ => true
  | .error _ => false

/-- Removes a name; what it led to lives on under its other names and in those who have it open. -/
def unlink (files : FileSystem) (path : String) :
    Except SystemFailure FileSystem := do
  match ← files.walk .never path with
  | .node _ _ => .error .isDirectory
  | .entry directory name slashed =>
    match ← files.lookup directory name with
    | none => .error .notFound
    | some inode =>
      if files.isDirectory inode then .error .isDirectory
      else if slashed then .error .notDirectory
      else .ok (files.removeName directory name)

def makeDirectory (files : FileSystem) (path : String) :
    Except SystemFailure FileSystem := do
  match ← files.walk .never path with
  | .node _ _ => .error .alreadyExists
  | .entry directory name _ =>
    match ← files.lookup directory name with
    | some _ => .error .alreadyExists
    | none => .ok (files.addNamed directory name (.directory directory []))

/-- The place for a new name that is not to be a directory. -/
def newName (files : FileSystem) (path : String) :
    Except SystemFailure (Nat × String) := do
  match ← files.walk .never path with
  | .node _ _ => .error .alreadyExists
  | .entry directory name slashed =>
    match ← files.lookup directory name with
    | some _ => .error .alreadyExists
    | none => if slashed then .error .notFound else .ok (directory, name)

/-- Makes `path` a symbolic link to `target`. -/
def makeLink (files : FileSystem) (target path : String) :
    Except SystemFailure FileSystem := do
  if target = "" then .error .notFound
  else if pathLimit < target.utf8ByteSize then .error .nameTooLong
  else
    let (directory, name) ← files.newName path
    .ok (files.addNamed directory name (.link target))

/-- Makes `path` another name of the node that `existing` names. -/
def addHardLink (files : FileSystem) (existing path : String) :
    Except SystemFailure FileSystem := do
  let place ← files.walk .ifSlashed existing
  let inode ← files.nodeAt place
  let (directory, name) ← files.newName path
  let holder := if files.isDirectory inode then inode else place.directory
  if files.volume holder ≠ files.volume directory then .error .crossDevice
  else if files.isDirectory inode then .error .notPermitted
  else .ok (files.putName directory name inode)

/-- Whether `ancestor` is `directory` or lies on the way up from it, which is at most `height`
long. -/
def isWithin (files : FileSystem) (ancestor : Nat) : Nat → Nat → Bool
  | 0, directory => directory = ancestor
  | height + 1, directory =>
    directory = ancestor || files.isWithin ancestor height (files.parent directory)

/-- Why a node cannot take the place of another one. -/
def replacementFailure? (files : FileSystem) (inode replaced : Nat) : Option SystemFailure :=
  if files.isDirectory inode then
    if ¬ files.isDirectory replaced then some .notDirectory
    else if inode ∈ files.mountPoints ∨ replaced ∈ files.mountPoints then some .deviceBusy
    else if files.names replaced ≠ [] then some .directoryNotEmpty
    else none
  else if files.isDirectory replaced then some .isDirectory
  else none

/-- Gives a node its new name; a directory learns its new parent. -/
def moveName (files : FileSystem) (oldDirectory : Nat) (oldName : String)
    (newDirectory : Nat) (newName : String) (inode : Nat) : FileSystem :=
  let files := (files.removeName oldDirectory oldName).putName newDirectory newName inode
  if files.isDirectory inode then
    files.setNode inode (.directory newDirectory (files.names inode))
  else files

/-- Renames `path` to `target`, in place of what `target` may name. -/
def rename (files : FileSystem) (path target : String) :
    Except SystemFailure FileSystem := do
  let source ← files.walk .never path
  let destination ← files.walk .never target
  if files.volume source.directory ≠ files.volume destination.directory then
    throw .crossDevice
  match source, destination with
  | .entry oldDirectory oldName oldSlashed, .entry newDirectory newName newSlashed =>
    match ← files.lookup oldDirectory oldName with
    | none => .error .notFound
    | some inode =>
      let height := files.nodes.length
      let replaced ← files.lookup newDirectory newName
      if ¬ files.isDirectory inode ∧ (oldSlashed ∨ newSlashed) then .error .notDirectory
      else if files.isDirectory inode ∧ files.isWithin inode height newDirectory then
        .error .invalidArgument
      else
        match replaced with
        | none =>
          if inode ∈ files.mountPoints then .error .deviceBusy
          else .ok (files.moveName oldDirectory oldName newDirectory newName inode)
        | some replaced =>
          if files.isDirectory replaced ∧ files.isWithin replaced height oldDirectory then
            .error .directoryNotEmpty
          else if replaced = inode then .ok files
          else
            match files.replacementFailure? inode replaced with
            | some failure => .error failure
            | none => .ok (files.moveName oldDirectory oldName newDirectory newName inode)
  | _, _ => .error .deviceBusy

/-- A path that holds a NUL byte is refused before any file is looked at. -/
def guarded {α : Type} (paths : List String) (result : Except SystemFailure α) :
    Except IoFailure α :=
  if paths.any fun path => path.toList.contains (Char.ofNat 0) then
    .error ⟨.invalidInput, "file name contained an unexpected NUL byte"⟩
  else result.mapError SystemFailure.toIoFailure

end FileSystem

end PacketLog
