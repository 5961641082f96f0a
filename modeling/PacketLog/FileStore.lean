import PacketLog.Outcome
import PacketLog.FileSystem

/-!
# The file store

An unbounded log kept in one file, which belongs to one store at a time: the lock
on the file is taken when the store is created and held across the removal of the
name.  Creation goes through several calls, between which other programs may act and
each of which may fail, so each is a function of its own; so are the two of removal.

The open file has one position, which reads and writes share.  A read of the whole
file begins with the way back to the start, and the file is open for appending: each
write goes to the end first, wherever the last read stopped.
-/

namespace PacketLog

structure FileStore where
  /-- The absolute path under which the file was opened. -/
  path : String
  inode : Nat
  /-- The number of bytes appended through this store, below `Word.bound` as long as fewer are
  offered. -/
  length : Nat := 0
  /-- Where the next read of the open file begins. -/
  position : Nat := 0
deriving DecidableEq

/-- What the calls that creation makes answer, where the files do not decide it. -/
structure CreateAnswers where
  openFailure? : Option IoFailure := none
  lockFailure? : Option IoFailure := none
  /-- Whether the open file and the path can be looked at and compared. -/
  comparable : Bool := true
  sizeFailure? : Option IoFailure := none
  truncateFailure? : Option IoFailure := none
deriving DecidableEq

/-- What one write call answers. -/
inductive WriteAnswer
  /-- So many of the bytes offered were taken. -/
  | accepted (count : Nat)
  | failed (failure : SystemFailure)
deriving DecidableEq

/-- How a read of the whole file goes. -/
inductive ReadAnswer
  | whole
  /-- The way back to the start of the file fails. -/
  | notRewound (failure : IoFailure)
  /-- There is no memory for what was appended. -/
  | noRoom
  /-- A call fails after so many bytes have been read. -/
  | failed (failure : IoFailure) (count : Nat)
deriving DecidableEq

namespace FileStore

/-- The file that holds the log when none is named. -/
def defaultPath : String := "/var/tmp/aesdsocketdata"

/-! ## Errors -/

def unresolved (path : String) (failure : IoFailure) : Error :=
  ((Error.ofMessage .io "failed to resolve data file path").withPath path).withFailure failure

def emptyPath : IoFailure := ⟨.invalidInput, "cannot make an empty path absolute"⟩

def notOpened (path : String) (failure : IoFailure) : Error :=
  ((Error.ofMessage .io "failed to open data file").withPath path).withFailure failure

/-- Only a lock that another program holds is worth another try. -/
def lockErrorKind (failure : IoFailure) : ErrorKind :=
  if failure.kind = .wouldBlock then .busy else .io

def notLocked (path : String) (failure : IoFailure) : Error :=
  (((Error.ofMessage (lockErrorKind failure) "data file is locked by another process").withHint
    "Stop the other instance or pass a different --data-file.").withPath path).withFailure failure

def nameLost (path : String) : Error :=
  ((Error.ofMessage .busy "data file was removed while acquiring its lock").withHint
    "Retry once the previous instance has exited.").withPath path

def notTruncated (path : String) (failure : IoFailure) : Error :=
  ((Error.ofMessage .io "failed to truncate stale data file").withPath path).withFailure failure

def notDeleted (path : String) (failure : IoFailure) : Error :=
  ((Error.ofMessage .io "failed to delete data file").withPath path).withFailure failure

/-- A call that needs no words: the size of a new file, or the way back to its start. -/
def notAnswered (path : String) (failure : IoFailure) : Error :=
  ({ kind := .io : Error }.withPath path).withFailure failure

def notBuffered : Error :=
  (Error.ofMessage .outOfMemory "failed to buffer data file").withCauses
    ["memory allocation failed because the memory allocator returned an error"]

def notRead (path : String) (failure : IoFailure) : Error :=
  ((Error.ofMessage .io "failed to read data file").withPath path).withFailure failure

/-! ## Creation -/

/-- The same path from the root on.  A relative path has none once the working directory is
removed. -/
def absolutePath (current? : Option String) (path : String) : Except Error String :=
  if path = "" then .error (unresolved path emptyPath)
  else
    match Path.base? current? path with
    | some base => .ok (Path.extend base path)
    | none => .error (unresolved path SystemFailure.notFound.toIoFailure)

/-- Opens the file, and creates it if nothing is there. -/
def openFile (files : FileSystem) (path : String) (failure? : Option IoFailure := none) :
    Except Error (Nat × FileSystem) :=
  match failure? with
  | some failure => .error (notOpened path failure)
  | none => (FileSystem.guarded [path] (files.openOrCreate path)).mapError (notOpened path)

/-- Takes the lock on the open file. -/
def lockFile (files : FileSystem) (path : String) (inode : Nat)
    (failure? : Option IoFailure := none) : Except Error FileSystem :=
  match failure?, files.lock? inode with
  | some failure, _ => .error (notLocked path failure)
  | none, some files => .ok files
  | none, none => .error (notLocked path SystemFailure.wouldBlock.toIoFailure)

/-- Whether the path leads to the open file. -/
def namesFile (files : FileSystem) (path : String) (inode : Nat) : Bool :=
  match files.find path with
  | .ok found => found = inode
  | .error _ => false

/-- The path may have been unlinked between the opening of the file and the taking of its lock. -/
def checkName (files : FileSystem) (path : String) (inode : Nat) (comparable : Bool := true) :
    Except Error Unit :=
  if comparable && namesFile files path inode then .ok () else .error (nameLost path)

/-- Discards what an earlier run left behind. -/
def discardStale (files : FileSystem) (path : String) (inode : Nat)
    (sizeFailure? truncateFailure? : Option IoFailure := none) : Except Error FileSystem :=
  match sizeFailure? with
  | some failure => .error (notAnswered path failure)
  | none =>
    if files.size inode = 0 then .ok files
    else
      match truncateFailure? with
      | some failure => .error (notTruncated path failure)
      | none => .ok (files.setContents inode [])

/-- Opens the file, takes its lock, sees that the path still leads to it, and empties it.  If a
step fails the file is closed as it is. -/
def create (files : FileSystem) (path : String) (answers : CreateAnswers := {}) :
    Except Error FileStore × FileSystem :=
  match absolutePath files.currentPath? path with
  | .error error => (.error error, files)
  | .ok path =>
    match openFile files path answers.openFailure? with
    | .error error => (.error error, files)
    | .ok (inode, files) =>
      match lockFile files path inode answers.lockFailure? with
      | .error error => (.error error, files)
      | .ok files =>
        match checkName files path inode answers.comparable with
        | .error error => (.error error, files.unlock inode)
        | .ok () =>
          match discardStale files path inode answers.sizeFailure? answers.truncateFailure? with
          | .error error => (.error error, files.unlock inode)
          | .ok files => (.ok { path := path, inode := inode }, files)

/-! ## The position -/

def seek (store : FileStore) (position : Nat) : FileStore := { store with position := position }

/-- Goes on behind what was read or written.  A device has no place to go to. -/
def advance (store : FileStore) (files : FileSystem) (count : Nat) : FileStore :=
  if files.isRegular store.inode then store.seek (store.position + count) else store

/-! ## Appending -/

def isEmpty (store : FileStore) : Bool := store.length = 0

def appendFailure (store : FileStore) (message : String) : Error :=
  ((Error.ofMessage .io message).withPath store.path).withOffset store.length

/-- What a write call does that takes `bytes`.  The file is open for appending, so it goes to its
end first. -/
def write (store : FileStore) (files : FileSystem) (bytes : Bytes) : FileStore × FileSystem :=
  let placed := store.seek (files.size store.inode)
  ({ placed.advance files bytes.length with length := store.length + bytes.length },
    files.writeAt store.inode placed.position bytes)

/-- Appends `bytes`, where the write calls answer `answers`: short writes and interrupted calls
are resumed.  The call has not returned when the answers run out before its end. -/
def append (store : FileStore) (files : FileSystem) (bytes : Bytes) :
    List WriteAnswer → Outcome Unit × FileStore × FileSystem
  | [] => (if bytes = [] then .ok () else .waiting, store, files)
  | answer :: later =>
    if bytes = [] then (.ok (), store, files)
    else
      match answer with
      | .accepted 0 => (.error (store.appendFailure "data file accepted zero bytes"), store, files)
      | .accepted count =>
        let written := store.write files (bytes.take count)
        written.1.append written.2 (bytes.drop count) later
      | .failed failure =>
        if failure.kind = .interrupted then store.append files bytes later
        else
          (.error ((store.appendFailure "failed to append to data file").withFailure
            failure.toIoFailure), store, files)

/-- What one write call for all of `bytes` answers. -/
def writeAnswer (store : FileStore) (files : FileSystem) (bytes : Bytes) : WriteAnswer :=
  match files.writeFailure? store.inode with
  | some failure => .failed failure
  | none => .accepted bytes.length

/-! ## Reading -/

/-- Reads up to `count` bytes from the position on. -/
def readHere (store : FileStore) (files : FileSystem) (count : Nat) : Bytes × FileStore :=
  let bytes := ((files.contents store.inode).drop store.position).take count
  (bytes, store.advance files bytes.length)

/-- Reads the whole file, if the calls that this takes let it. -/
def read (store : FileStore) (files : FileSystem) : ReadAnswer → Except Error Bytes × FileStore
  | .whole =>
    let (bytes, store) := (store.seek 0).readHere files (files.size store.inode)
    (.ok bytes, store)
  | .notRewound failure => (.error (notAnswered store.path failure), store)
  | .noRoom => (.error notBuffered, store.seek 0)
  | .failed failure count =>
    (.error (notRead store.path failure), ((store.seek 0).readHere files count).2)

/-! ## Removal -/

/-- Deletes the name of the file. -/
def unlinkFile (files : FileSystem) (path : String) : Except Error FileSystem :=
  (FileSystem.guarded [path] (files.unlink path)).mapError (notDeleted path)

/-- Closes the file, which gives its lock back. -/
def close (store : FileStore) (files : FileSystem) : FileSystem := files.unlock store.inode

/-- Deletes the name of the file, then gives the lock back, whether or not that failed. -/
def remove (store : FileStore) (files : FileSystem) : Except Error Unit × FileSystem :=
  match unlinkFile files store.path with
  | .ok files => (.ok (), store.close files)
  | .error error => (.error error, store.close files)

def describe (store : FileStore) : String := "file(" ++ store.path ++ ")"

end FileStore

end PacketLog
