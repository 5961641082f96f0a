import PacketLog.FileStore

/-!
# Stores side by side

Any number of file stores over one file system, each in a slot, while others act
on the same files from outside.  An open store keeps its file whatever becomes of
the names.
-/

namespace PacketLog

structure Shelf where
  files : FileSystem
  slots : List (String × FileStore) := []
deriving DecidableEq

/-- An act on the store in a slot. -/
inductive StoreAct
  | append (data : Bytes)
  | readAll
  | remove
  /-- Closes the file and leaves it where it is. -/
  | drop
deriving DecidableEq

/-- The bytes that an act appends. -/
def StoreAct.data : StoreAct → Bytes
  | append data => data
  | _ => []

/-- An act on files outside any store. -/
inductive OutsideAct
  | write (path : String) (data : Bytes)
  | append (path : String) (data : Bytes)
  | unlink (path : String)
  | makeDirectory (path : String)
  | rename (path target : String)
  | makeLink (target path : String)
  | addHardLink (existing path : String)
deriving DecidableEq

namespace OutsideAct

def paths : OutsideAct → List String
  | write path _ => [path]
  | append path _ => [path]
  | unlink path => [path]
  | makeDirectory path => [path]
  | rename path target => [path, target]
  | makeLink target path => [target, path]
  | addHardLink existing path => [existing, path]

def result (files : FileSystem) : OutsideAct → Except SystemFailure FileSystem
  | write path data => files.write path data
  | append path data => files.append path data
  | unlink path => files.unlink path
  | makeDirectory path => files.makeDirectory path
  | rename path target => files.rename path target
  | makeLink target path => files.makeLink target path
  | addHardLink existing path => files.addHardLink existing path

end OutsideAct

namespace Shelf

def store? (shelf : Shelf) (slot : String) : Option FileStore := shelf.slots.lookup slot

def setSlot (shelf : Shelf) (slot : String) (store : FileStore) : Shelf :=
  { shelf with slots := (slot, store) :: shelf.slots.filter fun entry => entry.1 ≠ slot }

def clearSlot (shelf : Shelf) (slot : String) : Shelf :=
  { shelf with slots := shelf.slots.filter fun entry => entry.1 ≠ slot }

/-- Creates a store in a slot.  The store that was there is closed once the new one exists, and
stays if there is to be none. -/
def create (shelf : Shelf) (slot path : String) (answers : CreateAnswers := {}) :
    Except Error FileStore × Shelf :=
  match FileStore.create shelf.files path answers with
  | (.error error, files) => (.error error, { shelf with files := files })
  | (.ok store, files) =>
    let files := match shelf.store? slot with
      | some old => old.close files
      | none => files
    (.ok store, { shelf with files := files }.setSlot slot store)

/-- Acts on a store; the answer is what was read, if anything.  The write calls of an append answer
`answers`, and a read goes as `answer` says. -/
def perform (shelf : Shelf) (slot : String) (store : FileStore) (act : StoreAct)
    (answers : List WriteAnswer := [store.writeAnswer shelf.files act.data])
    (answer : ReadAnswer := .whole) : Outcome Bytes × Shelf :=
  match act with
  | .append data =>
    let (outcome, store, files) := store.append shelf.files data answers
    (outcome.map fun _ => [], { shelf with files := files }.setSlot slot store)
  | .readAll =>
    let (outcome, store) := store.read shelf.files answer
    (.ofExcept outcome, shelf.setSlot slot store)
  | .remove =>
    let (answer, files) := store.remove shelf.files
    (.ofExcept (answer.map fun _ => []), { shelf with files := files }.clearSlot slot)
  | .drop => (.ok [], { shelf with files := store.close shelf.files }.clearSlot slot)

/-- Acts on files outside any store. -/
def outside (shelf : Shelf) (act : OutsideAct) : Except IoFailure Unit × Shelf :=
  match FileSystem.guarded act.paths (act.result shelf.files) with
  | .ok files => (.ok (), { shelf with files := files })
  | .error failure => (.error failure, shelf)

end Shelf

end PacketLog
