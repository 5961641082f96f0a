import PacketLog.FileStore
import PacketLog.Ring

/-!
# Stores

A store keeps committed entries, in memory or in a file, and shows all of what it
keeps in the order of the commits.
-/

namespace PacketLog

/-- Which store to create. -/
inductive StoreChoice
  | ring (capacity : Nat)
  | file (path : String)
deriving DecidableEq

inductive Store
  | inMemory (ring : Ring)
  | inFile (file : FileStore)
deriving DecidableEq

namespace Store

/-- Creates a store; the calls that create a file answer `answers`. -/
def create (files : FileSystem) (choice : StoreChoice) (answers : CreateAnswers := {}) :
    Except Error Store × FileSystem :=
  match choice with
  | .ring capacity => ((Ring.create? capacity).map .inMemory, files)
  | .file path =>
    let (created, files) := FileStore.create files path answers
    (created.map .inFile, files)

/-- What the write calls of a commit answer when nothing interferes. -/
def writeAnswers (store : Store) (files : FileSystem) (entry : Entry) : List WriteAnswer :=
  match store with
  | inMemory _ => []
  | inFile file => [file.writeAnswer files entry]

/-- Commits `entry`, where the write calls of a file answer `answers`; the answer is the entry that
had to give way. -/
def append (store : Store) (files : FileSystem) (entry : Entry) (answers : List WriteAnswer) :
    Outcome (Option Entry) × Store × FileSystem :=
  match store with
  | inMemory ring =>
    let (evicted, ring) := ring.append entry
    (.ok evicted, .inMemory ring, files)
  | inFile file =>
    let (outcome, file, files) := file.append files entry answers
    (outcome.map fun _ => none, .inFile file, files)

/-- Reads the whole store in the order of the commits, where the calls that read a file go as
`answer` says. -/
def read (files : FileSystem) (answer : ReadAnswer) : Store → Except Error Bytes × Store
  | inMemory ring => (.ok ring.contents, .inMemory ring)
  | inFile file =>
    let (outcome, file) := file.read files answer
    (outcome, .inFile file)

/-- Releases what the store keeps; a file is deleted. -/
def close (files : FileSystem) : Store → Except Error Unit × FileSystem
  | inMemory _ => (.ok (), files)
  | inFile file => file.remove files

/-- Gives the store up as it is; a file stays behind, unlocked. -/
def drop (files : FileSystem) : Store → FileSystem
  | inMemory _ => files
  | inFile file => file.close files

def describe : Store → String
  | inMemory ring => ring.describe
  | inFile file => file.describe

end Store

end PacketLog
