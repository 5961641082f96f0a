import PacketLog.SystemFailure

/-!
# Errors

An error has a kind, which fixes the exit code, and whatever context was known
where it arose: a message, a hint to the operator, a path, a byte offset and the
texts of its causes, outermost first.
-/

namespace PacketLog

inductive ErrorKind
  | internal
  | usage
  | busy
  | io
  | outOfMemory
  | interrupted
deriving DecidableEq

namespace ErrorKind

def all : List ErrorKind := [internal, usage, busy, io, outOfMemory, interrupted]

def name : ErrorKind → String
  | internal => "Internal"
  | usage => "Usage"
  | busy => "Busy"
  | io => "Io"
  | outOfMemory => "OutOfMemory"
  | interrupted => "Interrupted"

def ofName? (name : String) : Option ErrorKind :=
  all.find? fun kind => kind.name = name

/-- The exit code of a program that ends with an error of this kind. -/
def exitCode : ErrorKind → Nat
  | internal => 1
  | usage => 2
  | busy => 5
  | io => 8
  | outOfMemory => 9
  | interrupted => 10

/-- The kind an input or output interface reports. -/
def toIoKind : ErrorKind → IoKind
  | usage => .invalidInput
  | busy => .wouldBlock
  | outOfMemory => .outOfMemory
  | interrupted => .interrupted
  | io => .other
  | internal => .other

end ErrorKind

structure Error where
  kind : ErrorKind
  message : Option String := none
  hint : Option String := none
  path : Option String := none
  offset : Option Nat := none
  causes : List String := []
deriving DecidableEq

namespace Error

/-- An error of which only the kind and a message are known. -/
def ofMessage (kind : ErrorKind) (message : String) : Error :=
  { kind := kind, message := some message }

def withMessage (error : Error) (message : String) : Error :=
  { error with message := some message }

def withHint (error : Error) (hint : String) : Error :=
  { error with hint := some hint }

def withPath (error : Error) (path : String) : Error :=
  { error with path := some path }

def withOffset (error : Error) (offset : Nat) : Error :=
  { error with offset := some offset }

/-- Replaces the chain of causes, outermost first. -/
def withCauses (error : Error) (causes : List String) : Error :=
  { error with causes := causes }

/-- One line: the kind, then what else is known except hint and causes. -/
def display (error : Error) : String :=
  error.kind.name
    ++ (error.message.map (": " ++ ·)).getD ""
    ++ (error.path.map (" (path: " ++ · ++ ")")).getD ""
    ++ (error.offset.map (" (offset: " ++ toString · ++ ")")).getD ""

/-- Makes `cause` the cause of `error`; its own causes follow it. -/
def withErrorCause (error cause : Error) : Error :=
  error.withCauses (cause.display :: cause.causes)

/-- Makes a failed call the only cause of `error`. -/
def withFailure (error : Error) (failure : IoFailure) : Error :=
  error.withCauses [failure.text]

/-- The error as an input or output interface reports it. -/
def toIoFailure (error : Error) : IoFailure := ⟨error.kind.toIoKind, error.display⟩

/-- A wait for the lock, or for a slow peer, given up because of the abort signal. -/
def interrupted : Error := ofMessage .interrupted "interrupted by abort signal, try again"

end Error

end PacketLog
