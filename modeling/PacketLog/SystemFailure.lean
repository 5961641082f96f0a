/-!
# Failed system calls

What the operating system answers when it refuses a call (`SystemFailure`), and
what any reading, writing or seeking interface reports (`IoFailure`): a kind and
a text.  Three kinds are retryable: the call had no effect and may be repeated.
-/

namespace PacketLog

/-- The kinds of failure an input or output interface tells apart. -/
inductive IoKind
  | addressInUse
  | addressNotAvailable
  | alreadyExists
  | brokenPipe
  | connectionReset
  | crossesDevices
  | directoryNotEmpty
  | filesystemLoop
  | interrupted
  | invalidFilename
  | invalidInput
  | isADirectory
  | networkUnreachable
  | notADirectory
  | notFound
  | other
  | outOfMemory
  | permissionDenied
  | resourceBusy
  | storageFull
  | timedOut
  | unexpectedEnd
  | wouldBlock
deriving DecidableEq

namespace IoKind

def name : IoKind → String
  | addressInUse => "AddrInUse"
  | addressNotAvailable => "AddrNotAvailable"
  | alreadyExists => "AlreadyExists"
  | brokenPipe => "BrokenPipe"
  | connectionReset => "ConnectionReset"
  | crossesDevices => "CrossesDevices"
  | directoryNotEmpty => "DirectoryNotEmpty"
  | filesystemLoop => "FilesystemLoop"
  | interrupted => "Interrupted"
  | invalidFilename => "InvalidFilename"
  | invalidInput => "InvalidInput"
  | isADirectory => "IsADirectory"
  | networkUnreachable => "NetworkUnreachable"
  | notADirectory => "NotADirectory"
  | notFound => "NotFound"
  | other => "Other"
  | outOfMemory => "OutOfMemory"
  | permissionDenied => "PermissionDenied"
  | resourceBusy => "ResourceBusy"
  | storageFull => "StorageFull"
  | timedOut => "TimedOut"
  | unexpectedEnd => "UnexpectedEof"
  | wouldBlock => "WouldBlock"

/-- The call had no effect and may be repeated. -/
def retryable (kind : IoKind) : Bool :=
  kind = interrupted || kind = wouldBlock || kind = timedOut

end IoKind

/-- A failure of an input or output interface. -/
structure IoFailure where
  kind : IoKind
  text : String
deriving DecidableEq

namespace IoFailure

def retryable (failure : IoFailure) : Bool := failure.kind.retryable

/-- The input ended before the buffer was full. -/
def unexpectedEnd : IoFailure := ⟨.unexpectedEnd, "failed to fill whole buffer"⟩

end IoFailure

/-- The conditions under which the operating system refuses a call. -/
inductive SystemFailure
  | notPermitted
  | notFound
  | interruptedCall
  | wouldBlock
  | permissionDenied
  | deviceBusy
  | alreadyExists
  | crossDevice
  | noDevice
  | notDirectory
  | isDirectory
  | invalidArgument
  | noSpace
  | brokenPipe
  | nameTooLong
  | notImplemented
  | directoryNotEmpty
  | tooManyLinks
  | addressInUse
  | addressNotAvailable
  | networkUnreachable
  | connectionReset
  | timedOut
deriving DecidableEq

namespace SystemFailure

def all : List SystemFailure :=
  [notPermitted, notFound, interruptedCall, wouldBlock, permissionDenied, deviceBusy,
    alreadyExists, crossDevice, noDevice, notDirectory, isDirectory, invalidArgument, noSpace,
    brokenPipe, nameTooLong, notImplemented, directoryNotEmpty, tooManyLinks, addressInUse,
    addressNotAvailable, networkUnreachable, connectionReset, timedOut]

/-- The error number. -/
def code : SystemFailure → Nat
  | notPermitted => 1
  | notFound => 2
  | interruptedCall => 4
  | wouldBlock => 11
  | permissionDenied => 13
  | deviceBusy => 16
  | alreadyExists => 17
  | crossDevice => 18
  | noDevice => 19
  | notDirectory => 20
  | isDirectory => 21
  | invalidArgument => 22
  | noSpace => 28
  | brokenPipe => 32
  | nameTooLong => 36
  | notImplemented => 38
  | directoryNotEmpty => 39
  | tooManyLinks => 40
  | addressInUse => 98
  | addressNotAvailable => 99
  | networkUnreachable => 101
  | connectionReset => 104
  | timedOut => 110

def description : SystemFailure → String
  | notPermitted => "Operation not permitted"
  | notFound => "No such file or directory"
  | interruptedCall => "Interrupted system call"
  | wouldBlock => "Resource temporarily unavailable"
  | permissionDenied => "Permission denied"
  | deviceBusy => "Device or resource busy"
  | alreadyExists => "File exists"
  | crossDevice => "Invalid cross-device link"
  | noDevice => "No such device"
  | notDirectory => "Not a directory"
  | isDirectory => "Is a directory"
  | invalidArgument => "Invalid argument"
  | noSpace => "No space left on device"
  | brokenPipe => "Broken pipe"
  | nameTooLong => "File name too long"
  | notImplemented => "Function not implemented"
  | directoryNotEmpty => "Directory not empty"
  | tooManyLinks => "Too many levels of symbolic links"
  | addressInUse => "Address already in use"
  | addressNotAvailable => "Cannot assign requested address"
  | networkUnreachable => "Network is unreachable"
  | connectionReset => "Connection reset by peer"
  | timedOut => "Connection timed out"

def kind : SystemFailure → IoKind
  | notPermitted => .permissionDenied
  | notFound => .notFound
  | interruptedCall => .interrupted
  | wouldBlock => .wouldBlock
  | permissionDenied => .permissionDenied
  | deviceBusy => .resourceBusy
  | alreadyExists => .alreadyExists
  | crossDevice => .crossesDevices
  | noDevice => .other
  | notDirectory => .notADirectory
  | isDirectory => .isADirectory
  | invalidArgument => .invalidInput
  | noSpace => .storageFull
  | brokenPipe => .brokenPipe
  | nameTooLong => .invalidFilename
  | notImplemented => .other
  | directoryNotEmpty => .directoryNotEmpty
  | tooManyLinks => .filesystemLoop
  | addressInUse => .addressInUse
  | addressNotAvailable => .addressNotAvailable
  | networkUnreachable => .networkUnreachable
  | connectionReset => .connectionReset
  | timedOut => .timedOut

def text (failure : SystemFailure) : String :=
  failure.description ++ " (os error " ++ toString failure.code ++ ")"

def toIoFailure (failure : SystemFailure) : IoFailure := ⟨failure.kind, failure.text⟩

def ofCode? (code : Nat) : Option SystemFailure := all.find? fun failure => failure.code = code

end SystemFailure

end PacketLog
