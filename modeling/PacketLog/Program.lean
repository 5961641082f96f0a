import PacketLog.CommandLine
import PacketLog.Error.Report
import PacketLog.Exchange

/-!
# A run of the program

The program reads its arguments, opens the log file, creates the store, binds its
address, detaches if asked to, and serves.  The first of these to fail ends the
run with an error, whose kind is the exit code.
-/

namespace PacketLog

namespace Program

def logNotOpened (path : String) (failure : IoFailure) : Error :=
  ((Error.ofMessage .io "failed to open log file").withPath path).withFailure failure

def signalsNotRegistered (failure : IoFailure) : Error :=
  (Error.ofMessage .io "failed to register signal handlers").withFailure failure

def notDetached (failure : IoFailure) : Error :=
  (Error.ofMessage .io "fork failed").withFailure failure

/-- Opens the file that log lines are appended to. -/
def openLog (files : FileSystem) (path : String) : Except Error FileSystem :=
  match FileSystem.guarded [path] (files.openOrCreate path) with
  | .ok (_, files) => .ok files
  | .error failure => .error (logNotOpened path failure)

/-- Opens the log file, if there is to be one. -/
def prepareLog (files : FileSystem) : Option String → Except Error Unit × FileSystem
  | none => (.ok (), files)
  | some path =>
    match openLog files path with
    | .ok files => (.ok (), files)
    | .error error => (.error error, files)

/-- Binds an address on which nobody else listens. -/
def bind (network : Network) (address : SocketAddress) : Except Error Unit :=
  match network.listenFailure? address with
  | none => .ok ()
  | some failure => .error (Supervisor.bindFailure address.text failure.toIoFailure)

def serviceConfig (options : Options) : ServiceConfig :=
  { stampSeconds := options.stampSeconds?, maxPacketBytes := options.maxPacketBytes }

/-- Everything up to the point where the service would accept its first connection. -/
def prepare (files : FileSystem) (network : Network) (options : Options) :
    Except Error Context × FileSystem :=
  match prepareLog files options.logFile with
  | (.error error, files) => (.error error, files)
  | (.ok (), files) =>
    match Store.create files options.storeChoice with
    | (.error error, files) => (.error error, files)
    | (.ok store, files) =>
      match bind network options.bind with
      | .error error => (.error error, store.drop files)
      | .ok () => (.ok { store := { value := store }, files := files }, files)

/-- The exit code of a run that ends with `result`. -/
def exitCode : Except Error Unit → Nat
  | .ok () => 0
  | .error error => error.kind.exitCode

/-- What the run says on the error stream, if that is no terminal. -/
def report? : Except Error Unit → Option String
  | .ok () => none
  | .error error => some error.reportJson

end Program

end PacketLog
