import PacketLog.Live
import Std.Async.Signal

/-!
# The program

Reads the arguments, sets the service up, lets it serve until a signal ends it,
and reports an error on the error stream.
-/

namespace PacketLog.Main

open PacketLog.Live

def versionText : String := "linelog 0.1.0"

def usageText : String := String.intercalate "\n"
  ["Newline-delimited packet log served over TCP",
    "",
    "Usage: linelog [OPTIONS]",
    "",
    "Options:",
    "  -d, --daemon                   Detach from the controlling terminal after binding",
    "      --bind <BIND>              Listening address [default: 0.0.0.0:9000]",
    "      --data-file <DATA_FILE>    Backing file for --store file [default: "
      ++ FileStore.defaultPath ++ "]",
    "      --store <STORE>            Entry store backing the log [default: file] "
      ++ "[possible values: file, ring]",
    "      --ring-capacity <N>        Entries retained by --store ring [default: 10]",
    "      --stamp-interval <N>       Seconds between timestamp records (0 disables them) "
      ++ "[default: 10]",
    "      --max-packet-bytes <N>     Largest packet buffered before the connection is dropped "
      ++ "[default: 16777216]",
    "      --log-file <LOG_FILE>      Append logs to this file instead of stderr",
    "  -h, --help                     Print help",
    "  -V, --version                  Print version"]

def refusalText : Refusal → String
  | .displayHelp => usageText
  | .displayVersion => versionText
  | .unknownArgument => "error: unexpected argument found"
  | .invalidValue => "error: a value is missing or is none of the possible values"
  | .valueValidation => "error: invalid value for an option"
  | .argumentConflict => "error: an option cannot be used multiple times"
  | .tooManyValues => "error: unexpected value for a flag"

/-- Help and version are answers; every other refusal is a complaint. -/
def refuse (refusal : Refusal) : IO UInt32 := do
  if refusal.exitCode = 0 then IO.println (refusalText refusal)
  else IO.eprintln (refusalText refusal ++ "\n\nFor more information, try '--help'.")
  return UInt32.ofNat refusal.exitCode

/-- Log lines go to the log file, or to the error stream if there is none. -/
def openLog (path? : Option String) : Steps (String → IO Unit) := do
  match path? with
  | none => return fun line => IO.eprintln (" INFO " ++ line)
  | some path =>
    let handle ← attempt (IO.FS.Handle.mk path .append) (Program.logNotOpened path)
    return fun line => do handle.putStrLn (" INFO " ++ line); handle.flush

def netAddress : SocketAddress → Std.Net.SocketAddress
  | .v4 octets port =>
    let octet (i : Nat) : UInt8 := UInt8.ofNat (octets.getD i 0)
    .v4 ⟨.ofParts (octet 0) (octet 1) (octet 2) (octet 3), UInt16.ofNat port⟩
  | .v6 groups _ port =>
    let group (i : Nat) : UInt16 := UInt16.ofNat (groups.getD i 0)
    .v6 ⟨.ofParts (group 0) (group 1) (group 2) (group 3) (group 4) (group 5) (group 6) (group 7),
      UInt16.ofNat port⟩

/-- The connections that may wait to be accepted. -/
def backlog : UInt32 := 128

def bind (address : SocketAddress) : Steps Std.Async.TCP.Socket.Server :=
  attempt
    (do
      let server ← Std.Async.TCP.Socket.Server.mk
      server.bind (netAddress address)
      server.listen backlog
      return server)
    (Supervisor.bindFailure address.text)

/-- Raises the abort signal when the program is told to end. -/
def listen (shared : Shared) : IO Unit := do
  for signal in [Std.Async.Signal.sigint, Std.Async.Signal.sigterm] do
    let waiter ← Std.Async.Signal.Waiter.mk signal false
    let caught ← waiter.wait
    let _ ← IO.mapTask (fun _ => shared.aborted.set true) caught

def run (options : Options) : Steps Unit := do
  let log ← openLog options.logFile
  let store ← OpenStore.create options.storeChoice
  let server ← bind options.bind
  if options.daemon then
    throw (Program.notDetached SystemFailure.notImplemented.toIoFailure)
  let shared : Shared :=
    { store := ← (IO.mkRef store : BaseIO _), lock := ← (Std.BaseMutex.new : BaseIO _)
      aborted := ← (IO.mkRef false : BaseIO _), log := log }
  attempt (listen shared) Program.signalsNotRegistered
  log ("listening on " ++ options.bind.text ++ ", " ++ store.describe)
  let report ← serve server shared (Program.serviceConfig options)
  log ("served " ++ toString report.workers.length ++ " connections at the end, "
    ++ toString report.stamps ++ " timestamp records")

def report (error : Error) : IO Unit := do
  let stderr ← IO.getStderr
  stderr.putStrLn (if ← stderr.isTty then error.reportText else error.reportJson)
  stderr.flush

end PacketLog.Main

open PacketLog in
def main (arguments : List String) : IO UInt32 := do
  match CommandLine.parse arguments with
  | .error refusal => Main.refuse refusal
  | .ok options =>
    let result ← (Main.run options).run
    if let .error error := result then Main.report error
    return UInt32.ofNat (Program.exitCode result)
