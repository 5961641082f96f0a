import PacketLog.Assembler
import PacketLog.SocketAddress
import PacketLog.Stamper
import PacketLog.Store
import PacketLog.Worker

/-!
# The command line

Arguments are read from left to right.  An option waits for its value, which is
the next argument that does not look like an option itself; whatever an earlier
option still lacks is complained about before a later one is looked at, except
that an argument which is nothing at all is complained about first.
-/

namespace PacketLog

inductive StoreKind
  | file
  | ring
deriving DecidableEq

/-- What the program is asked to do. -/
structure Options where
  /-- Detach from the terminal. -/
  daemon : Bool := false
  bind : SocketAddress := .v4 [0, 0, 0, 0] 9000
  dataFile : String := FileStore.defaultPath
  store : StoreKind := .file
  ringCapacity : Nat := Ring.defaultCapacity
  /-- Seconds between timestamp records; there are none if it is 0. -/
  stampInterval : Nat := Stamper.defaultSeconds
  maxPacketBytes : Nat := Worker.defaultMaxPacketBytes
  logFile : Option String := none
deriving DecidableEq

/-- Why the program is not started. -/
inductive Refusal
  | displayHelp
  | displayVersion
  | unknownArgument
  | invalidValue
  | valueValidation
  | argumentConflict
  | tooManyValues
deriving DecidableEq

namespace Refusal

def name : Refusal → String
  | displayHelp => "DisplayHelp"
  | displayVersion => "DisplayVersion"
  | unknownArgument => "UnknownArgument"
  | invalidValue => "InvalidValue"
  | valueValidation => "ValueValidation"
  | argumentConflict => "ArgumentConflict"
  | tooManyValues => "TooManyValues"

/-- To be told about the program is no failure. -/
def exitCode : Refusal → Nat
  | displayHelp => 0
  | displayVersion => 0
  | _ => 2

end Refusal

/-- The options that take a value. -/
inductive ValueOption
  | bind
  | dataFile
  | store
  | ringCapacity
  | stampInterval
  | maxPacketBytes
  | logFile
deriving DecidableEq

inductive Flag
  | daemon
  | help
  | version
deriving DecidableEq

namespace CommandLine

/-- What reading has come to after some of the arguments. -/
structure Reading where
  options : Options := {}
  /-- The options and flags that have been settled. -/
  settled : List ValueOption := []
  detached : Bool := false
  /-- The option that may still get its value, and the value if it has come. -/
  pending : Option (ValueOption × Option String) := none
  /-- After `--` nothing is an option. -/
  trailing : Bool := false
deriving DecidableEq

def valueOption? : String → Option ValueOption
  | "bind" => some .bind
  | "data-file" => some .dataFile
  | "store" => some .store
  | "ring-capacity" => some .ringCapacity
  | "stamp-interval" => some .stampInterval
  | "max-packet-bytes" => some .maxPacketBytes
  | "log-file" => some .logFile
  | _ => none

def flag? : String → Option Flag
  | "daemon" => some .daemon
  | "help" => some .help
  | "version" => some .version
  | _ => none

def shortFlag? : Char → Option Flag
  | 'd' => some .daemon
  | 'h' => some .help
  | 'V' => some .version
  | _ => none

/-- An unsigned word in decimal digits, after a plus sign if there is one. -/
def word? (text : String) : Option Nat :=
  let digits := match text.toList with
    | '+' :: rest => rest
    | all => all
  let n := SocketAddress.ofDigits 10 (SocketAddress.readDigits 10 digits).1
  if digits ≠ [] ∧ digits.all Char.isDigit ∧ n < Word.bound then some n else none

def storeKind? : String → Option StoreKind
  | "file" => some .file
  | "ring" => some .ring
  | _ => none

def word (text : String) : Except Refusal Nat :=
  match word? text with
  | some n => .ok n
  | none => .error .valueValidation

def path (text : String) : Except Refusal String :=
  if text = "" then .error .invalidValue else .ok text

/-- Gives an option its value. -/
def setValue (options : Options) (value : String) : ValueOption → Except Refusal Options
  | .bind =>
    match SocketAddress.parse? value with
    | some address => .ok { options with bind := address }
    | none => .error .valueValidation
  | .store =>
    match storeKind? value with
    | some kind => .ok { options with store := kind }
    | none => .error .invalidValue
  | .dataFile => (path value).map fun path => { options with dataFile := path }
  | .logFile => (path value).map fun path => { options with logFile := some path }
  | .ringCapacity => (word value).map fun n => { options with ringCapacity := n }
  | .stampInterval => (word value).map fun n => { options with stampInterval := n }
  | .maxPacketBytes => (word value).map fun n => { options with maxPacketBytes := n }

/-- Settles an option, which may be given only once and needs a value. -/
def settle (reading : Reading) (name : ValueOption) (value : Option String) :
    Except Refusal Reading :=
  match value with
  | none => .error .invalidValue
  | some value =>
    if name ∈ reading.settled then .error .argumentConflict
    else
      (setValue reading.options value name).map fun options =>
        { reading with options := options, settled := name :: reading.settled }

/-- Settles the option that has been waiting. -/
def settlePending (reading : Reading) : Except Refusal Reading :=
  match reading.pending with
  | none => .ok reading
  | some (name, value) => settle { reading with pending := none } name value

def readFlag (reading : Reading) (flag : Flag) : Except Refusal Reading := do
  let reading ← settlePending reading
  match flag with
  | .help => .error .displayHelp
  | .version => .error .displayVersion
  | .daemon =>
    if reading.detached then .error .argumentConflict
    else .ok { reading with options := { reading.options with daemon := true }, detached := true }

/-- An argument after two dashes: a name, and a value after an equals sign. -/
def readLong (reading : Reading) (name : String) (value : Option String) :
    Except Refusal Reading :=
  match valueOption? name, flag? name with
  | some name, _ =>
    match value with
    | some value => do settle (← settlePending reading) name (some value)
    | none => do return { ← settlePending reading with pending := some (name, none) }
  | none, some flag =>
    match value with
    | some _ => .error .tooManyValues
    | none => readFlag reading flag
  | none, none => .error .unknownArgument

/-- The flags after a single dash, one by one. -/
def readShort (reading : Reading) : List Char → Except Refusal Reading
  | [] => .ok reading
  | c :: rest =>
    match shortFlag? c with
    | none => .error .unknownArgument
    | some flag => do readShort (← readFlag reading flag) rest

/-- The name and the value around the first equals sign. -/
def splitValue (text : List Char) : String × Option String :=
  let name := text.takeWhile (· ≠ '=')
  (String.ofList name,
    match text.drop name.length with
    | [] => none
    | _ :: value => some (String.ofList value))

/-- An argument that is no option: the value that an option waits for, or nothing. -/
def readPlain (reading : Reading) (argument : String) : Except Refusal Reading :=
  match reading.pending with
  | some (name, none) =>
    if reading.trailing then .error .unknownArgument
    else .ok { reading with pending := some (name, some argument) }
  | _ => .error .unknownArgument

def readArgument (reading : Reading) (argument : String) : Except Refusal Reading :=
  if reading.trailing then readPlain reading argument
  else
    match argument.toList with
    | ['-', '-'] => .ok { reading with trailing := true }
    | '-' :: '-' :: rest =>
      let (name, value) := splitValue rest
      readLong reading name value
    | '-' :: c :: rest => readShort reading (c :: rest)
    | _ => readPlain reading argument

/-- What the arguments ask for. -/
def parse (arguments : List String) : Except Refusal Options := do
  let reading ← settlePending (← arguments.foldlM readArgument {})
  return reading.options

end CommandLine

namespace Options

/-- The interval between timestamp records, if there are to be any. -/
def stampSeconds? (options : Options) : Option Nat :=
  if options.stampInterval = 0 then none else some options.stampInterval

def storeChoice (options : Options) : StoreChoice :=
  match options.store with
  | .file => .file options.dataFile
  | .ring => .ring options.ringCapacity

end Options

end PacketLog
