import PacketLog.SocketAddress
import PacketLog.SystemFailure

/-!
# Addresses to listen on

Which addresses a host lets a service listen on, and why it refuses the others.
The host has one interface, the loopback.  While that is down it has no address
of its own, and no table by which an address of four octets could be told to be
another host's, so it takes each of them; an address of eight groups it has to
find among its own.
-/

namespace PacketLog

/-- Whether the loopback interface is up, so that clients reach the port that the service listens
on. -/
inductive Network
  | reachable
  | unreachable
deriving DecidableEq

namespace Network

/-- The number of the loopback interface. -/
def loopback : Nat := 1

/-- The ports below this one are reserved, apart from 0, which stands for any free port. -/
def firstOpenPort : Nat := 1024

def reserved (port : Nat) : Bool := 0 < port && port < firstOpenPort

/-- Whether an address of four octets is the host's, or one that stands for every address of a
host, for every host or for a group of hosts. -/
def takesOctets (network : Network) (octets : List Nat) : Bool :=
  let first := octets.headD 0
  network = .unreachable || first = 127 || (224 ≤ first && first < 240)
    || octets = List.replicate 4 0 || octets = List.replicate 4 255

/-- An address that a group of hosts shares. -/
def isMulticast (groups : List Nat) : Bool := 0xFF00 ≤ groups.headD 0

/-- An address that means something on one interface only. -/
def isLinkLocal (groups : List Nat) : Bool :=
  0xFE80 ≤ groups.headD 0 && groups.headD 0 < 0xFEC0

/-- Whether an address of eight groups, none of those that belong to one interface, is the host's
or stands for every address of a host. -/
def takesGroups (network : Network) (groups : List Nat) : Bool :=
  match SocketAddress.mappedOctets? groups with
  | some octets => network.takesOctets octets
  | none =>
    groups = List.replicate 8 0
      || (network = .reachable && groups = List.replicate 7 0 ++ [1])

/-- Why an address of one interface cannot be listened on: no interface is named, the host does
not have it, or the address is not among those of the interface. -/
def scopeFailure (scope : Nat) : SystemFailure :=
  if scope = 0 then .invalidArgument
  else if scope ≠ loopback then .noDevice
  else .addressNotAvailable

/-- Why a host does not let a service listen on an address on which nobody else listens.  Of four
octets the address is looked at before the port, of eight groups after it. -/
def listenFailure? (network : Network) : SocketAddress → Option SystemFailure
  | .v4 octets port =>
    if ¬ network.takesOctets octets then some .addressNotAvailable
    else if reserved port then some .permissionDenied
    else none
  | .v6 groups scope port =>
    if isMulticast groups then some .invalidArgument
    else if reserved port then some .permissionDenied
    else if isLinkLocal groups then some (scopeFailure scope)
    else if network.takesGroups groups then none
    else some .addressNotAvailable

end Network

end PacketLog
