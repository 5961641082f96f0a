/-!
# The monotonic clock

An instant is the number of nanoseconds since the machine started.  Instants have
a signed word for their seconds, so the sum of an instant and a duration may not
exist.
-/

namespace PacketLog.Clock

def nanosPerSecond : Nat := 1000000000

def nanosPerMilli : Nat := 1000000

/-- The first number of nanoseconds that is no instant. -/
def bound : Nat := 9223372036854775808 * nanosPerSecond

def ofSeconds (seconds : Nat) : Nat := seconds * nanosPerSecond

def ofMillis (millis : Nat) : Nat := millis * nanosPerMilli

/-- The instant `duration` after `now`, if there is one. -/
def later? (now duration : Nat) : Option Nat :=
  if now + duration < bound then some (now + duration) else none

end PacketLog.Clock
