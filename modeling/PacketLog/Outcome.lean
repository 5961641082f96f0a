import PacketLog.Error

/-!
# What a call comes to

A call returns a value or an error, or it breaks off with its thread, or it has
not returned because what it waits for has not come.
-/

namespace PacketLog

inductive Outcome (α : Type)
  | ok (value : α)
  | error (error : Error)
  /-- The calling thread broke off. -/
  | crash
  /-- The call has not returned. -/
  | waiting
deriving DecidableEq

namespace Outcome

variable {α β : Type}

def ofExcept : Except Error α → Outcome α
  | .ok value => .ok value
  | .error e => .error e

/-- The value of a call that breaks off where there is none. -/
def ofOption : Option α → Outcome α
  | some value => .ok value
  | none => .crash

def map (f : α → β) : Outcome α → Outcome β
  | ok value => .ok (f value)
  | error e => .error e
  | crash => .crash
  | waiting => .waiting

end Outcome

end PacketLog
