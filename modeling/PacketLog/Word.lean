/-!
# Machine words

Sizes, offsets and counts are 64-bit words and signed deltas are 64-bit too.
They are kept as `Nat` and `Int`; the operations below answer `none` where the
exact result does not fit.  A count that grows with the steps of a run is a plain
`Nat`, and fits for as many steps as there are words.
-/

namespace PacketLog.Word

/-- The number of unsigned words, two to the power of 64. -/
def bound : Nat := 18446744073709551616

/-- The number of non-negative signed words, half of all words. -/
def signedBound : Nat := 9223372036854775808

/-- The exact sum, if it is a word. -/
def add? (a b : Nat) : Option Nat :=
  if a + b < bound then some (a + b) else none

/-- The exact sum of a word and a signed delta, if it is a word. -/
def addSigned? (a : Nat) (delta : Int) : Option Nat :=
  let sum := (a : Int) + delta
  if 0 ≤ sum ∧ sum < bound then some sum.toNat else none

theorem add?_eq_some {a b c : Nat} : add? a b = some c ↔ a + b = c ∧ a + b < bound := by
  unfold add?
  split
  · rename_i hlt
    simp [hlt]
  · rename_i hge
    simp [hge]

theorem add?_eq_none {a b : Nat} : add? a b = none ↔ bound ≤ a + b := by
  unfold add?
  split
  · rename_i hlt
    simp [hlt]
  · rename_i hge
    simpa using hge

theorem addSigned?_eq_some {a c : Nat} {delta : Int} :
    addSigned? a delta = some c ↔ (a : Int) + delta = c ∧ c < bound := by
  unfold addSigned?
  dsimp only
  split
  · rename_i hfit
    rw [Option.some.injEq]
    omega
  · rename_i hfit
    simp only [reduceCtorEq, false_iff]
    omega

end PacketLog.Word
