/-!
# Bytes and lines

A packet is a line of a byte stream: everything up to and including a newline.
`split` reads a whole stream from its end: `lines` are its packets, `unterminated`
is what follows the last newline, and `lines_flatten_append` says that the two lose
nothing.
-/

namespace PacketLog

abbrev Bytes := List UInt8

/-- The byte that ends a packet. -/
def newline : UInt8 := 10

namespace Bytes

/-- Puts a byte before a stream that is already split. -/
def prepend (b : UInt8) : List Bytes × Bytes → List Bytes × Bytes
  | ([], rest) => if b = newline then ([[b]], rest) else ([], b :: rest)
  | (line :: lines, rest) =>
    if b = newline then ([b] :: line :: lines, rest) else ((b :: line) :: lines, rest)

/-- The lines of a stream, and what follows the last of them. -/
def split (s : Bytes) : List Bytes × Bytes := s.foldr prepend ([], [])

/-- The newline-terminated lines of a stream, in order, each with its newline. -/
def lines (s : Bytes) : List Bytes := (split s).1

/-- What follows the last newline of a stream. -/
def unterminated (s : Bytes) : Bytes := (split s).2

theorem split_nil : split [] = ([], []) := rfl

theorem split_cons (b : UInt8) (s : Bytes) : split (b :: s) = prepend b (split s) := rfl

theorem fst_prepend_eq_nil_iff (b : UInt8) (parts : List Bytes × Bytes) :
    (prepend b parts).1 = [] ↔ b ≠ newline ∧ parts.1 = [] := by
  obtain ⟨_ | ⟨line, lines⟩, rest⟩ := parts <;> by_cases hb : b = newline <;> simp [prepend, hb]

theorem flatten_append_prepend (b : UInt8) (parts : List Bytes × Bytes) :
    (prepend b parts).1.flatten ++ (prepend b parts).2 = b :: (parts.1.flatten ++ parts.2) := by
  obtain ⟨_ | ⟨line, lines⟩, rest⟩ := parts <;> by_cases hb : b = newline <;> simp [prepend, hb]

theorem newline_not_mem_snd_prepend (b : UInt8) {parts : List Bytes × Bytes}
    (hRest : newline ∉ parts.2) : newline ∉ (prepend b parts).2 := by
  obtain ⟨_ | ⟨line, lines⟩, rest⟩ := parts <;> by_cases hb : b = newline
  · simpa [prepend, hb] using hRest
  · have hb' : newline ≠ b := fun h => hb h.symm
    simpa [prepend, hb, hb'] using hRest
  · simpa [prepend, hb] using hRest
  · simpa [prepend, hb] using hRest

theorem lines_eq_nil_iff (s : Bytes) : lines s = [] ↔ newline ∉ s := by
  induction s with
  | nil => simp [lines, split_nil]
  | cons b s ih =>
    rw [lines, split_cons, fst_prepend_eq_nil_iff, List.mem_cons, not_or, ← ih]
    exact and_congr_left' ne_comm

/-- The lines and the unterminated rest are the whole stream. -/
theorem lines_flatten_append (s : Bytes) : (lines s).flatten ++ unterminated s = s := by
  induction s with
  | nil => rfl
  | cons b s ih =>
    rw [lines, unterminated, split_cons, flatten_append_prepend]
    exact congrArg (b :: ·) ih

theorem newline_not_mem_unterminated (s : Bytes) : newline ∉ unterminated s := by
  induction s with
  | nil => exact List.not_mem_nil
  | cons b s ih => exact newline_not_mem_snd_prepend b ih

end Bytes

end PacketLog
