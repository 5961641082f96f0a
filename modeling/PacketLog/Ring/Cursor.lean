import PacketLog.Ring

/-!
# Reading on through a ring

A cursor is a place among the retained bytes that remembers in which entry it
lies, so that one read after another need not look for its entry again.  Each
read stays within one entry.  `bytes_read?` says that no byte is skipped or
repeated, `readAt?_eq` that the cursor at an offset reads what the ring has there,
and `walk?_eq` that the walk is what reading again and again gives.
-/

namespace PacketLog

/-- A place among the retained bytes: what is left of one entry, and the entries after it. -/
structure Cursor where
  /-- How many bytes of the entry lie behind. -/
  passed : Nat := 0
  rest : Bytes := []
  later : List Entry := []
deriving DecidableEq

namespace Cursor

/-- Everything ahead. -/
def bytes (cursor : Cursor) : Bytes := cursor.rest ++ cursor.later.flatten

/-- The place `offset` bytes into `entries`, or their end. -/
def skip (offset : Nat) : List Entry → Cursor
  | [] => {}
  | entry :: later =>
    if offset < entry.length then { passed := offset, rest := entry.drop offset, later := later }
    else skip (offset - entry.length) later

/-- Moves on by `count` bytes, but not past the start of the next entry. -/
def advance (cursor : Cursor) (count : Nat) : Cursor :=
  match cursor.rest.drop count with
  | [] => skip 0 cursor.later
  | byte :: rest => { cursor with passed := cursor.passed + count, rest := byte :: rest }

/-- Reads at most `count` bytes of one entry and moves past them.  There is no answer when the end
of the range asked for is no word. -/
def read? (cursor : Cursor) (count : Nat) : Option (Bytes × Cursor) :=
  if count = 0 ∨ cursor.rest = [] then some ([], cursor)
  else
    (Word.add? cursor.passed count).map fun _ => (cursor.rest.take count, cursor.advance count)

theorem bytes_skip (offset : Nat) (entries : List Entry) :
    (skip offset entries).bytes = entries.flatten.drop offset := by
  induction entries generalizing offset with
  | nil => simp [skip, bytes]
  | cons entry later ih =>
    rw [skip]
    split
    · rename_i hLt
      rw [bytes, List.flatten_cons, List.drop_append_of_le_length (Nat.le_of_lt hLt)]
    · rename_i hLt
      rw [ih, List.flatten_cons, List.drop_append,
        List.drop_eq_nil_of_le (Nat.le_of_not_lt hLt), List.nil_append]

theorem bytes_advance (cursor : Cursor) (count : Nat) :
    cursor.rest.take count ++ (cursor.advance count).bytes = cursor.bytes := by
  unfold advance
  split
  · rename_i hRest
    rw [bytes_skip, List.drop_zero, bytes,
      List.take_of_length_le (List.drop_eq_nil_iff.mp hRest)]
  · rename_i hRest
    rw [bytes, bytes, ← hRest, ← List.append_assoc, List.take_append_drop]

/-- A read gives the next bytes, and leaves the cursor before the bytes after them. -/
theorem bytes_read? {cursor next : Cursor} {count : Nat} {chunk : Bytes}
    (hRead : cursor.read? count = some (chunk, next)) : chunk ++ next.bytes = cursor.bytes := by
  unfold read? at hRead
  split at hRead
  · obtain ⟨rfl, rfl⟩ := Prod.mk.inj (Option.some.inj hRead)
    rfl
  · obtain ⟨_, -, hEq⟩ := Option.map_eq_some_iff.mp hRead
    obtain ⟨rfl, rfl⟩ := Prod.mk.inj hEq
    exact cursor.bytes_advance count

/-- The place after a read is where skipping as many bytes leads. -/
theorem eq_skip_of_read? {offset count : Nat} {entries : List Entry} {chunk : Bytes}
    {next : Cursor} (hRead : (skip offset entries).read? count = some (chunk, next)) :
    next = skip (offset + chunk.length) entries := by
  induction entries generalizing offset with
  | nil =>
    rw [skip, read?, if_pos (Or.inr rfl)] at hRead
    rw [← (Prod.mk.inj (Option.some.inj hRead)).2, skip]
  | cons entry later ih =>
    rw [skip] at hRead
    split at hRead
    · rename_i hLt
      rw [read?] at hRead
      split at hRead
      · obtain ⟨rfl, rfl⟩ := Prod.mk.inj (Option.some.inj hRead)
        rw [List.length_nil, Nat.add_zero, skip, if_pos hLt]
      · obtain ⟨_, -, hEq⟩ := Option.map_eq_some_iff.mp hRead
        obtain ⟨rfl, rfl⟩ := Prod.mk.inj hEq
        rw [List.length_take, List.length_drop]
        unfold advance
        split
        · rename_i hRest
          have hEnd := List.drop_eq_nil_iff.mp hRest
          rw [List.length_drop] at hEnd
          rw [Nat.min_eq_right hEnd, Nat.add_sub_cancel' (Nat.le_of_lt hLt), skip,
            if_neg (Nat.lt_irrefl _), Nat.sub_self]
        · rename_i hRest
          have hInside := congrArg List.length hRest
          simp only [List.length_drop, List.length_cons] at hInside
          rw [Nat.min_eq_left (by omega), skip, if_pos (by omega), ← hRest, List.drop_drop]
    · rename_i hLt
      rw [ih hRead, skip, if_neg (by omega), Nat.sub_add_comm (Nat.le_of_not_lt hLt)]

theorem length_bytes_of_read? {cursor next : Cursor} {count : Nat} {chunk : Bytes}
    (hRead : cursor.read? count = some (chunk, next)) (hChunk : chunk ≠ []) :
    next.bytes.length < cursor.bytes.length := by
  have hPos := List.length_pos_iff.mpr hChunk
  rw [← bytes_read? hRead, List.length_append]
  omega

/-- The chunks that reading on and on gives, up to the first empty one. -/
def walk? (cursor : Cursor) (count : Nat) : Option (List Bytes) :=
  match _hRead : cursor.read? count with
  | none => none
  | some (chunk, next) =>
    if _hChunk : chunk = [] then some [] else (next.walk? count).map (chunk :: ·)
termination_by cursor.bytes.length
decreasing_by exact length_bytes_of_read? _hRead _hChunk

theorem walk?_eq_none {cursor : Cursor} {count : Nat} (hRead : cursor.read? count = none) :
    cursor.walk? count = none := by
  unfold walk?
  split
  · rfl
  · rename_i hSome
    cases hRead.symm.trans hSome

theorem walk?_of_read? {cursor next : Cursor} {count : Nat} {chunk : Bytes}
    (hRead : cursor.read? count = some (chunk, next)) :
    cursor.walk? count = if chunk = [] then some [] else (next.walk? count).map (chunk :: ·) := by
  conv => lhs; unfold walk?
  split
  · rename_i hNone
    cases hRead.symm.trans hNone
  · rename_i hSome
    obtain ⟨rfl, rfl⟩ := Prod.mk.inj (Option.some.inj (hRead.symm.trans hSome))
    rfl

/-- Reads on until `count` bytes have come or nothing more comes.  The answer is what came, and
whether one of the reads had no answer. -/
def collect (cursor : Cursor) (count : Nat) : Bytes × Bool :=
  match _hRead : cursor.read? count with
  | none => ([], true)
  | some (chunk, next) =>
    if _hChunk : chunk = [] then ([], false)
    else
      let (rest, overflowed) := next.collect (count - chunk.length)
      (chunk ++ rest, overflowed)
termination_by cursor.bytes.length
decreasing_by exact length_bytes_of_read? _hRead _hChunk

end Cursor

namespace Ring

/-- The place `offset` bytes after the oldest retained one. -/
def cursor (ring : Ring) (offset : Nat) : Cursor := .skip offset ring.entries

/-- The chunks that reading on and on from `offset` gives, up to the first empty one. -/
def walk? (ring : Ring) (offset count : Nat) : Option (List Bytes) :=
  (ring.cursor offset).walk? count

theorem bytes_cursor (ring : Ring) (offset : Nat) :
    (ring.cursor offset).bytes = ring.contents.drop offset :=
  Cursor.bytes_skip offset ring.entries

theorem skip_of_locate {index start offset : Nat} {entries : List Entry} {located : Located}
    (hStart : start ≤ offset) (hLocate : locate index start offset entries = some located) :
    located.offset < located.entry.length ∧
      ∃ later, Cursor.skip (offset - start) entries =
        ⟨located.offset, located.entry.drop located.offset, later⟩ := by
  induction entries generalizing index start with
  | nil => cases hLocate
  | cons entry later ih =>
    rw [locate] at hLocate
    split at hLocate
    · cases hLocate
      exact ⟨by dsimp only; omega, later, by rw [Cursor.skip, if_pos (by omega)]⟩
    · rw [Cursor.skip, if_neg (by omega), Nat.sub_sub]
      exact ih (by omega) hLocate

theorem skip_of_locate_eq_none {index start offset : Nat} {entries : List Entry}
    (hStart : start ≤ offset) (hLocate : locate index start offset entries = none) :
    Cursor.skip (offset - start) entries = {} := by
  induction entries generalizing index start with
  | nil => rw [Cursor.skip]
  | cons entry later ih =>
    rw [locate] at hLocate
    split at hLocate
    · cases hLocate
    · rw [Cursor.skip, if_neg (by omega), Nat.sub_sub]
      exact ih (by omega) hLocate

/-- The cursor at an offset reads what the ring has there. -/
theorem readAt?_eq {ring : Ring} (hTotal : ring.totalBytes = ring.contents.length)
    (offset count : Nat) :
    ring.readAt? offset count = ((ring.cursor offset).read? count).map Prod.fst := by
  rw [readAt?, Cursor.read?]
  by_cases hCount : count = 0
  · rw [if_pos hCount, if_pos (Or.inl hCount), Option.map_some]
  · rw [if_neg hCount]
    cases hFind : ring.find offset with
    | none =>
      have hRest : (ring.cursor offset).rest = [] := by
        rw [find] at hFind
        split at hFind
        · rename_i hPast
          have hBytes := ring.bytes_cursor offset
          rw [List.drop_eq_nil_of_le (hTotal ▸ hPast), Cursor.bytes] at hBytes
          exact (List.append_eq_nil_iff.mp hBytes).1
        · rw [cursor, ← Nat.sub_zero offset, skip_of_locate_eq_none (Nat.zero_le _) hFind]
      rw [if_pos (Or.inr hRest), Option.map_some]
    | some located =>
      rw [find] at hFind
      split at hFind
      · cases hFind
      · obtain ⟨hLt, later, hSkip⟩ := skip_of_locate (Nat.zero_le _) hFind
        rw [Nat.sub_zero] at hSkip
        have hRest : located.entry.drop located.offset ≠ [] :=
          mt List.drop_eq_nil_iff.mp (Nat.not_le.mpr hLt)
        rw [cursor, hSkip, if_neg (not_or.mpr ⟨hCount, hRest⟩), Option.map_map]
        rfl

/-- The walk reads once, and walks on from where the read ended. -/
theorem walk?_eq {ring : Ring} (hTotal : ring.totalBytes = ring.contents.length)
    (offset count : Nat) :
    ring.walk? offset count =
      match ring.readAt? offset count with
      | none => none
      | some chunk =>
        if chunk = [] then some []
        else (ring.walk? (offset + chunk.length) count).map (chunk :: ·) := by
  rw [readAt?_eq hTotal]
  cases hRead : (ring.cursor offset).read? count with
  | none => exact Cursor.walk?_eq_none hRead
  | some answer =>
    rw [walk?, Cursor.walk?_of_read? hRead, Cursor.eq_skip_of_read? hRead]
    rfl

end Ring

end PacketLog
