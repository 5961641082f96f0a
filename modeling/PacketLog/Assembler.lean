import PacketLog.Entry
import PacketLog.Error

/-!
# Assembling packets from chunks

An assembler turns any chunking of a byte stream into packets.  A packet is
handed out once its newline has been seen, and what follows the newline stays
buffered.  Each byte is searched for a newline at most once: a cursor parts the
buffer, `pending`, into the bytes already searched, none of which is a newline,
and those ahead.
-/

namespace PacketLog

structure Assembler where
  /-- The length a packet may have, if there is a limit. -/
  limit : Option Nat := none
  /-- The buffered bytes already searched, newest first. -/
  searched : Bytes := []
  /-- The position of the cursor: how many bytes are searched. -/
  scanned : Nat := 0
  /-- The buffered bytes not searched yet. -/
  ahead : Bytes := []
  length_searched : searched.length = scanned := by exact List.length_nil
  newline_not_mem_searched : newline ∉ searched := by exact List.not_mem_nil
deriving DecidableEq

/-- A packet that is, or is about to become, longer than the limit. -/
def Error.oversizedPacket (limit length : Nat) : Error :=
  (ofMessage .usage ("packet exceeds " ++ toString limit ++ " bytes")).withOffset length

/-- A buffer that could not grow. -/
def Error.noRoomToGrow : Error :=
  (ofMessage .outOfMemory "failed to grow packet buffer").withCauses
    ["memory allocation failed because the memory allocator returned an error"]

namespace Assembler

/-- The buffered bytes, oldest first. -/
def pending (assembler : Assembler) : Bytes := assembler.searched.reverse ++ assembler.ahead

def withLimit (limit : Nat) : Assembler := { limit := some limit }

/-- Discards any partial packet. -/
def reset (assembler : Assembler) : Assembler := { limit := assembler.limit }

/-- The error that a packet of `length` bytes is, if it is longer than the limit. -/
def oversize? (limit : Option Nat) (length : Nat) : Option Error :=
  match limit with
  | none => none
  | some limit => if limit < length then some (.oversizedPacket limit length) else none

/-- Moves the cursor to the end of a buffer without a newline. -/
def passAhead (assembler : Assembler) (hAhead : newline ∉ assembler.ahead) : Assembler :=
  { assembler with
    searched := assembler.ahead.reverse ++ assembler.searched
    scanned := assembler.ahead.length + assembler.scanned
    ahead := []
    length_searched := by simp [assembler.length_searched]
    newline_not_mem_searched := by simp [hAhead, assembler.newline_not_mem_searched] }

/-- Hands out the next packet already buffered.  A packet longer than the limit, complete or
not, is an error that empties the buffer. -/
def poll (assembler : Assembler) : Except Error (Option Entry) × Assembler :=
  match hFound : assembler.ahead.idxOf? newline with
  | some found =>
    match oversize? assembler.limit (assembler.scanned + found + 1) with
    | some error => (.error error, assembler.reset)
    | none =>
      (.ok (some (assembler.searched.reverse ++ assembler.ahead.take (found + 1))),
        { limit := assembler.limit, ahead := assembler.ahead.drop (found + 1) })
  | none =>
    let assembler := assembler.passAhead (List.idxOf?_eq_none_iff.mp hFound)
    match oversize? assembler.limit assembler.scanned with
    | some error => (.error error, assembler.reset)
    | none => (.ok none, assembler)

/-- Buffers a chunk and hands out the first packet then complete.  An empty chunk does nothing;
without room for the chunk nothing changes. -/
def feed (assembler : Assembler) (chunk : Bytes) (room : Bool := true) :
    Except Error (Option Entry) × Assembler :=
  if chunk = [] then (.ok none, assembler)
  else if room then { assembler with ahead := assembler.ahead ++ chunk }.poll
  else (.error .noRoomToGrow, assembler)

theorem length_pending_of_poll {assembler after : Assembler} {packet : Entry}
    (hPoll : assembler.poll = (.ok (some packet), after)) :
    after.pending.length < assembler.pending.length := by
  unfold poll at hPoll
  split at hPoll
  · rename_i found hFound
    split at hPoll
    · simp at hPoll
    · obtain ⟨hLt, -⟩ := List.idxOf?_eq_some_iff.mp hFound
      simp only [Prod.mk.injEq] at hPoll
      rw [← hPoll.2]
      simp only [pending, List.reverse_nil, List.nil_append, List.length_append, List.length_drop]
      omega
  · dsimp only at hPoll
    split at hPoll <;> simp at hPoll

/-- Every packet already buffered, and the error that ended the search if one did. -/
def drain (assembler : Assembler) : (List Entry × Option Error) × Assembler :=
  match _hPoll : assembler.poll with
  | (.ok (some packet), after) =>
    let ((packets, failure), last) := after.drain
    ((packet :: packets, failure), last)
  | (.ok none, after) => (([], none), after)
  | (.error error, after) => (([], some error), after)
termination_by assembler.pending.length
decreasing_by exact length_pending_of_poll _hPoll

/-- Buffers a chunk and hands out every packet that is then complete. -/
def feedAll (assembler : Assembler) (chunk : Bytes) (room : Bool := true) :
    (List Entry × Option Error) × Assembler :=
  match assembler.feed chunk room with
  | (.ok (some packet), after) =>
    let ((packets, failure), last) := after.drain
    ((packet :: packets, failure), last)
  | (.ok none, after) => (([], none), after)
  | (.error error, after) => (([], some error), after)

end Assembler

end PacketLog
