import Mathlib.Data.List.Basic
import PacketLog.Proofs.Assembler.Search

/-!
# Calls in any order

Chunks may be fed, packets be asked for and the buffer be reset in any order: a feed
need not be followed by polls until nothing more is complete, and calls go on after
an error.  `run` makes such calls and keeps a record of what they answer.

On the other side stands a buffer without a cursor.  `AssemblerCall.search` looks for
the first line of all that is buffered, from the first byte on, at every call, and
`searchAll` makes the same calls on it.  `run_eq_searchAll` says that the two cannot
be told apart, and that bytes are only ever lost where the buffer is cleared: between
two such calls the packets handed out, followed by what is pending, are what was fed.
-/

namespace PacketLog

open Bytes

inductive AssemblerCall
  /-- `room` says whether the buffer can grow by the chunk. -/
  | feed (chunk : Bytes) (room : Bool := true)
  | poll
  | reset
deriving DecidableEq

namespace AssemblerCall

def fed : AssemblerCall → Bytes
  | feed chunk room => if room then chunk else []
  | poll => []
  | reset => []

/-- What the call answers and keeps where there is no cursor. -/
def search (limit : Option Nat) (buffer : Bytes) :
    AssemblerCall → Except Error (Option Entry) × Bytes
  | feed chunk room =>
    if chunk = [] then (.ok none, buffer)
    else if room then Assembler.search limit (buffer ++ chunk)
    else (.error .noRoomToGrow, buffer)
  | poll => Assembler.search limit buffer
  | reset => (.ok none, [])

def fedIn (calls : List AssemblerCall) : Bytes := calls.flatMap fed

theorem fedIn_cons (call : AssemblerCall) (later : List AssemblerCall) :
    fedIn (call :: later) = call.fed ++ fedIn later := rfl

theorem fedIn_append (earlier later : List AssemblerCall) :
    fedIn (earlier ++ later) = fedIn earlier ++ fedIn later := List.flatMap_append

end AssemblerCall

structure AssemblerEntry where
  call : AssemblerCall
  answer : Except Error (Option Entry)

namespace AssemblerEntry

def packets (entry : AssemblerEntry) : List Entry :=
  match entry.answer with
  | .ok (some packet) => [packet]
  | _ => []

/-- The call cleared the buffer: it was a reset, or a packet was too long. -/
def clears (entry : AssemblerEntry) : Bool :=
  match entry.call, entry.answer with
  | .reset, _ => true
  | _, .error error => error ≠ .noRoomToGrow
  | _, .ok _ => false

def packetsIn (record : List AssemblerEntry) : List Entry := record.flatMap packets

end AssemblerEntry

namespace Assembler

open AssemblerCall AssemblerEntry

def perform (assembler : Assembler) : AssemblerCall → Except Error (Option Entry) × Assembler
  | .feed chunk room => assembler.feed chunk room
  | .poll => assembler.poll
  | .reset => (.ok none, assembler.reset)

def run (assembler : Assembler) : List AssemblerCall → List AssemblerEntry × Assembler
  | [] => ([], assembler)
  | call :: later =>
    let (answer, next) := assembler.perform call
    let (record, last) := next.run later
    (⟨call, answer⟩ :: record, last)

/-- The same calls on a buffer without a cursor. -/
def searchAll (limit : Option Nat) (buffer : Bytes) :
    List AssemblerCall → List AssemblerEntry × Bytes
  | [] => ([], buffer)
  | call :: later =>
    let (answer, kept) := call.search limit buffer
    let (record, last) := searchAll limit kept later
    (⟨call, answer⟩ :: record, last)

theorem run_cons (assembler : Assembler) (call : AssemblerCall) (later : List AssemblerCall) :
    assembler.run (call :: later) =
      (⟨call, (assembler.perform call).1⟩ :: ((assembler.perform call).2.run later).1,
        ((assembler.perform call).2.run later).2) := rfl

theorem run_append (assembler : Assembler) (earlier later : List AssemblerCall) :
    assembler.run (earlier ++ later) =
      ((assembler.run earlier).1 ++ ((assembler.run earlier).2.run later).1,
        ((assembler.run earlier).2.run later).2) := by
  induction earlier generalizing assembler with
  | nil => rfl
  | cons call earlier ih => rw [List.cons_append, run_cons, ih, run_cons, List.cons_append]

theorem searchAll_cons (limit : Option Nat) (buffer : Bytes) (call : AssemblerCall)
    (later : List AssemblerCall) :
    searchAll limit buffer (call :: later) =
      (⟨call, (call.search limit buffer).1⟩ ::
          (searchAll limit (call.search limit buffer).2 later).1,
        (searchAll limit (call.search limit buffer).2 later).2) := rfl

/-! ## One call -/

theorem limit_perform (assembler : Assembler) (call : AssemblerCall) :
    (assembler.perform call).2.limit = assembler.limit := by
  cases call with
  | feed chunk room =>
    rw [perform, feed]
    split
    · rfl
    · split
      · exact limit_poll _
      · rfl
  | poll => exact assembler.limit_poll
  | reset => rfl

/-- The cursor changes neither what a call answers nor what it keeps. -/
theorem perform_eq_search (assembler : Assembler) (call : AssemblerCall) :
    ((assembler.perform call).1, (assembler.perform call).2.pending) =
      call.search assembler.limit assembler.pending := by
  cases call with
  | feed chunk room =>
    rw [perform, AssemblerCall.search]
    by_cases hChunk : chunk = []
    · rw [feed, if_pos hChunk, if_pos hChunk]
    · rw [if_neg hChunk]
      cases room with
      | true =>
        obtain ⟨whole, hLimit, hPending, hFeed⟩ := exists_feed_eq_poll hChunk assembler
        rw [if_pos rfl, hFeed, ← hLimit, ← hPending]
        exact whole.poll_eq_search
      | false => rw [feed_of_no_room hChunk, if_neg Bool.false_ne_true]
  | poll => exact assembler.poll_eq_search
  | reset => rfl

/-- What a call does to the accounts: unless it clears the buffer, nothing is lost. -/
structure Accounts (assembler : Assembler) (entry : AssemblerEntry) (after : Assembler) : Prop where
  kept : entry.clears = false →
    assembler.pending ++ entry.call.fed = entry.packets.flatten ++ after.pending
  cleared : entry.clears = true → after.pending = [] ∧ entry.packets = []
  packets : ∀ packet ∈ entry.packets, IsLine packet ∧ fits assembler.limit packet

theorem pending_of_poll_error {assembler after : Assembler} {error : Error}
    (hPoll : assembler.poll = (.error error, after)) : after.pending = [] := by
  unfold poll at hPoll
  split at hPoll
  · split at hPoll
    · rw [← (Prod.mk.inj hPoll).2]
      rfl
    · cases hPoll
  · dsimp only at hPoll
    split at hPoll
    · rw [← (Prod.mk.inj hPoll).2]
      rfl
    · cases hPoll

theorem accounts_poll {assembler whole after : Assembler} {call : AssemblerCall}
    {answer : Except Error (Option Entry)} (hReset : call ≠ .reset)
    (hLimit : whole.limit = assembler.limit)
    (hPending : whole.pending = assembler.pending ++ call.fed)
    (hPoll : whole.poll = (answer, after)) : assembler.Accounts ⟨call, answer⟩ after := by
  have hOk : ∀ found, AssemblerEntry.clears ⟨call, .ok found⟩ = false := by
    intro found
    cases call with
    | feed chunk room => rfl
    | poll => rfl
    | reset => exact absurd rfl hReset
  rcases answer with error | _ | packet
  · obtain ⟨-, -, most, length, -, -, rfl⟩ := of_poll_error hPoll
    have hClears : AssemblerEntry.clears ⟨call, .error (.oversizedPacket most length)⟩ = true := by
      have hOther : Error.oversizedPacket most length ≠ .noRoomToGrow := by
        intro hSame
        cases congrArg Error.kind hSame
      cases call with
      | feed chunk room => exact decide_eq_true hOther
      | poll => exact decide_eq_true hOther
      | reset => rfl
    refine ⟨fun hKept => ?_, fun _ => ⟨pending_of_poll_error hPoll, rfl⟩, nofun⟩
    rw [hClears] at hKept
    cases hKept
  · obtain ⟨-, -, hSame⟩ := of_poll_none hPoll
    refine ⟨fun _ => ?_, fun hClears => ?_, nofun⟩
    · rw [hSame, hPending]
      rfl
    · rw [hOk] at hClears
      cases hClears
  · obtain ⟨hLine, hFits, hTaken⟩ := of_poll_some hPoll
    refine ⟨fun _ => ?_, fun hClears => ?_, ?_⟩
    · rw [← hPending, hTaken, AssemblerEntry.packets, List.flatten_singleton]
    · rw [hOk] at hClears
      cases hClears
    · rw [AssemblerEntry.packets, List.forall_mem_singleton, ← hLimit]
      exact ⟨hLine, hFits⟩

theorem accounts_quiet {assembler : Assembler} {entry : AssemblerEntry}
    (hKept : entry.clears = false) (hFed : entry.call.fed = []) (hPackets : entry.packets = []) :
    assembler.Accounts entry assembler where
  kept := fun _ => by rw [hFed, hPackets, List.append_nil, List.flatten_nil, List.nil_append]
  cleared := fun hCleared => by rw [hKept] at hCleared; cases hCleared
  packets := fun packet hMem => by rw [hPackets] at hMem; cases hMem

theorem accounts_perform (assembler : Assembler) (call : AssemblerCall) :
    assembler.Accounts ⟨call, (assembler.perform call).1⟩ (assembler.perform call).2 := by
  cases call with
  | feed chunk room =>
    have hFeed : AssemblerCall.feed chunk room ≠ .reset := AssemblerCall.noConfusion
    rw [perform]
    by_cases hChunk : chunk = []
    · rw [feed, if_pos hChunk, hChunk]
      exact accounts_quiet rfl (ite_self _) rfl
    · cases room with
      | true =>
        obtain ⟨whole, hLimit, hPending, hPoll⟩ := exists_feed_eq_poll hChunk assembler
        rw [hPoll]
        exact accounts_poll hFeed hLimit hPending rfl
      | false =>
        rw [feed_of_no_room hChunk]
        exact accounts_quiet (by simp [clears]) rfl rfl
  | poll =>
    have hSame := (List.append_nil assembler.pending).symm
    exact accounts_poll AssemblerCall.noConfusion rfl hSame rfl
  | reset =>
    refine ⟨fun hKept => ?_, fun _ => ⟨rfl, rfl⟩, fun packet hMem => ?_⟩
    · cases hKept
    · cases hMem

/-! ## Runs of calls -/

theorem limit_run (assembler : Assembler) (calls : List AssemblerCall) :
    (assembler.run calls).2.limit = assembler.limit := by
  induction calls generalizing assembler with
  | nil => rfl
  | cons call later ih => rw [run_cons, ih, limit_perform]

/-- A run that never clears the buffer loses nothing. -/
theorem packetsIn_append_pending {assembler : Assembler} {calls : List AssemblerCall}
    (hKept : ∀ entry ∈ (assembler.run calls).1, entry.clears = false) :
    (packetsIn (assembler.run calls).1).flatten ++ (assembler.run calls).2.pending =
      assembler.pending ++ fedIn calls := by
  induction calls generalizing assembler with
  | nil => simp [run, packetsIn, fedIn]
  | cons call later ih =>
    rw [run_cons] at hKept ⊢
    obtain ⟨hFirst, hLater⟩ := List.forall_mem_cons.mp hKept
    have hOne := (assembler.accounts_perform call).kept hFirst
    rw [packetsIn, List.flatMap_cons, List.flatten_append, List.append_assoc, fedIn_cons,
      ← List.append_assoc assembler.pending, hOne, List.append_assoc]
    exact congrArg _ (ih hLater)

/-- The calls begin on an empty buffer: there was none before, or the last one cleared it. -/
theorem pending_of_clears {assembler : Assembler} {calls : List AssemblerCall}
    (hEmpty : assembler.pending = [])
    (hCleared : ∀ entry ∈ (assembler.run calls).1.getLast?, entry.clears) :
    (assembler.run calls).2.pending = [] := by
  obtain rfl | ⟨earlier, call, rfl⟩ := List.eq_nil_or_concat' calls
  · exact hEmpty
  · rw [run_append] at hCleared ⊢
    have hLast := hCleared _ List.getLast?_concat
    exact ((accounts_perform _ call).cleared hLast).1

theorem run_eq_searchAll_of_pending (assembler : Assembler) (calls : List AssemblerCall) :
    ((assembler.run calls).1, (assembler.run calls).2.pending) =
      searchAll assembler.limit assembler.pending calls := by
  induction calls generalizing assembler with
  | nil => rfl
  | cons call later ih =>
    have hCall := assembler.perform_eq_search call
    have hLater := ih (assembler.perform call).2
    rw [limit_perform] at hLater
    rw [run_cons, searchAll_cons, ← hCall, ← hLater]

/-- **The cursor is never seen.**  Whatever is fed, polled for and reset in whatever order, a new
assembler answers as a buffer does that is searched from its first byte at every call, and keeps
the same bytes.  From the start, or from a call that cleared the buffer, up to the next such call,
the packets handed out and the bytes pending are the bytes fed. -/
theorem run_eq_searchAll (limit : Option Nat) (calls : List AssemblerCall) :
    let fresh : Assembler := { limit := limit }
    ((fresh.run calls).1, (fresh.run calls).2.pending) = searchAll limit [] calls ∧
    ∀ earlier between, calls = earlier ++ between →
      (∀ entry ∈ (fresh.run earlier).1.getLast?, entry.clears) →
      (∀ entry ∈ ((fresh.run earlier).2.run between).1, entry.clears = false) →
      (packetsIn ((fresh.run earlier).2.run between).1).flatten ++ (fresh.run calls).2.pending =
        fedIn between := by
  intro fresh
  refine ⟨fresh.run_eq_searchAll_of_pending calls, ?_⟩
  rintro earlier between rfl hCleared hKept
  have hEmpty : (fresh.run earlier).2.pending = [] := pending_of_clears rfl hCleared
  rw [run_append]
  dsimp only
  rw [packetsIn_append_pending hKept, hEmpty, List.nil_append]

/-- After a refusal, one feed brings two packets, of which the second waits for a poll. -/
theorem run_eq_searchAll_of_refusal :
    let fresh : Assembler := { limit := some 4 }
    let earlier : List AssemblerCall :=
      [.feed [97, 98], .feed [99, 10, 100], .feed [101, 102, 103, 104]]
    let between : List AssemblerCall := [.feed [120, 10, 121, 10, 122], .feed [], .poll]
    let (record, after) := (fresh.run earlier).2.run between
    packetsIn record = [[120, 10], [121, 10]] ∧ after.pending = [122] ∧
      (searchAll (some 4) [] (earlier ++ between)).2 = after.pending := by
  intro fresh earlier between
  obtain ⟨hSame, hBetween⟩ := run_eq_searchAll (some 4) (earlier ++ between)
  have hFed := hBetween earlier between rfl (by decide) (by decide)
  have hPackets : packetsIn ((fresh.run earlier).2.run between).1 = [[120, 10], [121, 10]] := by
    decide
  have hPending : (fresh.run (earlier ++ between)).2.pending = [122] := by
    rw [hPackets] at hFed
    exact List.append_cancel_left hFed
  exact ⟨hPackets, hPending, (congrArg Prod.snd hSame).symm⟩

end Assembler

end PacketLog
