import Mathlib.Data.List.TakeWhile
import PacketLog.Assembler
import PacketLog.Proofs.Lines

/-!
# What one search of the buffer finds

The cursor of an assembler saves time and nothing else: `poll_eq_search` says that
a poll answers, and keeps, what a search of all pending bytes from the first one on
would.  The three lemmas `of_poll_some`, `of_poll_none` and `of_poll_error` say the
same one answer at a time, and `drain_eq` what polling on and on comes to:
`admitted`, the lines before the first one that is too long.
-/

namespace PacketLog.Assembler

open Bytes

def fits (limit : Option Nat) (packet : Bytes) : Bool :=
  match limit with
  | none => true
  | some limit => packet.length ≤ limit

/-- The lines of a stream before the first one that is too long. -/
def admitted (limit : Option Nat) (s : Bytes) : List Entry := (lines s).takeWhile (fits limit)

/-- No line of the stream is too long, and neither is what follows the last newline. -/
def Admissible (limit : Option Nat) (s : Bytes) : Prop :=
  (∀ line ∈ lines s, fits limit line) ∧ fits limit (unterminated s)

theorem fits_none (packet : Bytes) : fits none packet := rfl

theorem fits_of_isPrefix {limit : Option Nat} {s t : Bytes} (hPrefix : s <+: t)
    (hFits : fits limit t) : fits limit s := by
  cases limit with
  | none => rfl
  | some limit =>
    have hLength := hPrefix.length_le
    simp only [fits, decide_eq_true_eq] at hFits ⊢
    omega

theorem oversize?_eq_none_iff {limit : Option Nat} {packet : Bytes} :
    oversize? limit packet.length = none ↔ fits limit packet := by
  cases limit <;> simp [oversize?, fits]

theorem oversize?_eq_some {limit : Option Nat} {length : Nat} {error : Error}
    (hOversize : oversize? limit length = some error) :
    ∃ most, limit = some most ∧ most < length ∧ error = .oversizedPacket most length := by
  cases limit with
  | none => cases hOversize
  | some most =>
    rw [oversize?] at hOversize
    split at hOversize
    · rename_i hLt
      exact ⟨most, rfl, hLt, (Option.some.inj hOversize).symm⟩
    · cases hOversize

theorem not_fits_of_oversize?_eq_some {limit : Option Nat} {packet : Bytes} {error : Error}
    (hOversize : oversize? limit packet.length = some error) : ¬ fits limit packet := by
  intro hFits
  rw [oversize?_eq_none_iff.mpr hFits] at hOversize
  cases hOversize

theorem admissible_none (s : Bytes) : Admissible none s :=
  ⟨fun line _ => fits_none line, fits_none _⟩

theorem admitted_eq_lines {limit : Option Nat} {s : Bytes} (hAdmissible : Admissible limit s) :
    admitted limit s = lines s :=
  List.takeWhile_eq_self_iff.mpr hAdmissible.1

/-! ## One poll -/

/-- What a buffer without a cursor answers and keeps when it is searched from its first byte. -/
def search (limit : Option Nat) (buffer : Bytes) : Except Error (Option Entry) × Bytes :=
  match lines buffer with
  | [] =>
    match oversize? limit buffer.length with
    | some error => (.error error, [])
    | none => (.ok none, buffer)
  | line :: _ =>
    match oversize? limit line.length with
    | some error => (.error error, [])
    | none => (.ok (some line), buffer.drop line.length)

theorem search_of_lines_eq_nil {buffer : Bytes} (hLines : lines buffer = [])
    (limit : Option Nat) :
    search limit buffer =
      match oversize? limit buffer.length with
      | some error => (.error error, [])
      | none => (.ok none, buffer) := by
  rw [search, hLines]

theorem search_of_lines_eq_cons {buffer line : Bytes} {later : List Bytes}
    (hLines : lines buffer = line :: later) (limit : Option Nat) :
    search limit buffer =
      match oversize? limit line.length with
      | some error => (.error error, [])
      | none => (.ok (some line), buffer.drop line.length) := by
  rw [search, hLines]

/-- The first newline ahead ends the first line of the buffer. -/
theorem isLine_of_found {assembler : Assembler} {found : Nat}
    (hFound : assembler.ahead.idxOf? newline = some found) :
    IsLine (assembler.searched.reverse ++ assembler.ahead.take (found + 1)) := by
  obtain ⟨hLt, hNewline, hBefore⟩ := List.idxOf?_eq_some_iff.mp hFound
  refine ⟨assembler.searched.reverse ++ assembler.ahead.take found, ?_, ?_⟩
  · rw [List.mem_append, not_or, List.mem_reverse]
    refine ⟨assembler.newline_not_mem_searched, fun hMem => ?_⟩
    obtain ⟨i, hi, hGet⟩ := List.mem_take_iff_getElem.mp hMem
    exact absurd hGet (hBefore i (by omega))
  · rw [List.take_succ_eq_append_getElem hLt, List.append_assoc, hNewline]

/-- The cursor changes neither what a poll answers nor what it keeps. -/
theorem poll_eq_search (assembler : Assembler) :
    (assembler.poll.1, assembler.poll.2.pending) =
      search assembler.limit assembler.pending := by
  unfold poll
  split
  · -- The newline found ends the first line, searched part and all.
    rename_i found hFound
    have hLine := isLine_of_found hFound
    obtain ⟨hLt, -⟩ := List.idxOf?_eq_some_iff.mp hFound
    have hLength : (assembler.searched.reverse ++ assembler.ahead.take (found + 1)).length =
        assembler.scanned + found + 1 := by
      rw [List.length_append, List.length_reverse, assembler.length_searched,
        List.length_take_of_le hLt, Nat.add_assoc]
    have hPending : assembler.pending = assembler.searched.reverse ++
        assembler.ahead.take (found + 1) ++ assembler.ahead.drop (found + 1) := by
      rw [pending, List.append_assoc, List.take_append_drop]
    have hLines := lines_line_append hLine (assembler.ahead.drop (found + 1))
    rw [← hPending] at hLines
    rw [search_of_lines_eq_cons hLines, hLength, hPending, List.drop_left' hLength]
    cases oversize? assembler.limit (assembler.scanned + found + 1) <;> rfl
  · -- There is none ahead, and none in what was searched before.
    rename_i hFound
    have hLines : lines assembler.pending = [] := by
      rw [lines_eq_nil_iff, pending, List.mem_append, not_or, List.mem_reverse]
      exact ⟨assembler.newline_not_mem_searched, List.idxOf?_eq_none_iff.mp hFound⟩
    have hLength : assembler.ahead.length + assembler.scanned = assembler.pending.length := by
      rw [pending, List.length_append, List.length_reverse, assembler.length_searched, Nat.add_comm]
    rw [search_of_lines_eq_nil hLines, ← hLength]
    dsimp only [passAhead]
    cases oversize? assembler.limit (assembler.ahead.length + assembler.scanned) with
    | none => simp [pending]
    | some error => rfl

theorem length_pending_poll_le (assembler : Assembler) :
    assembler.poll.2.pending.length ≤ assembler.pending.length := by
  have hPending : assembler.poll.2.pending = (search assembler.limit assembler.pending).2 :=
    congrArg Prod.snd assembler.poll_eq_search
  rw [hPending, search]
  split
  · split
    · exact Nat.zero_le _
    · exact Nat.le_refl _
  · split
    · exact Nat.zero_le _
    · rw [List.length_drop]
      exact Nat.sub_le _ _

/-- A chunk is searched together with what was pending. -/
theorem exists_feed_eq_poll {chunk : Bytes} (hChunk : chunk ≠ []) (assembler : Assembler) :
    ∃ whole : Assembler, whole.limit = assembler.limit ∧
      whole.pending = assembler.pending ++ chunk ∧ assembler.feed chunk = whole.poll := by
  refine ⟨{ assembler with ahead := assembler.ahead ++ chunk }, rfl, ?_, ?_⟩
  · simp only [pending, List.append_assoc]
  · rw [feed, if_neg hChunk, if_pos rfl]

theorem feed_of_no_room {chunk : Bytes} (hChunk : chunk ≠ []) (assembler : Assembler) :
    assembler.feed chunk false = (.error .noRoomToGrow, assembler) := by
  rw [feed, if_neg hChunk, if_neg Bool.false_ne_true]

theorem feed_cases {assembler : Assembler} {chunk : Bytes} {room : Bool}
    {found : Except Error (Option Entry) × Assembler} (hChunk : chunk ≠ [])
    (hFeed : assembler.feed chunk room = found) :
    (∃ whole : Assembler, whole.limit = assembler.limit ∧
      whole.pending = assembler.pending ++ chunk ∧ whole.poll = found) ∨
    found = (.error .noRoomToGrow, assembler) := by
  cases room with
  | true =>
    obtain ⟨whole, hLimit, hPending, hPoll⟩ := exists_feed_eq_poll hChunk assembler
    exact Or.inl ⟨whole, hLimit, hPending, hPoll.symm.trans hFeed⟩
  | false => exact Or.inr (hFeed.symm.trans (feed_of_no_room hChunk assembler))

theorem limit_poll (assembler : Assembler) : assembler.poll.2.limit = assembler.limit := by
  unfold poll
  split
  · split <;> rfl
  · dsimp only
    split <;> rfl

/-- A packet found is the first line, and what is kept goes on after it. -/
theorem of_poll_some {assembler after : Assembler} {packet : Entry}
    (hPoll : assembler.poll = (.ok (some packet), after)) :
    IsLine packet ∧ fits assembler.limit packet ∧
      assembler.pending = packet ++ after.pending := by
  have hSearch := assembler.poll_eq_search
  rw [hPoll] at hSearch
  cases hLines : lines assembler.pending with
  | nil =>
    rw [search_of_lines_eq_nil hLines] at hSearch
    split at hSearch <;> cases hSearch
  | cons line later =>
    rw [search_of_lines_eq_cons hLines] at hSearch
    split at hSearch
    · cases hSearch
    · rename_i hOversize
      simp only [Prod.mk.injEq, Except.ok.injEq, Option.some.injEq] at hSearch
      obtain ⟨rfl, hAfter⟩ := hSearch
      have hWhole := lines_flatten_append assembler.pending
      rw [hLines, List.flatten_cons, List.append_assoc] at hWhole
      refine ⟨isLine_of_mem_lines (hLines ▸ List.mem_cons_self),
        oversize?_eq_none_iff.mp hOversize, ?_⟩
      rw [hAfter, ← hWhole, List.drop_left]

theorem of_poll_none {assembler after : Assembler} (hPoll : assembler.poll = (.ok none, after)) :
    lines assembler.pending = [] ∧ fits assembler.limit assembler.pending ∧
      after.pending = assembler.pending := by
  have hSearch := assembler.poll_eq_search
  rw [hPoll] at hSearch
  cases hLines : lines assembler.pending with
  | nil =>
    rw [search_of_lines_eq_nil hLines] at hSearch
    split at hSearch
    · cases hSearch
    · rename_i hOversize
      exact ⟨rfl, oversize?_eq_none_iff.mp hOversize, (Prod.mk.inj hSearch).2⟩
  | cons line later =>
    rw [search_of_lines_eq_cons hLines] at hSearch
    split at hSearch <;> cases hSearch

/-- An error says that the first line, or all there is of it, is too long. -/
theorem of_poll_error {assembler after : Assembler} {error : Error}
    (hPoll : assembler.poll = (.error error, after)) :
    admitted assembler.limit assembler.pending = [] ∧
      ¬ Admissible assembler.limit assembler.pending ∧
      ∃ most length, assembler.limit = some most ∧ most < length ∧
        error = .oversizedPacket most length := by
  have hSearch := assembler.poll_eq_search
  rw [hPoll] at hSearch
  cases hLines : lines assembler.pending with
  | nil =>
    rw [search_of_lines_eq_nil hLines] at hSearch
    split at hSearch
    · rename_i found hOversize
      obtain rfl := Except.error.inj (Prod.mk.inj hSearch).1
      have hTooLong := not_fits_of_oversize?_eq_some hOversize
      obtain ⟨most, hMost⟩ := oversize?_eq_some hOversize
      refine ⟨by rw [admitted, hLines, List.takeWhile_nil], fun hAdmissible => ?_, most, _, hMost⟩
      rw [Admissible, unterminated_eq_self hLines] at hAdmissible
      exact hTooLong hAdmissible.2
    · cases hSearch
  | cons line later =>
    rw [search_of_lines_eq_cons hLines] at hSearch
    split at hSearch
    · rename_i found hOversize
      obtain rfl := Except.error.inj (Prod.mk.inj hSearch).1
      have hTooLong := not_fits_of_oversize?_eq_some hOversize
      obtain ⟨most, hMost⟩ := oversize?_eq_some hOversize
      have hFirst : line ∈ lines assembler.pending := hLines ▸ List.mem_cons_self
      exact ⟨by rw [admitted, hLines, List.takeWhile_cons_of_neg hTooLong],
        fun hAdmissible => hTooLong (hAdmissible.1 line hFirst), most, _, hMost⟩
    · cases hSearch

/-! ## Polling on and on -/

/-- What handing out the packets of a stream comes to: the lines before the first one that is too
long, and an error if there is such a line or the rest of the stream is too long; without an error
the rest is kept. -/
structure Delivers (limit : Option Nat) (s : Bytes)
    (answer : (List Entry × Option Error) × Assembler) : Prop where
  packets_eq : answer.1.1 = admitted limit s
  failure_eq_none_iff : answer.1.2 = none ↔ Admissible limit s
  pending_eq : answer.1.2 = none → answer.2.pending = unterminated s
  limit_eq : answer.2.limit = limit
  error_eq : ∀ error, answer.1.2 = some error →
    ∃ most length, limit = some most ∧ most < length ∧ error = .oversizedPacket most length

theorem delivers_nothing {limit : Option Nat} {s : Bytes} {assembler : Assembler}
    (hLines : lines s = []) (hFits : fits limit s) (hLimit : assembler.limit = limit)
    (hPending : assembler.pending = s) : Delivers limit s (([], none), assembler) where
  packets_eq := by rw [admitted, hLines, List.takeWhile_nil]
  failure_eq_none_iff := by simp [Admissible, hLines, unterminated_eq_self hLines, hFits]
  pending_eq := fun _ => by rw [hPending, unterminated_eq_self hLines]
  limit_eq := hLimit
  error_eq := fun _ h => nomatch h

theorem Delivers.cons {limit : Option Nat} {s packet : Bytes} {packets : List Entry}
    {failure : Option Error} {last : Assembler}
    (hRest : Delivers limit s ((packets, failure), last)) (hLine : IsLine packet)
    (hFits : fits limit packet) :
    Delivers limit (packet ++ s) ((packet :: packets, failure), last) where
  packets_eq := by
    rw [admitted, lines_line_append hLine, List.takeWhile_cons_of_pos hFits]
    exact congrArg (packet :: ·) hRest.packets_eq
  failure_eq_none_iff := by
    rw [hRest.failure_eq_none_iff, Admissible, Admissible, lines_line_append hLine,
      unterminated_line_append hLine, List.forall_mem_cons]
    simp [hFits]
  pending_eq := fun hFailure => by
    rw [unterminated_line_append hLine, ← hRest.pending_eq hFailure]
  limit_eq := hRest.limit_eq
  error_eq := hRest.error_eq

theorem delivers_drain (assembler : Assembler) :
    Delivers assembler.limit assembler.pending assembler.drain := by
  fun_induction drain assembler with
  | case1 assembler packet after hPoll packets failure last hDrain ih =>
    obtain ⟨hLine, hFits, hPending⟩ := of_poll_some hPoll
    have hLimit : after.limit = assembler.limit := by rw [← assembler.limit_poll, hPoll]
    rw [hDrain, hLimit] at ih
    rw [hPending]
    exact ih.cons hLine hFits
  | case2 assembler after hPoll =>
    obtain ⟨hLines, hFits, hPending⟩ := of_poll_none hPoll
    have hLimit : after.limit = assembler.limit := by rw [← assembler.limit_poll, hPoll]
    exact delivers_nothing hLines hFits hLimit hPending
  | case3 assembler error after hPoll =>
    obtain ⟨hAdmitted, hAdmissible, hError⟩ := of_poll_error hPoll
    have hLimit : after.limit = assembler.limit := by rw [← assembler.limit_poll, hPoll]
    exact
      { packets_eq := hAdmitted.symm
        failure_eq_none_iff := by simpa using hAdmissible
        pending_eq := fun h => nomatch h
        limit_eq := hLimit
        error_eq := fun _ hFound => Option.some.inj hFound ▸ hError }

theorem drain_eq (assembler : Assembler) :
    assembler.drain =
      match assembler.poll with
      | (.ok (some packet), after) =>
        let ((packets, failure), last) := after.drain
        ((packet :: packets, failure), last)
      | (.ok none, after) => (([], none), after)
      | (.error error, after) => (([], some error), after) := by
  conv => lhs; unfold drain
  split <;> rename_i hPoll <;> rw [hPoll]

/-- Everything a chunk completes is handed out, whatever the cuts inside it. -/
theorem feedAll_eq_drain {chunk : Bytes} (hChunk : chunk ≠ []) (assembler : Assembler) :
    assembler.feedAll chunk = { assembler with ahead := assembler.ahead ++ chunk }.drain := by
  have hFeed : assembler.feed chunk =
      { assembler with ahead := assembler.ahead ++ chunk }.poll := by
    rw [feed, if_neg hChunk, if_pos rfl]
  rw [drain_eq, ← hFeed]
  rfl

theorem delivers_feedAll {assembler : Assembler} (hLines : lines assembler.pending = [])
    (hFits : fits assembler.limit assembler.pending) (chunk : Bytes) :
    Delivers assembler.limit (assembler.pending ++ chunk) (assembler.feedAll chunk) := by
  by_cases hChunk : chunk = []
  · subst hChunk
    rw [List.append_nil, feedAll, feed, if_pos rfl]
    exact delivers_nothing hLines hFits rfl rfl
  · rw [feedAll_eq_drain hChunk]
    have hDrain := delivers_drain { assembler with ahead := assembler.ahead ++ chunk }
    rwa [pending, ← List.append_assoc] at hDrain

end PacketLog.Assembler
