import PacketLog.Proofs.Ring.Offsets
import PacketLog.Ring.Cursor

/-!
# Reading a ring

A read begins where its offset lies and stays within that entry (`liesIn_of_readAt?`), so
what it brings is what the contents have there (`isPrefix_of_readAt?`).  It reckons the end
of the range asked for in words, and where that end is no word there is no answer, though
the entry ends long before (`readAt?_of_reached`, `readAt?_eq_none_of_last_word`).

`ReadsOn` is reading on and on, each time from where the last read ended, until nothing
comes.  A read that has an answer either takes `count` bytes from an entry that is longer,
or leads to the start of the next entry; from both places the next read has an answer as
well (`Answers.next`).  So reading on from a place with an answer comes to the end, and
gives all that is there (`readsOn_of_reached`).
-/

namespace PacketLog.Ring

variable {ring : Ring} {offset count : Nat} {chunk : Bytes}

/-! ## One read -/

theorem readAt?_of_past (hPast : ring.totalBytes ≤ offset) (count : Nat) :
    ring.readAt? offset count = some [] := by
  rw [readAt?, find, if_pos hPast]
  split <;> rfl

/-- A read that brings anything brings bytes of the entry in which it begins. -/
theorem liesIn_of_readAt? (hRead : ring.readAt? offset count = some chunk) (hChunk : chunk ≠ []) :
    ∃ index entry, ring.LiesIn offset index entry ∧
      chunk = (entry.drop (offset - ring.startOf index)).take count := by
  rw [readAt?] at hRead
  split at hRead
  · exact absurd (Option.some.inj hRead).symm hChunk
  · split at hRead
    · exact absurd (Option.some.inj hRead).symm hChunk
    · next located hFind =>
      obtain ⟨hLies, hOffset⟩ := liesIn_of_find hFind
      obtain ⟨_, -, rfl⟩ := Option.map_eq_some_iff.mp hRead
      exact ⟨located.index, located.entry, hLies, by rw [hOffset]⟩

/-- A read in an entry has an answer unless the end of the range asked for is no word. -/
theorem LiesIn.readAt?_eq (hTotal : ring.totalBytes = ring.contents.length) {index : Nat}
    {entry : Entry} (hLies : ring.LiesIn offset index entry) (hCount : count ≠ 0) :
    ring.readAt? offset count = (Word.add? (offset - ring.startOf index) count).map fun _ =>
      (entry.drop (offset - ring.startOf index)).take count := by
  have hFind : ring.find offset = some ⟨index, entry, offset - ring.startOf index⟩ :=
    (find_eq_some_iff hTotal).mpr ⟨hLies, rfl⟩
  rw [readAt?, if_neg hCount, hFind]

theorem isPrefix_of_readAt? (hRead : ring.readAt? offset count = some chunk) :
    chunk <+: ring.contents.drop offset := by
  by_cases hChunk : chunk = []
  · exact hChunk ▸ List.nil_prefix
  · obtain ⟨index, entry, hLies, rfl⟩ := liesIn_of_readAt? hRead hChunk
    rw [hLies.drop_eq]
    exact (List.take_prefix _ _).trans (List.prefix_append _ _)

/-- What a read brings lies in one retained entry, and begins at the offset. -/
theorem exists_of_readAt? (hRead : ring.readAt? offset count = some chunk) (hChunk : chunk ≠ []) :
    ∃ earlier entry later skipped, ring.entries = earlier ++ entry :: later ∧
      offset = earlier.flatten.length + skipped ∧ chunk = (entry.drop skipped).take count := by
  obtain ⟨index, entry, hLies, rfl⟩ := liesIn_of_readAt? hRead hChunk
  obtain ⟨hIndex, rfl⟩ := List.getElem?_eq_some_iff.mp hLies.entry_eq
  have hStart := hLies.startOf_le
  rw [startOf_eq_length] at hStart ⊢
  refine ⟨ring.entries.take index, _, ring.entries.drop (index + 1), _, ?_,
    (Nat.add_sub_cancel' hStart).symm, rfl⟩
  rw [← List.drop_eq_getElem_cons hIndex, List.take_append_drop]

/-- A read that brings nothing was asked for nothing or begins behind the last byte. -/
theorem length_le_of_readAt?_eq_nil (hTotal : ring.totalBytes = ring.contents.length)
    (hCount : count ≠ 0) (hRead : ring.readAt? offset count = some []) :
    ring.contents.length ≤ offset := by
  cases hFind : ring.find offset with
  | none => exact hTotal ▸ (find_eq_none_iff hTotal).mp hFind
  | some located =>
    obtain ⟨hLies, -⟩ := liesIn_of_find hFind
    rw [hLies.readAt?_eq hTotal hCount] at hRead
    obtain ⟨_, -, hNil⟩ := Option.map_eq_some_iff.mp hRead
    have hEnd := hLies.lt_end
    have hLength := hLies.length_chunk count
    rw [hNil, List.length_nil] at hLength
    omega

/-- **A read brings what is left of its entry, as far as it is asked for.**  After any appends,
evictions and drains, a read past the last byte brings nothing.  Below it a read asked for at most
`count` bytes brings just so many of the contents from the offset on, or as many as its entry has
left: unless the end of the range asked for, counted from the start of the entry, is no word, in
which case there is no answer.  The search makes no sum above the total. -/
theorem readAt?_of_reached (hReached : ring.Reached) (offset count : Nat) :
    (ring.totalBytes ≤ offset → ring.readAt? offset count = some []) ∧
    (offset < ring.totalBytes → ∃ located, ring.find offset = some located ∧
      (count = 0 ∨ located.offset + count < Word.bound → ∃ chunk,
        ring.readAt? offset count = some chunk ∧ chunk <+: ring.contents.drop offset ∧
        chunk.length = min count (located.entry.length - located.offset)) ∧
      (count ≠ 0 → Word.bound ≤ located.offset + count → ring.readAt? offset count = none)) ∧
    ∀ index entry, ring.entries[index]? = some entry →
      ring.startOf index + entry.length ≤ ring.totalBytes := by
  have hTotal := hReached.totalBytes_eq
  refine ⟨fun hPast => readAt?_of_past hPast count, fun hBelow => ?_, fun index entry hEntry => ?_⟩
  · obtain ⟨located, hFind⟩ := Option.ne_none_iff_exists'.mp
      (mt (find_eq_none_iff hTotal).mp (Nat.not_le.mpr hBelow))
    obtain ⟨hLies, hOffset⟩ := liesIn_of_find hFind
    refine ⟨located, hFind, fun hAnswers => ?_, fun hCount hNoWord => ?_⟩
    · by_cases hCount : count = 0
      · exact ⟨[], by rw [readAt?, if_pos hCount], List.nil_prefix, by simp [hCount]⟩
      · have hRead := hLies.readAt?_eq hTotal hCount
        rw [← hOffset, Word.add?_eq_some.mpr ⟨rfl, hAnswers.resolve_left hCount⟩,
          Option.map_some] at hRead
        exact ⟨_, hRead, isPrefix_of_readAt? hRead, by rw [List.length_take, List.length_drop]⟩
    · rw [hLies.readAt?_eq hTotal hCount, ← hOffset, Word.add?_eq_none.mpr hNoWord,
        Option.map_none]
  · rw [hTotal]
    exact startOf_add_length_le hEntry

/-- A read in the middle of the older of two entries is asked for more than that has left. -/
theorem readAt?_of_reached_of_two_entries :
    let ring := (({ capacity := 2 } : Ring).run [.append [97, 98, 99], .append [100]]).2
    ring.Reached ∧ 1 < ring.totalBytes ∧ ring.find 1 = some ⟨0, [97, 98, 99], 1⟩ ∧
      1 + 5 < Word.bound ∧ ring.readAt? 1 5 = some [98, 99] ∧
      ring.totalBytes ≤ 4 ∧ ring.readAt? 4 5 = some [] := by
  intro ring
  have hReached : ring.Reached := .run (.create (by decide)) _
  have hBelow : 1 < ring.totalBytes := by decide
  have hPast : ring.totalBytes ≤ 4 := by decide
  have hFind : ring.find 1 = some ⟨0, [97, 98, 99], 1⟩ := by decide
  have hWord : 1 + 5 < Word.bound := by decide
  obtain ⟨-, hInside, -⟩ := readAt?_of_reached hReached 1 5
  obtain ⟨located, hLocated, hAnswers, -⟩ := hInside hBelow
  obtain rfl := Option.some.inj (hFind.symm.trans hLocated)
  obtain ⟨chunk, hRead, hPrefix, hLength⟩ := hAnswers (Or.inr hWord)
  have hChunk := List.prefix_iff_eq_take.mp hPrefix
  rw [hLength] at hChunk
  rw [hChunk] at hRead
  obtain ⟨hNothing, -⟩ := readAt?_of_reached hReached 4 5
  exact ⟨hReached, hBelow, hFind, hWord, hRead, hPast, hNothing hPast⟩

/-- **A read can be left without an answer.**  There is a second byte, and a read asked for as much
as a word can say does not bring it. -/
theorem readAt?_eq_none_of_last_word :
    let ring := (({ capacity := 1 } : Ring).run [.append [97, 98]]).2
    ring.Reached ∧ 1 < ring.totalBytes ∧ Word.bound - 1 < Word.bound ∧
      ring.find 1 = some ⟨0, [97, 98], 1⟩ ∧ ring.readAt? 1 1 = some [98] ∧
      ring.readAt? 1 (Word.bound - 1) = none :=
  ⟨.run (.create (by decide)) _, by decide, by decide, by decide, by decide, by decide⟩

/-! ## Reading on and on -/

/-- Reading on from `offset`, at most `count` bytes at a time, gives `chunks` and then nothing. -/
inductive ReadsOn (ring : Ring) (count : Nat) : Nat → List Bytes → Prop
  | done {offset : Nat} (hRead : ring.readAt? offset count = some []) : ReadsOn ring count offset []
  | more {offset : Nat} {chunk : Bytes} {chunks : List Bytes}
      (hRead : ring.readAt? offset count = some chunk) (hChunk : chunk ≠ [])
      (hLater : ReadsOn ring count (offset + chunk.length) chunks) :
      ReadsOn ring count offset (chunk :: chunks)

namespace ReadsOn

variable {chunks : List Bytes}

theorem walk?_eq (hTotal : ring.totalBytes = ring.contents.length)
    (hReads : ring.ReadsOn count offset chunks) : ring.walk? offset count = some chunks := by
  induction hReads with
  | done hRead => rw [Ring.walk?_eq hTotal, hRead]; rfl
  | more hRead hChunk hLater ih =>
    rw [Ring.walk?_eq hTotal, hRead]
    simp [hChunk, ih]

theorem flatten_eq (hTotal : ring.totalBytes = ring.contents.length) (hCount : count ≠ 0)
    (hReads : ring.ReadsOn count offset chunks) : chunks.flatten = ring.contents.drop offset := by
  induction hReads with
  | done hRead =>
    exact (List.drop_eq_nil_of_le (length_le_of_readAt?_eq_nil hTotal hCount hRead)).symm
  | more hRead hChunk hLater ih =>
    obtain ⟨rest, hRest⟩ := isPrefix_of_readAt? hRead
    rw [List.flatten_cons, ih, ← List.drop_drop, ← hRest, List.drop_left]

theorem within (hReads : ring.ReadsOn count offset chunks) {before after : List Bytes}
    (hChunks : chunks = before ++ chunk :: after) :
    ∃ index entry, ring.LiesIn (offset + before.flatten.length) index entry ∧
      offset + before.flatten.length + chunk.length ≤ ring.startOf index + entry.length := by
  induction hReads generalizing before with
  | done hRead => cases before <;> cases hChunks
  | @more offset first chunks hRead hFirst hLater ih =>
    cases before with
    | nil =>
      obtain ⟨rfl, rfl⟩ := List.cons.inj hChunks
      obtain ⟨index, entry, hLies, rfl⟩ := liesIn_of_readAt? hRead hFirst
      have hEnd := hLies.lt_end
      refine ⟨index, entry, by simpa using hLies, ?_⟩
      rw [hLies.length_chunk, List.flatten_nil, List.length_nil]
      omega
    | cons other before =>
      obtain ⟨rfl, hRest⟩ := List.cons.inj hChunks
      obtain ⟨index, entry, hLies, hLe⟩ := ih hRest
      rw [List.flatten_cons, List.length_append, ← Nat.add_assoc]
      exact ⟨index, entry, hLies, hLe⟩

end ReadsOn

/-- A read at `offset` has an answer: if it begins in an entry, the end of its range is a word. -/
def Answers (ring : Ring) (count offset : Nat) : Prop :=
  ∀ located, ring.find offset = some located → located.offset + count < Word.bound

theorem answers_startOf (hWord : count < Word.bound) (start : Nat) :
    ring.Answers count (ring.startOf start) := by
  intro located hFind
  obtain ⟨hLies, hOffset⟩ := liesIn_of_find hFind
  rw [hOffset, hLies.startOf_eq, Nat.sub_self, Nat.zero_add]
  exact hWord

theorem Answers.next (hMemory : ∀ entry ∈ ring.entries, entry.length ≤ addressableBytes)
    (hWord : count < Word.bound) (hRead : ring.readAt? offset count = some chunk)
    (hChunk : chunk ≠ []) :
    ring.Answers count (offset + chunk.length) := by
  obtain ⟨index, entry, hLies, rfl⟩ := liesIn_of_readAt? hRead hChunk
  have hStart := hLies.startOf_le
  have hEnd := hLies.lt_end
  rw [hLies.length_chunk]
  by_cases hInside : offset + count < ring.startOf index + entry.length
  · -- The entry is longer than `count`, so twice its length bounds the sum.
    intro located hFind
    obtain ⟨hFound, hOffset⟩ := liesIn_of_find hFind
    have hHere : ring.LiesIn
        (offset + min count (ring.startOf index + entry.length - offset)) index entry :=
      ⟨hLies.entry_eq, by omega, by omega⟩
    rw [hHere.unique hFound] at hOffset
    have hLe := hMemory entry (List.mem_of_getElem? hLies.entry_eq)
    simp only [addressableBytes, Word.signedBound, Word.bound] at hLe ⊢
    omega
  · -- The rest of the entry was taken, and the next one begins here.
    have hNext : offset + min count (ring.startOf index + entry.length - offset) =
        ring.startOf (index + 1) := by
      rw [startOf_succ hLies.entry_eq]
      omega
    rw [hNext]
    exact answers_startOf hWord (index + 1)

/-- From a place with an answer reading on comes to the end. -/
theorem exists_readsOn (hTotal : ring.totalBytes = ring.contents.length)
    (hMemory : ∀ entry ∈ ring.entries, entry.length ≤ addressableBytes) (hPos : 0 < count)
    (hWord : count < Word.bound) (offset : Nat) (hAnswers : ring.Answers count offset) :
    ∃ chunks, ring.ReadsOn count offset chunks := by
  induction hLeft : ring.contents.length - offset using Nat.strongRecOn generalizing offset with
  | ind left ih =>
    cases hFind : ring.find offset with
    | none => exact ⟨[], .done (readAt?_of_past ((find_eq_none_iff hTotal).mp hFind) count)⟩
    | some located =>
      obtain ⟨hLies, hOffset⟩ := liesIn_of_find hFind
      have hSum := hAnswers located hFind
      have hRead := hLies.readAt?_eq hTotal (Nat.ne_of_gt hPos)
      rw [← hOffset, Word.add?_eq_some.mpr ⟨rfl, hSum⟩, Option.map_some, hOffset] at hRead
      have hEnd := hLies.lt_end
      have hBelow := hLies.lt_length
      have hLength := hLies.length_chunk count
      have hChunk := List.length_pos_iff.mp (hLength.symm ▸ lt_min hPos (by omega))
      obtain ⟨chunks, hLater⟩ := ih _ (by omega) _ (.next hMemory hWord hRead hChunk) rfl
      exact ⟨_, .more hRead hChunk hLater⟩

/-- **Reading on and on gives all there is.**  After any appends, evictions and drains, and for
every `count` from one to the last word, reading on from the start comes to an end, each of its
reads has an answer, and the chunks laid end to end are the contents; each chunk lies within one
entry.  The same is true of reading on from any offset at which the read has an answer, and gives
the contents from there on.  Entries lie in memory, so none is longer than can be addressed. -/
theorem readsOn_of_reached (hReached : ring.Reached)
    (hMemory : ∀ entry ∈ ring.entries, entry.length ≤ addressableBytes) (hPos : 0 < count)
    (hWord : count < Word.bound) :
    (∃ chunks, ring.ReadsOn count 0 chunks ∧ chunks.flatten = ring.contents) ∧
    (∀ offset, (∀ located, ring.find offset = some located →
        located.offset + count < Word.bound) →
      ∃ chunks, ring.ReadsOn count offset chunks ∧ chunks.flatten = ring.contents.drop offset) ∧
    ∀ offset chunks, ring.ReadsOn count offset chunks →
      ring.walk? offset count = some chunks ∧
      ∀ before chunk after, chunks = before ++ chunk :: after → ∃ index entry,
        ring.LiesIn (offset + before.flatten.length) index entry ∧
        offset + before.flatten.length + chunk.length ≤ ring.startOf index + entry.length := by
  have hTotal := hReached.totalBytes_eq
  have hAll : ∀ offset, ring.Answers count offset → ∃ chunks, ring.ReadsOn count offset chunks ∧
      chunks.flatten = ring.contents.drop offset := fun offset hAnswers => by
    obtain ⟨chunks, hReads⟩ := exists_readsOn hTotal hMemory hPos hWord offset hAnswers
    exact ⟨chunks, hReads, hReads.flatten_eq hTotal (Nat.ne_of_gt hPos)⟩
  exact ⟨hAll 0 (answers_startOf hWord 0), hAll, fun offset chunks hReads =>
    ⟨hReads.walk?_eq hTotal, fun before chunk after hChunks => hReads.within hChunks⟩⟩

/-- As much as a word can say is asked for at every read, and the empty entry does not end it. -/
theorem readsOn_of_reached_of_last_word :
    let acts : List RingAct := [.append [97, 98], .append [], .append [99, 100, 101]]
    let ring := (({ capacity := 3 } : Ring).run acts).2
    let most := Word.bound - 1
    ring.Reached ∧ (∀ entry ∈ ring.entries, entry.length ≤ addressableBytes) ∧ 0 < most ∧
      most < Word.bound ∧ ring.find 2 = some ⟨2, [99, 100, 101], 0⟩ ∧ 0 + most < Word.bound ∧
      (∃ chunks, ring.walk? 0 most = some chunks ∧ chunks.flatten = [97, 98, 99, 100, 101]) ∧
      ∃ chunks, ring.ReadsOn most 2 chunks ∧ chunks.flatten = [99, 100, 101] := by
  intro acts ring most
  have hReached : ring.Reached := .run (.create (by decide)) acts
  have hMemory : ∀ entry ∈ ring.entries, entry.length ≤ addressableBytes := by decide
  have hPos : 0 < most := by decide
  have hWord : most < Word.bound := by decide
  have hFind : ring.find 2 = some ⟨2, [99, 100, 101], 0⟩ := by decide
  have hSum : 0 + most < Word.bound := by decide
  obtain ⟨⟨chunks, hReads, hAll⟩, hFrom, hWalk⟩ :=
    readsOn_of_reached hReached hMemory hPos hWord
  have hLater := hFrom 2 fun located hLocated => by
    obtain rfl := Option.some.inj (hFind.symm.trans hLocated)
    exact hSum
  exact ⟨hReached, hMemory, hPos, hWord, hFind, hSum, ⟨chunks, (hWalk 0 chunks hReads).1, hAll⟩,
    hLater⟩

end PacketLog.Ring
