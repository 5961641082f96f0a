import PacketLog.Proofs.Assembler.Search

/-!
# Chunks of a stream

A stream comes in chunks, and the cuts are not up to the reader.  `feedChunks` feeds
one chunk after another, and hands out every packet that is complete before it takes
the next.  `delivers_feedChunks` says that it delivers what the whole stream does:
the cuts decide neither the packets nor whether there is an error, only how much of
a packet that is too long has been seen when the error comes.
-/

namespace PacketLog.Assembler

open Bytes

/-- Feeds chunks in order, polling after each until nothing more is complete, up to the first
error. -/
def feedChunks (assembler : Assembler) :
    List Bytes → (List Entry × Option Error) × Assembler
  | [] => (([], none), assembler)
  | chunk :: later =>
    match assembler.feedAll chunk with
    | ((packets, some error), after) => ((packets, some error), after)
    | ((packets, none), after) =>
      let ((more, failure), last) := after.feedChunks later
      ((packets ++ more, failure), last)

theorem not_admissible_append {limit : Option Nat} {s : Bytes} (hBad : ¬ Admissible limit s)
    (t : Bytes) : ¬ Admissible limit (s ++ t) := by
  rintro ⟨hLines, hRest⟩
  refine hBad ⟨fun line hLine => hLines line ((lines_prefix_append s t).subset hLine), ?_⟩
  cases hMore : lines (unterminated s ++ t) with
  | nil =>
    rw [unterminated_append, unterminated_eq_self hMore] at hRest
    exact fits_of_isPrefix (List.prefix_append _ _) hRest
  | cons line later =>
    refine fits_of_isPrefix (unterminated_prefix_of_lines_eq_cons hMore) (hLines line ?_)
    rw [lines_append, hMore]
    exact List.mem_append_right _ List.mem_cons_self

theorem admitted_append {limit : Option Nat} {s : Bytes} (hBad : ¬ Admissible limit s)
    (t : Bytes) : admitted limit (s ++ t) = admitted limit s := by
  rw [admitted, admitted, lines_append, List.takeWhile_append]
  split
  · rename_i hLength
    have hWhole := (List.takeWhile_prefix (fits limit)).eq_of_length hLength
    have hRest : ¬ fits limit (unterminated s) := fun h =>
      hBad ⟨List.takeWhile_eq_self_iff.mp hWhole, h⟩
    cases hMore : lines (unterminated s ++ t) with
    | nil => rw [List.takeWhile_nil, List.append_nil, hWhole]
    | cons line later =>
      have hLine : ¬ fits limit line := fun h =>
        hRest (fits_of_isPrefix (unterminated_prefix_of_lines_eq_cons hMore) h)
      rw [List.takeWhile_cons_of_neg hLine, List.append_nil, hWhole]
  · rfl

/-- What a chunk delivered and what the rest of the stream delivers make up what the whole stream
does. -/
theorem Delivers.append {limit : Option Nat} {s t : Bytes} {packets more : List Entry}
    {failure : Option Error} {after last : Assembler}
    (hFirst : Delivers limit s ((packets, none), after))
    (hRest : Delivers limit (after.pending ++ t) ((more, failure), last)) :
    Delivers limit (s ++ t) ((packets ++ more, failure), last) := by
  have hPending : after.pending = unterminated s := hFirst.pending_eq rfl
  have hAdmissible : Admissible limit s := hFirst.failure_eq_none_iff.mp rfl
  have hPackets : packets = lines s := hFirst.packets_eq.trans (admitted_eq_lines hAdmissible)
  rw [hPending] at hRest
  exact
    { packets_eq := by
        rw [admitted, lines_append, List.takeWhile_append_of_pos hAdmissible.1, hPackets]
        exact congrArg (lines s ++ ·) hRest.packets_eq
      failure_eq_none_iff := by
        rw [hRest.failure_eq_none_iff, Admissible, Admissible, lines_append s,
          unterminated_append s, List.forall_mem_append]
        exact ⟨fun h => ⟨⟨hAdmissible.1, h.1⟩, h.2⟩, fun h => ⟨h.1.2, h.2⟩⟩
      pending_eq := fun hFailure => by rw [unterminated_append, ← hRest.pending_eq hFailure]
      limit_eq := hRest.limit_eq
      error_eq := hRest.error_eq }

theorem delivers_feedChunks (assembler : Assembler) (hLines : lines assembler.pending = [])
    (hFits : fits assembler.limit assembler.pending) (chunks : List Bytes) :
    Delivers assembler.limit (assembler.pending ++ chunks.flatten)
      (assembler.feedChunks chunks) := by
  induction chunks generalizing assembler with
  | nil =>
    rw [List.flatten_nil, List.append_nil, feedChunks]
    exact delivers_nothing hLines hFits rfl rfl
  | cons chunk later ih =>
    have hChunk := delivers_feedAll hLines hFits chunk
    rw [List.flatten_cons, ← List.append_assoc, feedChunks]
    rcases hFeed : assembler.feedAll chunk with ⟨⟨packets, _ | error⟩, after⟩
    · rw [hFeed] at hChunk
      have hAdmissible := hChunk.failure_eq_none_iff.mp rfl
      have hLimit : after.limit = assembler.limit := hChunk.limit_eq
      have hPending : after.pending = unterminated _ := hChunk.pending_eq rfl
      have hLater := ih after (hPending ▸ lines_unterminated _)
        (hPending ▸ hLimit ▸ hAdmissible.2)
      rw [hLimit] at hLater
      exact hChunk.append hLater
    · -- The later chunks are not fed, and could not have mended it.
      rw [hFeed] at hChunk
      have hBad := mt hChunk.failure_eq_none_iff.mpr nofun
      exact
        { packets_eq := hChunk.packets_eq.trans (admitted_append hBad _).symm
          failure_eq_none_iff := ⟨nofun, fun h => absurd h (not_admissible_append hBad _)⟩
          pending_eq := nofun
          limit_eq := hChunk.limit_eq
          error_eq := hChunk.error_eq }

/-- **The cuts of a stream do not matter.**  Up to the first error, the chunks of a stream give its
lines.  There is an error exactly if a line or the rest is too long, and without one the rest stays
pending.  Other chunks of the same stream give the same packets, and an error just as well. -/
theorem feedChunks_eq_lines (limit : Option Nat) (chunks : List Bytes) :
    let s := chunks.flatten
    let answer := feedChunks { limit := limit } chunks
    answer.1.1 = (lines s).takeWhile (fits limit) ∧
    ((∃ error, answer.1.2 = some error) ↔
      (∃ line ∈ lines s, ¬ fits limit line) ∨ ¬ fits limit (unterminated s)) ∧
    (∀ error, answer.1.2 = some error →
      ∃ most length, limit = some most ∧ most < length ∧ error = .oversizedPacket most length) ∧
    (answer.1.2 = none → answer.1.1 = lines s ∧ answer.2.pending = unterminated s) ∧
    ∀ other : List Bytes, other.flatten = s →
      (feedChunks { limit := limit } other).1.1 = answer.1.1 ∧
      ((feedChunks { limit := limit } other).1.2.isSome ↔ answer.1.2.isSome) := by
  have hFresh : fits limit [] := by cases limit <;> simp [fits]
  have hDelivers : ∀ cuts : List Bytes,
      Delivers limit cuts.flatten (feedChunks { limit := limit } cuts) :=
    delivers_feedChunks { limit := limit } rfl hFresh
  have hFailure : ∀ cuts : List Bytes, (feedChunks { limit := limit } cuts).1.2.isSome ↔
      ¬ Admissible limit cuts.flatten := fun cuts => by
    rw [← Option.ne_none_iff_isSome, ne_eq, (hDelivers cuts).failure_eq_none_iff]
  intro s answer
  have hAnswer : Delivers limit s answer := hDelivers chunks
  refine ⟨hAnswer.packets_eq, ?_, hAnswer.error_eq, fun hNone => ⟨?_, hAnswer.pending_eq hNone⟩,
    fun other hOther => ⟨?_, ?_⟩⟩
  · rw [← Option.isSome_iff_exists, hFailure chunks, Admissible, not_and_or]
    simp only [not_forall, exists_prop]
    exact Iff.rfl
  · exact hAnswer.packets_eq.trans (admitted_eq_lines (hAnswer.failure_eq_none_iff.mp hNone))
  · rw [(hDelivers other).packets_eq, hOther, hAnswer.packets_eq]
  · rw [hFailure other, hOther, hFailure chunks]

end PacketLog.Assembler
