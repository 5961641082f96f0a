import PacketLog.Proofs.Ring.Accounts

/-!
# In which entry a byte lies

The retained entries lie end to end, so entry number `index` begins at `startOf index`, the
sum of the lengths before it, and `LiesIn` says that a byte lies between its start and its
end.  Starts do not go down, so a byte lies in one entry only (`LiesIn.unique`), and empty
entries hold none.

The search counts ends as it goes and gives up at once when the offset is not below the
total.  It finds an entry exactly when the offset is below (`find_eq_none_iff`), and then
the one in which the byte lies (`find_eq_some_iff`).
-/

namespace PacketLog.Ring

variable {ring : Ring}

/-! ## Where entries begin -/

/-- The number of bytes before entry number `index`. -/
def startOf (ring : Ring) (index : Nat) : Nat := ((ring.entries.take index).map List.length).sum

theorem startOf_eq_length (ring : Ring) (index : Nat) :
    ring.startOf index = (ring.entries.take index).flatten.length := by
  rw [startOf, List.length_flatten]

theorem startOf_succ {index : Nat} {entry : Entry} (hEntry : ring.entries[index]? = some entry) :
    ring.startOf (index + 1) = ring.startOf index + entry.length := by
  simp [startOf, List.take_add_one, hEntry]

theorem startOf_mono {earlier later : Nat} (hLe : earlier ≤ later) :
    ring.startOf earlier ≤ ring.startOf later := by
  rw [startOf_eq_length, startOf_eq_length]
  exact (List.IsPrefix.flatten (List.take_prefix_take_left hLe)).length_le

theorem end_le_startOf {earlier later : Nat} {entry : Entry}
    (hEntry : ring.entries[earlier]? = some entry) (hLt : earlier < later) :
    ring.startOf earlier + entry.length ≤ ring.startOf later := by
  rw [← startOf_succ hEntry]
  exact startOf_mono hLt

/-- Entry number `index` is all that comes next at its start. -/
theorem drop_startOf {index : Nat} {entry : Entry} (hEntry : ring.entries[index]? = some entry) :
    ring.contents.drop (ring.startOf index) =
      entry ++ (ring.entries.drop (index + 1)).flatten := by
  obtain ⟨hIndex, rfl⟩ := List.getElem?_eq_some_iff.mp hEntry
  have hContents : ring.contents =
      (ring.entries.take index).flatten ++ (ring.entries.drop index).flatten := by
    rw [← List.flatten_append, List.take_append_drop, contents]
  rw [hContents, startOf_eq_length, List.drop_left, List.drop_eq_getElem_cons hIndex,
    List.flatten_cons]

theorem startOf_add_length_le {index : Nat} {entry : Entry}
    (hEntry : ring.entries[index]? = some entry) :
    ring.startOf index + entry.length ≤ ring.contents.length := by
  rw [← startOf_succ hEntry, startOf_eq_length, contents]
  exact (List.IsPrefix.flatten (List.take_prefix _ _)).length_le

/-- The byte at `offset` lies in entry number `index`, which is `entry`. -/
structure LiesIn (ring : Ring) (offset index : Nat) (entry : Entry) : Prop where
  entry_eq : ring.entries[index]? = some entry
  startOf_le : ring.startOf index ≤ offset
  lt_end : offset < ring.startOf index + entry.length

namespace LiesIn

variable {offset index : Nat} {entry : Entry}

theorem lt_length (hLies : ring.LiesIn offset index entry) : offset < ring.contents.length :=
  hLies.lt_end.trans_le (startOf_add_length_le hLies.entry_eq)

theorem unique {other : Nat} {found : Entry} (hLies : ring.LiesIn offset index entry)
    (hOther : ring.LiesIn offset other found) : other = index := by
  by_contra hNe
  rcases Nat.lt_or_gt_of_ne hNe with hLt | hGt
  · have hApart := end_le_startOf hOther.entry_eq hLt
    have hEnd := hOther.lt_end
    have hStart := hLies.startOf_le
    omega
  · have hApart := end_le_startOf hLies.entry_eq hGt
    have hEnd := hLies.lt_end
    have hStart := hOther.startOf_le
    omega

/-- Behind the end of an entry lies the start of one, not the middle. -/
theorem startOf_eq {start : Nat} (hLies : ring.LiesIn (ring.startOf start) index entry) :
    ring.startOf index = ring.startOf start := by
  have hLe : start ≤ index := by
    by_contra hLt
    have hApart := end_le_startOf hLies.entry_eq (Nat.lt_of_not_le hLt)
    have hEnd := hLies.lt_end
    omega
  exact Nat.le_antisymm hLies.startOf_le (ring.startOf_mono hLe)

/-- What comes next at a byte is the rest of its entry, and the entries after it. -/
theorem drop_eq (hLies : ring.LiesIn offset index entry) :
    ring.contents.drop offset =
      entry.drop (offset - ring.startOf index) ++ (ring.entries.drop (index + 1)).flatten := by
  have hStart := hLies.startOf_le
  have hEnd := hLies.lt_end
  rw [← Nat.add_sub_cancel' hStart, ← List.drop_drop, drop_startOf hLies.entry_eq,
    List.drop_append_of_le_length (by omega), Nat.add_sub_cancel_left]

theorem length_chunk (hLies : ring.LiesIn offset index entry) (count : Nat) :
    ((entry.drop (offset - ring.startOf index)).take count).length =
      min count (ring.startOf index + entry.length - offset) := by
  have hStart := hLies.startOf_le
  rw [List.length_take, List.length_drop]
  omega

theorem byte_eq (hLies : ring.LiesIn offset index entry) :
    ∃ byte, entry[offset - ring.startOf index]? = some byte ∧
      ring.contents[offset]? = some byte := by
  have hStart := hLies.startOf_le
  have hEnd := hLies.lt_end
  have hInside : offset - ring.startOf index < entry.length := by omega
  refine ⟨entry[offset - ring.startOf index], List.getElem?_eq_getElem hInside, ?_⟩
  have hNext : (ring.contents.drop offset)[0]? = some entry[offset - ring.startOf index] := by
    rw [hLies.drop_eq, List.getElem?_append_left (by rw [List.length_drop]; omega),
      List.getElem?_drop, Nat.add_zero, List.getElem?_eq_getElem hInside]
  rwa [List.getElem?_drop, Nat.add_zero] at hNext

end LiesIn

/-! ## The search -/

/-- The search finds an entry that reaches past `offset`, after all that end before it. -/
theorem exists_of_locate {index start offset : Nat} {entries : List Entry} {located : Located}
    (hStart : start ≤ offset) (hLocate : locate index start offset entries = some located) :
    ∃ earlier later, entries = earlier ++ located.entry :: later ∧
      located.index = index + earlier.length ∧
      offset = start + earlier.flatten.length + located.offset ∧
      located.offset < located.entry.length := by
  induction entries generalizing index start with
  | nil => cases hLocate
  | cons entry rest ih =>
    rw [locate] at hLocate
    split at hLocate
    · cases hLocate
      refine ⟨[], rest, rfl, rfl, ?_, ?_⟩
      · show offset = start + 0 + (offset - start)
        omega
      · show offset - start < entry.length
        omega
    · obtain ⟨earlier, later, rfl, hIndex, hOffset, hInside⟩ := ih (by omega) hLocate
      refine ⟨entry :: earlier, later, rfl, ?_, ?_, hInside⟩
      · rw [hIndex, List.length_cons]
        omega
      · rw [List.flatten_cons, List.length_append]
        omega

/-- The search fails only past the last byte. -/
theorem length_le_of_locate {index start offset : Nat} {entries : List Entry}
    (hStart : start ≤ offset) (hLocate : locate index start offset entries = none) :
    start + entries.flatten.length ≤ offset := by
  induction entries generalizing index start with
  | nil => exact hStart
  | cons entry rest ih =>
    rw [locate] at hLocate
    split at hLocate
    · cases hLocate
    · have hRest := ih (by omega) hLocate
      rw [List.flatten_cons, List.length_append]
      omega

theorem liesIn_of_find {offset : Nat} {located : Located}
    (hFind : ring.find offset = some located) :
    ring.LiesIn offset located.index located.entry ∧
      located.offset = offset - ring.startOf located.index := by
  rw [find] at hFind
  split at hFind
  · cases hFind
  · obtain ⟨earlier, later, hEntries, hIndex, hOffset, hInside⟩ :=
      exists_of_locate (Nat.zero_le _) hFind
    rw [Nat.zero_add] at hIndex hOffset
    have hStart : ring.startOf located.index = earlier.flatten.length := by
      rw [startOf_eq_length, hEntries, hIndex, List.take_left]
    refine ⟨⟨?_, by omega, by omega⟩, by omega⟩
    rw [hEntries, hIndex, List.getElem?_append_right (Nat.le_refl _), Nat.sub_self,
      List.getElem?_cons_zero]

theorem find_eq_none_iff (hTotal : ring.totalBytes = ring.contents.length) {offset : Nat} :
    ring.find offset = none ↔ ring.totalBytes ≤ offset := by
  rw [find]
  split
  · next hPast => simp [hPast]
  · next hInside =>
    refine ⟨fun hNone => ?_, fun hPast => absurd hPast hInside⟩
    have hLength := length_le_of_locate (Nat.zero_le _) hNone
    rwa [Nat.zero_add, ← contents, ← hTotal] at hLength

/-- Wherever a byte lies, there it is found. -/
theorem find_eq_some_iff (hTotal : ring.totalBytes = ring.contents.length) {offset : Nat}
    {located : Located} :
    ring.find offset = some located ↔
      ring.LiesIn offset located.index located.entry ∧
        located.offset = offset - ring.startOf located.index := by
  refine ⟨liesIn_of_find, fun ⟨hLies, hOffset⟩ => ?_⟩
  cases hFind : ring.find offset with
  | none =>
    have hPast := (find_eq_none_iff hTotal).mp hFind
    have hLt := hLies.lt_length
    omega
  | some found =>
    obtain ⟨hFound, hInside⟩ := liesIn_of_find hFind
    have hIndex := hLies.unique hFound
    have hEntry := hFound.entry_eq
    rw [hIndex, hLies.entry_eq] at hEntry
    rw [hIndex, ← hOffset] at hInside
    obtain ⟨index, entry, inside⟩ := located
    obtain ⟨_, _, _⟩ := found
    simp only [Option.some.injEq] at hEntry hIndex hInside ⊢
    rw [hIndex, hEntry, hInside]

/-- **A byte is found in the entry in which it lies.**  After any appends, evictions and drains,
empty entries among them, an offset is found just when it is below the total.  What is found is
the entry of that number, the only one that begins at or before the offset and ends after it; the
offset within it is what is left of the offset at its start, and the byte there is the byte of the
contents at the offset. -/
theorem find_of_reached (hReached : ring.Reached) (offset : Nat) :
    ((ring.find offset).isSome ↔ offset < ring.totalBytes) ∧
    ∀ located, ring.find offset = some located →
      ring.entries[located.index]? = some located.entry ∧
      ring.startOf located.index ≤ offset ∧
      offset < ring.startOf located.index + located.entry.length ∧
      (∀ index entry, ring.entries[index]? = some entry → ring.startOf index ≤ offset →
        offset < ring.startOf index + entry.length → index = located.index) ∧
      located.offset = offset - ring.startOf located.index ∧
      ∃ byte, located.entry[located.offset]? = some byte ∧ ring.contents[offset]? = some byte := by
  refine ⟨?_, fun located hFind => ?_⟩
  · rw [← Option.ne_none_iff_isSome, ne_eq, find_eq_none_iff hReached.totalBytes_eq, Nat.not_le]
  · obtain ⟨hLies, hOffset⟩ := liesIn_of_find hFind
    refine ⟨hLies.entry_eq, hLies.startOf_le, hLies.lt_end, ?_, hOffset, ?_⟩
    · intro index entry hEntry hStart hEnd
      exact hLies.unique ⟨hEntry, hStart, hEnd⟩
    · rw [hOffset]
      exact hLies.byte_eq

/-- The byte lies behind an entry that has none, in a ring that was drained and has evicted. -/
theorem find_of_reached_behind_empty_entry :
    let acts : List RingAct :=
      [.append [120], .drain, .append [97], .append [98, 99], .append [], .append [100, 101]]
    let ring := (({ capacity := 3 } : Ring).run acts).2
    ring.Reached ∧ ring.entries = [[98, 99], [], [100, 101]] ∧ 3 < ring.totalBytes ∧
      ring.find 2 = some ⟨2, [100, 101], 0⟩ ∧ ring.find 3 = some ⟨2, [100, 101], 1⟩ ∧
      ring.contents[3]? = some 101 ∧ ¬ (ring.find 4).isSome := by
  intro acts ring
  have hReached : ring.Reached := .run (.create (by decide)) acts
  have hTotal : ring.totalBytes = 4 := by decide
  have hFind : ring.find 3 = some ⟨2, [100, 101], 1⟩ := by decide
  obtain ⟨-, hAt⟩ := find_of_reached hReached 3
  obtain ⟨hEntry, hStart, hEnd, hUnique, hInside, byte, hByte, hContents⟩ := hAt _ hFind
  obtain ⟨hPast, -⟩ := find_of_reached hReached 4
  cases hByte
  refine ⟨hReached, by decide, by omega, by decide, hFind, hContents, fun hFound => ?_⟩
  have hLt := hPast.mp hFound
  omega

end PacketLog.Ring
