import PacketLog.Bytes

/-!
# Lines of longer streams

What `Bytes.lines` and `Bytes.unterminated` make of a stream laid end to end with
another.  `lines_append` says that only the unterminated rest of the first takes
part in what follows, and `lines_flatten_append_of_isLine` that lines laid end to
end are read back one by one.
-/

namespace PacketLog.Bytes

/-- A newline at the end, and no other. -/
def IsLine (line : Bytes) : Prop := ∃ text, newline ∉ text ∧ line = text ++ [newline]

/-- Bytes without a newline go before the first line, or before the rest if there is no line. -/
theorem split_append_of_newline_not_mem {text : Bytes} (hText : newline ∉ text) (s : Bytes) :
    split (text ++ s) =
      match split s with
      | ([], rest) => ([], text ++ rest)
      | (line :: later, rest) => ((text ++ line) :: later, rest) := by
  induction text with
  | nil => rcases hSplit : split s with ⟨_ | ⟨line, later⟩, rest⟩ <;> simp [hSplit]
  | cons b text ih =>
    have hByte : b ≠ newline := fun h => hText (h ▸ List.mem_cons_self)
    rw [List.cons_append, split_cons, ih fun h => hText (List.mem_cons_of_mem b h)]
    rcases split s with ⟨_ | ⟨line, later⟩, rest⟩ <;> simp [prepend, hByte]

theorem split_line_append {line : Bytes} (hLine : IsLine line) (s : Bytes) :
    split (line ++ s) = (line :: lines s, unterminated s) := by
  obtain ⟨text, hText, rfl⟩ := hLine
  rw [List.append_assoc, split_append_of_newline_not_mem hText, List.singleton_append, split_cons,
    lines, unterminated]
  rcases split s with ⟨_ | ⟨line, later⟩, rest⟩ <;> simp [prepend]

theorem lines_line_append {line : Bytes} (hLine : IsLine line) (s : Bytes) :
    lines (line ++ s) = line :: lines s := by
  rw [lines, split_line_append hLine]

theorem unterminated_line_append {line : Bytes} (hLine : IsLine line) (s : Bytes) :
    unterminated (line ++ s) = unterminated s := by
  rw [unterminated, split_line_append hLine]

/-- Lines laid end to end are read back one by one. -/
theorem lines_flatten_append_of_isLine {packets : List Bytes}
    (hPackets : ∀ packet ∈ packets, IsLine packet) (s : Bytes) :
    lines (packets.flatten ++ s) = packets ++ lines s := by
  induction packets with
  | nil => rfl
  | cons packet packets ih =>
    obtain ⟨hPacket, hRest⟩ := List.forall_mem_cons.mp hPackets
    rw [List.flatten_cons, List.append_assoc, lines_line_append hPacket, ih hRest, List.cons_append]

theorem unterminated_flatten_append_of_isLine {packets : List Bytes}
    (hPackets : ∀ packet ∈ packets, IsLine packet) (s : Bytes) :
    unterminated (packets.flatten ++ s) = unterminated s := by
  induction packets with
  | nil => rfl
  | cons packet packets ih =>
    obtain ⟨hPacket, hRest⟩ := List.forall_mem_cons.mp hPackets
    rw [List.flatten_cons, List.append_assoc, unterminated_line_append hPacket, ih hRest]

theorem isLine_of_mem_fst_prepend {b : UInt8} {parts : List Bytes × Bytes}
    (hParts : ∀ line ∈ parts.1, IsLine line) : ∀ line ∈ (prepend b parts).1, IsLine line := by
  have hNewline : IsLine [newline] := ⟨[], List.not_mem_nil, rfl⟩
  obtain ⟨_ | ⟨first, later⟩, rest⟩ := parts <;> by_cases hByte : b = newline
  · simpa [prepend, hByte] using hNewline
  · simp [prepend, hByte]
  · simpa [prepend, hByte, hNewline] using hParts
  · obtain ⟨hFirst, hLater⟩ := List.forall_mem_cons.mp hParts
    obtain ⟨text, hText, rfl⟩ := hFirst
    have hLonger : IsLine (b :: (text ++ [newline])) := by
      refine ⟨b :: text, ?_, rfl⟩
      rw [List.mem_cons, not_or]
      exact ⟨Ne.symm hByte, hText⟩
    simpa [prepend, hByte, hLonger] using hLater

theorem isLine_of_mem_lines {s line : Bytes} (hMem : line ∈ lines s) : IsLine line := by
  induction s generalizing line with
  | nil => cases hMem
  | cons b s ih => exact isLine_of_mem_fst_prepend (fun _ => ih) line hMem

/-- Only what follows the last newline takes part in the lines to come. -/
theorem lines_append (s t : Bytes) : lines (s ++ t) = lines s ++ lines (unterminated s ++ t) := by
  conv => lhs; rw [← lines_flatten_append s, List.append_assoc]
  exact lines_flatten_append_of_isLine (fun _ => isLine_of_mem_lines) _

theorem unterminated_append (s t : Bytes) :
    unterminated (s ++ t) = unterminated (unterminated s ++ t) := by
  conv => lhs; rw [← lines_flatten_append s, List.append_assoc]
  exact unterminated_flatten_append_of_isLine (fun _ => isLine_of_mem_lines) _

theorem lines_prefix_append (s t : Bytes) : lines s <+: lines (s ++ t) :=
  ⟨_, (lines_append s t).symm⟩

theorem lines_unterminated (s : Bytes) : lines (unterminated s) = [] :=
  (lines_eq_nil_iff _).mpr (newline_not_mem_unterminated s)

theorem unterminated_eq_self {s : Bytes} (hLines : lines s = []) : unterminated s = s := by
  have hWhole := lines_flatten_append s
  rwa [hLines, List.flatten_nil, List.nil_append] at hWhole

theorem unterminated_prefix_of_lines_eq_cons {s t line : Bytes} {later : List Bytes}
    (hLines : lines (unterminated s ++ t) = line :: later) : unterminated s <+: line := by
  rw [lines, split_append_of_newline_not_mem (newline_not_mem_unterminated s)] at hLines
  rcases hSplit : split t with ⟨_ | ⟨first, rest⟩, _⟩ <;> rw [hSplit] at hLines
  · cases hLines
  · obtain ⟨rfl, -⟩ := List.cons.inj hLines
    exact List.prefix_append _ _

end PacketLog.Bytes
