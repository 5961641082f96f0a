import PacketLog.Proofs.Assembler.Calls

/-!
# What is handed out after a refusal

A packet that is too long is refused, and everything buffered goes with it.  What is
fed next is taken for the beginning of a packet, whether or not the line that lost its
first bytes has ended: the assembler does not remember that it cut one.

`cuts` are the streams fed up to the calls that cleared the buffer.  `handedOut_after_cuts`
says where in all that was ever fed a packet begins: at the start, behind a newline or
at a cut.  So packets are whole lines of the stream, in order and each once, as long
as every cut is made at the end of a line.  A cut in the middle of one leaves its rest
to be handed out as a packet (`handedOut_rest_of_line`).
-/

namespace PacketLog

open scoped List
open Bytes AssemblerCall AssemblerEntry

namespace Bytes

theorem unterminated_append_line (s : Bytes) {line : Bytes} (hLine : IsLine line) :
    unterminated (s ++ line) = [] := by
  obtain ⟨text, hText, rfl⟩ := hLine
  have hWhole : IsLine (unterminated s ++ (text ++ [newline])) := by
    refine ⟨unterminated s ++ text, ?_, (List.append_assoc _ _ _).symm⟩
    rw [List.mem_append, not_or]
    exact ⟨newline_not_mem_unterminated s, hText⟩
  have hRest := unterminated_line_append hWhole []
  rw [List.append_nil] at hRest
  rw [unterminated_append]
  exact hRest

end Bytes

namespace Assembler

/-- What had been fed when a call cleared the buffer, for each such call; `s` was fed before. -/
def cuts (s : Bytes) : List AssemblerEntry → List Bytes
  | [] => []
  | entry :: later =>
    let s := s ++ entry.call.fed
    if entry.clears then s :: cuts s later else cuts s later

/-- The stream fed so far: what was fed up to the last cut, the packets handed out since then and
what is pending. -/
structure Standing (s cut : Bytes) (since : List Entry) (assembler : Assembler) : Prop where
  stream_eq : s = cut ++ since.flatten ++ assembler.pending
  isLine_of_mem : ∀ packet ∈ since, IsLine packet

variable {s cut : Bytes} {since : List Entry} {assembler : Assembler}

theorem standing_fresh (limit : Option Nat) : Standing [] [] [] { limit := limit } where
  stream_eq := rfl
  isLine_of_mem := fun _ hMem => absurd hMem List.not_mem_nil

/-! ## One call -/

theorem standing_of_clears (s : Bytes) {call : AssemblerCall}
    (hCleared : AssemblerEntry.clears ⟨call, (assembler.perform call).1⟩ = true) :
    Standing (s ++ call.fed) (s ++ call.fed) [] (assembler.perform call).2 := by
  obtain ⟨hPending, -⟩ := (assembler.accounts_perform call).cleared hCleared
  refine ⟨?_, fun _ hMem => absurd hMem List.not_mem_nil⟩
  rw [hPending, List.flatten_nil, List.append_nil, List.append_nil]

namespace Standing

theorem cut_isPrefix (hStanding : Standing s cut since assembler) : cut <+: s := by
  rw [hStanding.stream_eq, List.append_assoc]
  exact List.prefix_append _ _

theorem keep (hStanding : Standing s cut since assembler) (call : AssemblerCall)
    (hKept : AssemblerEntry.clears ⟨call, (assembler.perform call).1⟩ = false) :
    Standing (s ++ call.fed) cut
      (since ++ AssemblerEntry.packets ⟨call, (assembler.perform call).1⟩)
      (assembler.perform call).2 := by
  have hCall := assembler.accounts_perform call
  refine ⟨?_, List.forall_mem_append.mpr ⟨hStanding.isLine_of_mem, fun packet hMem => ?_⟩⟩
  · rw [hStanding.stream_eq, List.append_assoc, hCall.kept hKept, List.flatten_append]
    simp only [List.append_assoc]
  · exact (hCall.packets packet hMem).1

/-! ## Runs of calls -/

theorem run (hStanding : Standing s cut since assembler) (calls : List AssemblerCall) :
    ∃ last recent, Standing (s ++ fedIn calls) last recent (assembler.run calls).2 ∧
      (last = cut ∨ last ∈ cuts s (assembler.run calls).1) ∧
      ∀ earlier ∈ cut :: cuts s (assembler.run calls).1, earlier <+: last := by
  induction calls generalizing s cut since assembler with
  | nil =>
    refine ⟨cut, since, ?_, Or.inl rfl, List.forall_mem_singleton.mpr List.prefix_rfl⟩
    rw [fedIn, List.flatMap_nil, List.append_nil]
    exact hStanding
  | cons call later ih =>
    rw [run_cons, fedIn_cons, ← List.append_assoc, cuts]
    dsimp only
    cases hClears : AssemblerEntry.clears ⟨call, (assembler.perform call).1⟩ with
    | false =>
      rw [if_neg Bool.false_ne_true]
      exact ih (hStanding.keep call hClears)
    | true =>
      rw [if_pos rfl]
      obtain ⟨last, recent, hLast, hCut, hBehind⟩ := ih (standing_of_clears s hClears)
      have hHere := (List.forall_mem_cons.mp hBehind).1
      refine ⟨last, recent, hLast, Or.inr ?_, List.forall_mem_cons.mpr ⟨?_, hBehind⟩⟩
      · obtain rfl | hLater := hCut
        · exact List.mem_cons_self
        · exact List.mem_cons_of_mem _ hLater
      · exact hStanding.cut_isPrefix.trans ((List.prefix_append s call.fed).trans hHere)

/-- Behind a packet a line has ended; before the first one stands the cut. -/
theorem unterminated_eq_nil (hStanding : Standing s cut since assembler) :
    since = [] ∨ unterminated (cut ++ since.flatten) = [] := by
  obtain rfl | ⟨earlier, packet, rfl⟩ := List.eq_nil_or_concat' since
  · exact Or.inl rfl
  · have hPacket : IsLine packet := hStanding.isLine_of_mem packet (by simp)
    rw [List.flatten_append, List.flatten_singleton, ← List.append_assoc]
    exact Or.inr (unterminated_append_line _ hPacket)

theorem lines_eq (hStanding : Standing s cut since assembler) (hWhole : unterminated cut = []) :
    lines s = lines cut ++ since ++ lines assembler.pending := by
  rw [hStanding.stream_eq, List.append_assoc, lines_append, hWhole, List.nil_append,
    lines_flatten_append_of_isLine hStanding.isLine_of_mem, List.append_assoc]

/-- Where no line is cut, packets are lines of the stream. -/
theorem packets_sublist (hStanding : Standing s cut since assembler)
    (hWhole : unterminated cut = []) {earlier : List Entry}
    (hEarlier : earlier <+ lines cut ++ since) {calls : List AssemblerCall}
    (hCuts : ∀ last ∈ cuts s (assembler.run calls).1, unterminated last = []) :
    earlier ++ packetsIn (assembler.run calls).1 <+ lines (s ++ fedIn calls) := by
  induction calls generalizing s cut since assembler earlier with
  | nil =>
    rw [Assembler.run, packetsIn, fedIn, List.flatMap_nil, List.flatMap_nil, List.append_nil,
      List.append_nil, hStanding.lines_eq hWhole]
    exact hEarlier.trans (List.sublist_append_left _ _)
  | cons call later ih =>
    rw [run_cons, cuts] at hCuts
    rw [run_cons, packetsIn, List.flatMap_cons, fedIn_cons, ← List.append_assoc,
      ← List.append_assoc]
    dsimp only at hCuts ⊢
    cases hClears : AssemblerEntry.clears ⟨call, (assembler.perform call).1⟩ with
    | false =>
      rw [hClears, if_neg Bool.false_ne_true] at hCuts
      refine ih (hStanding.keep call hClears) hWhole ?_ hCuts
      rw [← List.append_assoc]
      exact hEarlier.append_right _
    | true =>
      rw [hClears, if_pos rfl] at hCuts
      obtain ⟨hHere, hLater⟩ := List.forall_mem_cons.mp hCuts
      obtain ⟨-, hNone⟩ := (assembler.accounts_perform call).cleared hClears
      have hLines : lines cut ++ since <+ lines (s ++ call.fed) := by
        have hStream := List.sublist_append_left (lines cut ++ since) (lines assembler.pending)
        rw [← hStanding.lines_eq hWhole] at hStream
        exact hStream.trans (lines_prefix_append s call.fed).sublist
      refine ih (standing_of_clears s hClears) hHere ?_ hLater
      rw [hNone, List.append_nil, List.append_nil]
      exact hEarlier.trans hLines

end Standing

/-- **Where packets begin.**  Whatever is fed, polled for and reset, also after refusals, a packet
handed out ends with the only newline it has, and is no longer than the limit.  It begins where a
line of all that was ever fed does, or else where the stream was cut by a call that cleared the
buffer, and it lies behind all cuts made before: nothing that was cleared is handed out.  If every
cut is at the end of a line, the packets are lines of the stream, in their order and each once. -/
theorem handedOut_after_cuts (limit : Option Nat) (calls : List AssemblerCall) :
    let fresh : Assembler := { limit := limit }
    (∀ earlier call later packet, calls = earlier ++ call :: later →
      ((fresh.run earlier).2.perform call).1 = .ok (some packet) →
      ∃ front back, fedIn calls = front ++ packet ++ back ∧
        IsLine packet ∧ fits limit packet ∧
        (unterminated front = [] ∨ front ∈ cuts [] (fresh.run earlier).1) ∧
        ∀ cut ∈ cuts [] (fresh.run earlier).1, cut <+: front) ∧
    ((∀ cut ∈ cuts [] (fresh.run calls).1, unterminated cut = []) →
      packetsIn (fresh.run calls).1 <+ lines (fedIn calls)) := by
  intro fresh
  constructor
  · rintro earlier call later packet rfl hPacket
    obtain ⟨cut, since, hStanding, hCut, hBehind⟩ := (standing_fresh limit).run earlier
    have hCall := (fresh.run earlier).2.accounts_perform call
    rw [hPacket] at hCall
    obtain ⟨hLine, hFits⟩ := hCall.packets packet List.mem_cons_self
    have hTaken : (fresh.run earlier).2.pending ++ call.fed = packet ++
        ((fresh.run earlier).2.perform call).2.pending := by
      have hKept := hCall.kept (by cases call with | reset => cases hPacket | _ => rfl)
      rw [AssemblerEntry.packets, List.flatten_singleton] at hKept
      exact hKept
    refine ⟨cut ++ since.flatten, ((fresh.run earlier).2.perform call).2.pending ++ fedIn later,
      ?_, hLine, ?_, ?_, fun last hLast => ?_⟩
    · have hStream : fedIn earlier = _ := hStanding.stream_eq
      rw [fedIn_append, fedIn_cons, hStream, List.append_assoc, ← List.append_assoc _ call.fed,
        hTaken]
      simp only [List.append_assoc]
    · rw [fresh.limit_run] at hFits
      exact hFits
    · obtain rfl | hEnded := hStanding.unterminated_eq_nil
      · rw [List.flatten_nil, List.append_nil]
        obtain rfl | hMem := hCut
        · exact Or.inl rfl
        · exact Or.inr hMem
      · exact Or.inl hEnded
    · exact (hBehind last (List.mem_cons_of_mem _ hLast)).trans (List.prefix_append _ _)
  · intro hCuts
    exact (standing_fresh limit).packets_sublist rfl (List.Sublist.refl _) hCuts

/-- Two refusals at the end of a line, and the lines between them and behind them. -/
theorem handedOut_after_cuts_of_whole_lines :
    let fresh : Assembler := { limit := some 4 }
    let calls : List AssemblerCall :=
      [.feed [97, 98, 99, 100, 101, 10], .feed [102, 10, 103], .feed [104, 105, 106, 107, 10],
        .poll, .feed [108, 10]]
    cuts [] (fresh.run calls).1 =
      [[97, 98, 99, 100, 101, 10],
        [97, 98, 99, 100, 101, 10, 102, 10, 103, 104, 105, 106, 107, 10]] ∧
    packetsIn (fresh.run calls).1 = [[102, 10], [108, 10]] ∧
    packetsIn (fresh.run calls).1 <+ lines (fedIn calls) := by
  intro fresh calls
  have hWhole : ∀ cut ∈ cuts [] (fresh.run calls).1, unterminated cut = [] := by decide
  exact ⟨by decide, by decide, (handedOut_after_cuts (some 4) calls).2 hWhole⟩

/-- A packet need not be a line: what is left of a refused line, whose end came too late to be
refused with it, is handed out, and so is what is left of the line behind a refused one. -/
theorem handedOut_rest_of_line :
    (∃ (record : List AssemblerEntry) (after : Assembler),
      Assembler.run { limit := some 4 } [.feed [97, 98, 99, 100, 101], .feed [102, 10]] =
        (record, after) ∧
      packetsIn record = [[102, 10]] ∧
      lines (fedIn [.feed [97, 98, 99, 100, 101], .feed [102, 10]]) =
        [[97, 98, 99, 100, 101, 102, 10]]) ∧
    ∃ (record : List AssemblerEntry) (after : Assembler),
      Assembler.run { limit := some 4 }
        [.feed [97, 98, 99, 100, 101, 10, 102], .feed [103, 10]] = (record, after) ∧
      packetsIn record = [[103, 10]] ∧
      lines (fedIn [.feed [97, 98, 99, 100, 101, 10, 102], .feed [103, 10]]) =
        [[97, 98, 99, 100, 101, 10], [102, 103, 10]] :=
  ⟨⟨_, _, rfl, by decide, by decide⟩, _, _, rfl, by decide, by decide⟩

end Assembler

end PacketLog
