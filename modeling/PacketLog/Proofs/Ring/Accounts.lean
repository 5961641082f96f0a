import Mathlib.Algebra.GroupWithZero.Nat
import Mathlib.Data.List.Infix
import PacketLog.Proofs.Ring.History

/-!
# The accounts of a ring

A new ring is empty (`eq_empty_of_create?`), and is then appended to and drained.  What it
hands back, followed by what it retains, is what was appended, in order:
`perform_append_entries` says so of one call and `run_append_entries` of a run.  It retains
the newest of what was appended since the last drain (`Keeps.run`), so an append makes it
hand back an entry only when it is full (`Keeps.evicts_iff`).

The total of retained bytes is not counted anew: an append takes away the length of what
it evicts and adds that of the new entry.  `recount?` is this reckoning in words, and it
leaves the words only if the bytes retained do not fit into one
(`Keeps.recount?_eq_some_iff`).  `handedBack_run` puts the accounts together, and
`Reached` are the rings that such calls lead to.
-/

namespace PacketLog

inductive RingAct
  | append (entry : Entry)
  | drain
deriving DecidableEq

namespace RingAct

def appended : RingAct → List Entry
  | .append entry => [entry]
  | .drain => []

/-- What was appended since the last drain, if that was `packets` before the call. -/
def undrained (packets : List Entry) : RingAct → List Entry
  | .append entry => packets ++ [entry]
  | .drain => []

theorem foldl_undrained {acts : List RingAct} (hDrain : .drain ∉ acts) (packets : List Entry) :
    acts.foldl undrained packets = packets ++ acts.flatMap appended := by
  induction acts generalizing packets with
  | nil => simp
  | cons act later ih =>
    obtain ⟨hFirst, hLater⟩ := not_or.mp (mt List.mem_cons.mpr hDrain)
    cases act with
    | append entry => simp [ih hLater, undrained, appended]
    | drain => exact absurd rfl hFirst

end RingAct

namespace Ring

def perform (ring : Ring) : RingAct → List Entry × Ring
  | .append entry => ((ring.append entry).1.toList, (ring.append entry).2)
  | .drain => ring.drain

/-- What the calls hand back in turn, and the ring after them. -/
def run (ring : Ring) : List RingAct → List Entry × Ring
  | [] => ([], ring)
  | act :: later =>
    let (gone, next) := ring.perform act
    let (more, last) := next.run later
    (gone ++ more, last)

theorem run_cons (ring : Ring) (act : RingAct) (later : List RingAct) :
    ring.run (act :: later) =
      ((ring.perform act).1 ++ ((ring.perform act).2.run later).1,
        ((ring.perform act).2.run later).2) := rfl

/-! ## Nothing is lost, repeated or moved -/

theorem perform_append_entries (ring : Ring) (act : RingAct) :
    (ring.perform act).1 ++ (ring.perform act).2.entries = ring.entries ++ act.appended := by
  cases act with
  | append entry => exact ring.evicted_append_entries entry
  | drain => rfl

theorem run_append_entries (ring : Ring) (acts : List RingAct) :
    (ring.run acts).1 ++ (ring.run acts).2.entries =
      ring.entries ++ acts.flatMap RingAct.appended := by
  induction acts generalizing ring with
  | nil => simp [run]
  | cons act later ih =>
    rw [run_cons, List.append_assoc, ih, ← List.append_assoc, perform_append_entries,
      List.append_assoc, List.flatMap_cons]

/-! ## What is retained -/

theorem capacity_perform (ring : Ring) (act : RingAct) :
    (ring.perform act).2.capacity = ring.capacity := by
  cases act with
  | append entry => exact ring.capacity_append entry
  | drain => rfl

theorem capacity_run (ring : Ring) (acts : List RingAct) :
    (ring.run acts).2.capacity = ring.capacity := by
  induction acts generalizing ring with
  | nil => rfl
  | cons act later ih => rw [run_cons, ih, capacity_perform]

namespace Keeps

variable {ring : Ring} {packets : List Entry}

theorem drain (hKeeps : ring.Keeps packets) : ring.drain.2.Keeps [] where
  capacity_pos := hKeeps.capacity_pos
  entries_eq := (List.rtake_nil _).symm
  totalBytes_eq := rfl

theorem perform (hKeeps : ring.Keeps packets) (act : RingAct) :
    (ring.perform act).2.Keeps (act.undrained packets) := by
  cases act with
  | append entry => exact hKeeps.append entry
  | drain => exact hKeeps.drain

theorem run (hKeeps : ring.Keeps packets) (acts : List RingAct) :
    (ring.run acts).2.Keeps (acts.foldl RingAct.undrained packets) := by
  induction acts generalizing ring packets with
  | nil => exact hKeeps
  | cons act later ih => exact ih (hKeeps.perform act)

/-- Only a full ring evicts. -/
theorem evicts_iff (hKeeps : ring.Keeps packets) (entry : Entry) :
    (ring.append entry).1.isSome ↔ ring.length = ring.capacity := by
  by_cases hFull : ring.length = ring.capacity
  · obtain ⟨evicted, kept, -, hEvicted, -⟩ := append_of_full hKeeps.capacity_pos hFull entry
    simp [hEvicted, hFull]
  · obtain ⟨hNone, -⟩ := append_of_room hFull entry
    simp [hNone, hFull]

end Keeps

/-! ## Appends alone -/

/-- What a ring hands back while `packets` are appended to it in turn. -/
def evictions (ring : Ring) : List Entry → List Entry
  | [] => []
  | packet :: later => (ring.append packet).1.toList ++ (ring.append packet).2.evictions later

theorem run_appends (ring : Ring) (packets : List Entry) :
    ring.run (packets.map .append) =
      (ring.evictions packets, packets.foldl (fun ring packet => (ring.append packet).2) ring) := by
  induction packets generalizing ring with
  | nil => rfl
  | cons packet later ih =>
    rw [List.map_cons, run_cons, perform, ih]
    rfl

/-- Nothing is lost that is not handed back. -/
theorem evictions_append_entries (ring : Ring) (packets : List Entry) :
    ring.evictions packets ++
        (packets.foldl (fun ring packet => (ring.append packet).2) ring).entries =
      ring.entries ++ packets := by
  have hRun := ring.run_append_entries (packets.map .append)
  have hAppended : (packets.map RingAct.append).flatMap RingAct.appended = packets := by
    simp [List.flatMap_map, RingAct.appended]
  rwa [run_appends, hAppended] at hRun

/-- An empty ring hands back all but the newest packets. -/
theorem evictions_eq_rdrop {capacity : Nat} (hPos : 0 < capacity) (packets : List Entry) :
    ({ capacity := capacity } : Ring).evictions packets = packets.rdrop capacity := by
  obtain ⟨hCapacity, hAll⟩ := (keeps_empty hPos).appendAll packets
  have hSplit := ({ capacity := capacity } : Ring).evictions_append_entries packets
  rw [hAll.entries_eq, hCapacity, List.nil_append] at hSplit
  exact eq_rdrop_of_append_rtake hSplit

/-- The number of bytes that an empty ring has handed back once `packets` are appended to it. -/
def evictedBytes (capacity : Nat) (packets : List Entry) : Nat :=
  (packets.rdrop capacity).flatten.length

theorem evictedBytes_le_append (capacity : Nat) (packets more : List Entry) :
    evictedBytes capacity packets ≤ evictedBytes capacity (packets ++ more) := by
  have hPrefix : packets.rdrop capacity <+: (packets ++ more).rdrop capacity := by
    rw [List.rdrop, List.rdrop, List.length_append,
      ← List.take_append_of_le_length (Nat.sub_le packets.length capacity)]
    exact List.take_prefix_take_left (by omega)
  exact (List.IsPrefix.flatten hPrefix).length_le

/-- What the ring holds comes right behind what it has handed back. -/
theorem Keeps.drop_evictedBytes {ring : Ring} {packets : List Entry}
    (hKeeps : ring.Keeps packets) :
    packets.flatten.drop (evictedBytes ring.capacity packets) = ring.contents := by
  have hFlatten : (packets.rdrop ring.capacity).flatten ++ ring.contents = packets.flatten := by
    rw [contents, hKeeps.entries_eq, ← List.flatten_append]
    exact congrArg List.flatten (List.take_append_drop _ _)
  rw [← hFlatten, evictedBytes, List.drop_left]

/-! ## The total -/

/-- The total after an append as it is reckoned in words: the length of what is evicted is taken
away, then that of the new entry is added.  There is no answer when a step leaves the words. -/
def recount? (ring : Ring) (entry : Entry) : Option Nat :=
  let gone := ((ring.append entry).1.map List.length).getD 0
  if gone ≤ ring.totalBytes then Word.add? (ring.totalBytes - gone) entry.length else none

namespace Keeps

variable {ring : Ring} {packets : List Entry}

/-- What is evicted has been counted, so taking it away does not go below zero. -/
theorem length_le_of_evicted (hKeeps : ring.Keeps packets) {entry evicted : Entry}
    (hEvicted : (ring.append entry).1 = some evicted) : evicted.length ≤ ring.totalBytes := by
  have hFull : ring.length = ring.capacity := by
    rw [← hKeeps.evicts_iff entry, hEvicted]
    rfl
  obtain ⟨oldest, kept, hSplit, hOldest, -⟩ := append_of_full hKeeps.capacity_pos hFull entry
  obtain rfl : oldest = evicted := Option.some.inj (hOldest.symm.trans hEvicted)
  rw [hKeeps.totalBytes_eq, contents, hSplit, List.flatten_cons, List.length_append]
  exact Nat.le_add_right _ _

/-- The reckoning in words comes to the total, unless what is retained does not fit into a word. -/
theorem recount?_eq_some_iff (hKeeps : ring.Keeps packets) (entry : Entry) :
    ring.recount? entry = some (ring.append entry).2.totalBytes ↔
      (ring.append entry).2.totalBytes < Word.bound := by
  unfold recount?
  by_cases hFull : ring.length = ring.capacity
  · obtain ⟨evicted, kept, -, hEvicted, -, hTotal⟩ :=
      append_of_full hKeeps.capacity_pos hFull entry
    have hLe := hKeeps.length_le_of_evicted hEvicted
    simp [hEvicted, hTotal, hLe, Word.add?_eq_some]
  · obtain ⟨hNone, -, hTotal⟩ := append_of_room hFull entry
    simp [hNone, hTotal, Word.add?_eq_some]

end Keeps

/-! ## Any number of calls -/

/-- **A ring loses nothing, and counts what it retains.**  Over any sequence of appends and drains
of a new ring, what was handed back, followed by what is retained, oldest first, is what was
appended, in order.  There are never more than `capacity` entries, and the next append evicts one
just when there are as many.  Without a drain the newest are retained and the others have been
handed back.  The total is the sum of the lengths retained: taking away what is evicted never goes
below zero, and adding the new entry leaves the words only where the new sum is no word. -/
theorem handedBack_run {capacity : Nat} (hPos : 0 < capacity) (acts : List RingAct) :
    let handedBack := (({ capacity := capacity } : Ring).run acts).1
    let ring := (({ capacity := capacity } : Ring).run acts).2
    let packets := acts.flatMap RingAct.appended
    let newest := min capacity packets.length
    handedBack ++ ring.entries = packets ∧
    ring.length = ring.entries.length ∧
    ring.length ≤ capacity ∧
    ring.totalBytes = (ring.entries.map List.length).sum ∧
    (∀ entry, ((ring.append entry).1.isSome ↔ ring.length = capacity) ∧
      (∀ evicted, (ring.append entry).1 = some evicted → evicted.length ≤ ring.totalBytes) ∧
      (ring.recount? entry = some (ring.append entry).2.totalBytes ↔
        (((ring.append entry).2.entries.map List.length).sum < Word.bound))) ∧
    (.drain ∉ acts → ring.entries = packets.rtake newest ∧
      handedBack = packets.take (packets.length - newest)) := by
  intro handedBack ring packets newest
  have hAll : handedBack ++ ring.entries = packets := run_append_entries _ acts
  have hKeeps : ring.Keeps (acts.foldl RingAct.undrained []) := (keeps_empty hPos).run acts
  have hCapacity : ring.capacity = capacity := capacity_run _ acts
  refine ⟨hAll, ring.length_entries.symm, hCapacity ▸ hKeeps.length_le, ?_,
    fun entry => ⟨?_, ?_, ?_⟩, fun hDrain => ?_⟩
  · rw [hKeeps.totalBytes_eq, contents, List.length_flatten]
  · rw [hKeeps.evicts_iff, hCapacity]
  · exact fun evicted => hKeeps.length_le_of_evicted
  · rw [hKeeps.recount?_eq_some_iff, (hKeeps.append entry).totalBytes_eq, contents,
      List.length_flatten]
  · have hNewest : ring.entries = packets.rtake newest := by
      rw [hKeeps.entries_eq, RingAct.foldl_undrained hDrain, List.nil_append, hCapacity]
      exact (rtake_min_length _ capacity).symm
    rw [hNewest] at hAll
    exact ⟨hNewest, eq_rdrop_of_append_rtake hAll⟩

/-- A full ring takes an empty entry and is drained later. -/
theorem handedBack_run_of_two_slots :
    let acts : List RingAct := [.append [97], .append [98, 99], .append []]
    let ring := (({ capacity := 2 } : Ring).run acts).2
    let drained := (({ capacity := 2 } : Ring).run (acts ++ [.drain, .append [100]])).2
    0 < 2 ∧ .drain ∉ acts ∧
      (({ capacity := 2 } : Ring).run acts).1 = [[97]] ∧ ring.entries = [[98, 99], []] ∧
      ring.totalBytes = 2 ∧ (ring.append [101]).1 = some [98, 99] ∧
      ring.recount? [101] = some 1 ∧
      (({ capacity := 2 } : Ring).run (acts ++ [.drain, .append [100]])).1 ++ drained.entries =
        [[97], [98, 99], [], [100]] := by
  intro acts ring drained
  have hPos : 0 < 2 := by decide
  have hDrain : .drain ∉ acts := by decide
  obtain ⟨-, -, -, hTotal, hNext, hNewest⟩ := handedBack_run hPos acts
  obtain ⟨hRetained, hHandedBack⟩ := hNewest hDrain
  obtain ⟨-, -, hWords⟩ := hNext [101]
  have hEvicted : (ring.append [101]).1 = some [98, 99] := by decide
  obtain ⟨hAll, -⟩ := handedBack_run hPos (acts ++ [.drain, .append [100]])
  exact ⟨hPos, hDrain, hHandedBack, hRetained, hTotal.trans (by decide), hEvicted,
    hWords.mpr (by decide), hAll⟩

/-! ## The rings that calls lead to -/

/-- A ring that appends and drains have made of a new one. -/
inductive Reached : Ring → Prop
  | create {capacity : Nat} (hPos : 0 < capacity) : Reached { capacity := capacity }
  | perform {ring : Ring} (hReached : Reached ring) (act : RingAct) : Reached (ring.perform act).2

namespace Reached

variable {ring : Ring}

theorem run (hReached : ring.Reached) (acts : List RingAct) : (ring.run acts).2.Reached := by
  induction acts generalizing ring with
  | nil => exact hReached
  | cons act later ih => exact ih (hReached.perform act)

theorem exists_keeps (hReached : ring.Reached) : ∃ packets, ring.Keeps packets := by
  induction hReached with
  | create hPos => exact ⟨[], keeps_empty hPos⟩
  | perform _ act ih =>
    obtain ⟨packets, hKeeps⟩ := ih
    exact ⟨act.undrained packets, hKeeps.perform act⟩

theorem totalBytes_eq (hReached : ring.Reached) : ring.totalBytes = ring.contents.length := by
  obtain ⟨packets, hKeeps⟩ := hReached.exists_keeps
  exact hKeeps.totalBytes_eq

end Reached

end Ring

end PacketLog
