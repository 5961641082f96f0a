import Mathlib.Data.List.DropRight
import PacketLog.Ring

/-!
# What a ring keeps of its history

A ring of `capacity` entries keeps the newest `capacity` of all that were appended:
`Keeps ring packets` says so of the history `packets`, together with the total that
offsets are looked up by.  An append keeps it so (`Keeps.append`), and so does any
number of them (`Keeps.appendAll`).
-/

namespace PacketLog.Ring

/-! ## The newest of a list -/

theorem rtake_of_length_le {α : Type} {l : List α} {n : Nat} (hLength : l.length ≤ n) :
    l.rtake n = l := by
  rw [List.rtake, Nat.sub_eq_zero_of_le hLength, List.drop_zero]

theorem length_rtake {α : Type} (l : List α) (n : Nat) : (l.rtake n).length = min n l.length := by
  rw [List.rtake, List.length_drop]
  omega

theorem rtake_rtake_append {α : Type} (l t : List α) (n : Nat) :
    (l.rtake n ++ t).rtake n = (l ++ t).rtake n := by
  simp only [List.rtake_eq_reverse_take_reverse, List.reverse_append, List.reverse_reverse,
    List.take_append, List.take_take]
  rw [Nat.min_eq_left (Nat.sub_le _ _)]

theorem rtake_min_length {α : Type} (l : List α) (n : Nat) :
    l.rtake (min n l.length) = l.rtake n := by
  rw [List.rtake, List.rtake]
  congr 1
  omega

/-- What comes before the newest is the rest. -/
theorem eq_rdrop_of_append_rtake {α : Type} {older l : List α} {n : Nat}
    (hWhole : older ++ l.rtake n = l) : older = l.rdrop n := by
  have hSplit : l.rdrop n ++ l.rtake n = l := List.take_append_drop _ _
  exact List.append_cancel_right (hWhole.trans hSplit.symm)

/-! ## One append -/

theorem capacity_append (ring : Ring) (entry : Entry) :
    (ring.append entry).2.capacity = ring.capacity := by
  unfold append
  split <;> rfl

theorem append_of_room {ring : Ring} (hRoom : ring.length ≠ ring.capacity) (entry : Entry) :
    (ring.append entry).1 = none ∧ (ring.append entry).2.entries = ring.entries ++ [entry] ∧
      (ring.append entry).2.totalBytes = ring.totalBytes + entry.length := by
  rw [append, if_neg hRoom]
  exact ⟨rfl, Queue.toList_push _ _, rfl⟩

theorem append_of_full {ring : Ring} (hPos : 0 < ring.capacity)
    (hFull : ring.length = ring.capacity) (entry : Entry) :
    ∃ evicted kept, ring.entries = evicted :: kept ∧ (ring.append entry).1 = some evicted ∧
      (ring.append entry).2.entries = kept ++ [entry] ∧
      (ring.append entry).2.totalBytes = ring.totalBytes - evicted.length + entry.length := by
  rw [append, if_pos hFull]
  cases hPop : ring.retained.pop? with
  | none =>
    have hEmpty : ring.entries = [] := ring.retained.pop?_eq_none_iff.mp hPop
    have hLength := ring.length_entries
    rw [hEmpty, List.length_nil] at hLength
    omega
  | some popped =>
    exact ⟨popped.1, popped.2.toList, Queue.toList_of_pop? hPop, rfl, Queue.toList_push _ _, rfl⟩

/-- A ring that is not over-full keeps the newest of its entries and the new one. -/
theorem entries_append {ring : Ring} (hPos : 0 < ring.capacity)
    (hLength : ring.length ≤ ring.capacity) (entry : Entry) :
    (ring.append entry).2.entries = (ring.entries ++ [entry]).rtake ring.capacity := by
  have hEntries := ring.length_entries
  by_cases hFull : ring.length = ring.capacity
  · obtain ⟨evicted, kept, hSplit, -, hAfter, -⟩ := append_of_full hPos hFull entry
    rw [hSplit, List.length_cons] at hEntries
    have hOne : (evicted :: (kept ++ [entry])).length - ring.capacity = 1 := by
      rw [List.length_cons, List.length_append, List.length_singleton]
      omega
    rw [hAfter, hSplit, List.cons_append, List.rtake, hOne, List.drop_one, List.tail_cons]
  · obtain ⟨-, hAfter, -⟩ := append_of_room hFull entry
    rw [hAfter, rtake_of_length_le]
    rw [List.length_append, List.length_singleton]
    omega

theorem totalBytes_append {ring : Ring} (hPos : 0 < ring.capacity)
    (hTotal : ring.totalBytes = ring.contents.length) (entry : Entry) :
    (ring.append entry).2.totalBytes = (ring.append entry).2.contents.length := by
  rw [contents] at hTotal ⊢
  by_cases hFull : ring.length = ring.capacity
  · obtain ⟨evicted, kept, hSplit, -, hAfter, hSum⟩ := append_of_full hPos hFull entry
    rw [hSplit, List.flatten_cons, List.length_append] at hTotal
    rw [hSum, hAfter, List.flatten_append, List.flatten_singleton, List.length_append, hTotal,
      Nat.add_sub_cancel_left]
  · obtain ⟨-, hAfter, hSum⟩ := append_of_room hFull entry
    rw [hSum, hAfter, List.flatten_append, List.flatten_singleton, List.length_append, hTotal]

/-- The ring holds the newest of `packets`, and the total is the number of bytes it holds. -/
structure Keeps (ring : Ring) (packets : List Entry) : Prop where
  capacity_pos : 0 < ring.capacity
  entries_eq : ring.entries = packets.rtake ring.capacity
  totalBytes_eq : ring.totalBytes = ring.contents.length

theorem keeps_empty {capacity : Nat} (hPos : 0 < capacity) :
    ({ capacity := capacity } : Ring).Keeps [] :=
  ⟨hPos, (List.rtake_nil _).symm, rfl⟩

namespace Keeps

variable {ring : Ring} {packets : List Entry}

theorem length_eq (hKeeps : ring.Keeps packets) :
    ring.length = min ring.capacity packets.length := by
  rw [← ring.length_entries, hKeeps.entries_eq, length_rtake]

theorem length_le (hKeeps : ring.Keeps packets) : ring.length ≤ ring.capacity := by
  rw [hKeeps.length_eq]
  exact Nat.min_le_left _ _

theorem append (hKeeps : ring.Keeps packets) (entry : Entry) :
    (ring.append entry).2.Keeps (packets ++ [entry]) where
  capacity_pos := by rw [capacity_append]; exact hKeeps.capacity_pos
  entries_eq := by
    rw [capacity_append, entries_append hKeeps.capacity_pos hKeeps.length_le, hKeeps.entries_eq,
      rtake_rtake_append]
  totalBytes_eq := totalBytes_append hKeeps.capacity_pos hKeeps.totalBytes_eq entry

theorem appendAll (hKeeps : ring.Keeps packets) (more : List Entry) :
    (more.foldl (fun ring packet => (ring.append packet).2) ring).capacity = ring.capacity ∧
      (more.foldl (fun ring packet => (ring.append packet).2) ring).Keeps (packets ++ more) := by
  induction more generalizing ring packets with
  | nil => exact ⟨rfl, by rwa [List.append_nil]⟩
  | cons packet more ih =>
    obtain ⟨hCapacity, hMore⟩ := ih (hKeeps.append packet)
    rw [List.append_assoc, List.singleton_append] at hMore
    rw [List.foldl_cons, hCapacity, capacity_append]
    exact ⟨rfl, hMore⟩

end Keeps

end PacketLog.Ring
