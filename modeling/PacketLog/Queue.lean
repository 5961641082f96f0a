/-!
# Queues

What comes first leaves first.  A queue keeps its elements in two lists, so that
both of its ends are at hand: `front` begins with the oldest element, `back` with
the newest.  `toList` is what the queue holds, and every operation is known by
what it does to that list.
-/

namespace PacketLog

structure Queue (α : Type) where
  /-- The elements that leave next, oldest first. -/
  front : List α := []
  /-- The elements that leave after those, newest first. -/
  back : List α := []
  /-- The number of elements. -/
  length : Nat := 0
  length_eq : front.length + back.length = length := by exact Nat.zero_add 0
deriving DecidableEq

namespace Queue

variable {α : Type}

/-- The elements, oldest first. -/
def toList (queue : Queue α) : List α := queue.front ++ queue.back.reverse

/-- Adds the newest element. -/
def push (queue : Queue α) (newest : α) : Queue α :=
  { queue with
    back := newest :: queue.back
    length := queue.length + 1
    length_eq := congrArg (· + 1) queue.length_eq }

theorem length_tail {oldest : α} {front back : List α} {length : Nat}
    (hLength : (oldest :: front).length + back.length = length) :
    front.length + back.length = length - 1 := by
  rw [List.length_cons] at hLength
  omega

theorem length_turned {oldest : α} {front back : List α} {length : Nat}
    (hBack : back.reverse = oldest :: front)
    (hLength : ([] : List α).length + back.length = length) :
    front.length + ([] : List α).length = length - 1 := by
  have hReverse := congrArg List.length hBack
  rw [List.length_reverse, List.length_cons] at hReverse
  rw [List.length_nil] at hLength ⊢
  omega

/-- Takes the oldest element out. -/
def pop? : Queue α → Option (α × Queue α)
  | ⟨oldest :: front, back, length, hLength⟩ =>
    some (oldest, ⟨front, back, length - 1, length_tail hLength⟩)
  | ⟨[], back, length, hLength⟩ =>
    match hBack : back.reverse with
    | [] => none
    | oldest :: front => some (oldest, ⟨front, [], length - 1, length_turned hBack hLength⟩)

theorem length_toList (queue : Queue α) : queue.toList.length = queue.length := by
  rw [toList, List.length_append, List.length_reverse, queue.length_eq]

theorem toList_push (queue : Queue α) (newest : α) :
    (queue.push newest).toList = queue.toList ++ [newest] := by
  simp [toList, push]

theorem toList_of_pop? {queue rest : Queue α} {oldest : α}
    (hPop : queue.pop? = some (oldest, rest)) : queue.toList = oldest :: rest.toList := by
  obtain ⟨_ | ⟨first, front⟩, back, length, hLength⟩ := queue
  · unfold pop? at hPop
    dsimp only at hPop
    split at hPop
    · cases hPop
    · rename_i hBack
      obtain ⟨rfl, rfl⟩ := Prod.mk.inj (Option.some.inj hPop)
      simp [toList, hBack]
  · obtain ⟨rfl, rfl⟩ := Prod.mk.inj (Option.some.inj hPop)
    rfl

theorem pop?_eq_none_iff (queue : Queue α) : queue.pop? = none ↔ queue.toList = [] := by
  constructor
  · intro hPop
    obtain ⟨_ | ⟨first, front⟩, back, length, hLength⟩ := queue
    · unfold pop? at hPop
      dsimp only at hPop
      split at hPop
      · assumption
      · cases hPop
    · cases hPop
  · intro hEmpty
    cases hPop : queue.pop? with
    | none => rfl
    | some popped => rw [toList_of_pop? hPop] at hEmpty; cases hEmpty

end Queue

end PacketLog
