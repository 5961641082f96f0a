import PacketLog.Proofs.Device.Calls

/-!
# Writes that fail and are made again

A write can fail before it has taken anything in, at the lock or for want of memory, and then the
device and all handles are as before.  Once the bytes are buffered it cannot fail any more: the
commit loop polls an assembler without a limit, and such a poll has no error
(`Polls.exists_ok_poll`).
`Polls device buffer room` are the devices at which the loop polls, so this is a statement about
every turn of the loop, not only about what it comes to (`accept_eq_of_feed`).

So it is safe to make a write again that was interrupted.  `Desk.persist` makes it again and again
while others go on using the device: in the end the buffer has gone in once, as one piece behind
what the others wrote meanwhile, or nothing of it has (`persist_eq`).
-/

namespace PacketLog

open Bytes

/-! ## The commit loop -/

theorem Assembler.exists_ok_poll {assembler : Assembler} (hLimit : assembler.limit = none) :
    ∃ found after, assembler.poll = (.ok found, after) ∧ after.limit = none := by
  rcases hPoll : assembler.poll with ⟨error | found, after⟩
  · obtain ⟨-, -, most, length, hMost, -⟩ := of_poll_error hPoll
    rw [hLimit] at hMost
    cases hMost
  · have hAfter := assembler.limit_poll
    rw [hPoll, hLimit] at hAfter
    exact ⟨found, after, rfl, hAfter⟩

namespace Device

/-- The device as it is each time the commit loop of a write polls for another packet: the one it
found before has gone into the ring. -/
inductive Polls (device : Device) (buffer : Bytes) (room : Bool) : Device → Prop
  | first {packet : Entry} {after : Assembler}
      (hFeed : device.pending.feed buffer room = (.ok (some packet), after)) :
      Polls device buffer room { ring := (device.ring.append packet).2, pending := after }
  | next {middle : Device} {packet : Entry} {after : Assembler}
      (hMiddle : Polls device buffer room middle)
      (hPoll : middle.pending.poll = (.ok (some packet), after)) :
      Polls device buffer room { ring := (middle.ring.append packet).2, pending := after }

variable {device middle : Device} {buffer : Bytes} {room : Bool} {s : Bytes}

theorem Polls.limit_eq (hPolls : device.Polls buffer room middle)
    (hLimit : device.pending.limit = none) : middle.pending.limit = none := by
  induction hPolls with
  | @first packet after hFeed =>
    have hBuffer : buffer ≠ [] := by
      rintro rfl
      rw [Assembler.feed, if_pos rfl] at hFeed
      cases hFeed
    obtain ⟨whole, hWhole, -, hPoll⟩ | hRoom := Assembler.feed_cases hBuffer hFeed
    · show after.limit = none
      have hAfter := whole.limit_poll
      rw [hPoll, hWhole, hLimit] at hAfter
      exact hAfter
    · cases hRoom
  | @next middle packet after hMiddle hPoll ih =>
    show after.limit = none
    have hAfter := middle.pending.limit_poll
    rw [hPoll, ih] at hAfter
    exact hAfter

/-- **No turn of the commit loop fails.** -/
theorem Polls.exists_ok_poll (hPolls : device.Polls buffer room middle)
    (hLimit : device.pending.limit = none) :
    ∃ found after, middle.pending.poll = (.ok found, after) := by
  obtain ⟨found, after, hPoll, -⟩ := Assembler.exists_ok_poll (hPolls.limit_eq hLimit)
  exact ⟨found, after, hPoll⟩

/-- From each of its turns on the loop goes through all packets that are buffered, to one that finds
nothing more. -/
theorem Polls.drain (hPolls : device.Polls buffer room middle)
    (hLimit : device.pending.limit = none) :
    ∃ last rest, device.Polls buffer room last ∧ last.pending.poll = (.ok none, rest) ∧
      middle.pending.drain.1.2 = none ∧ middle.pending.drain.2 = rest ∧
      middle.pending.drain.1.1.foldl (fun ring packet => (ring.append packet).2) middle.ring =
        last.ring := by
  induction hLength : middle.pending.pending.length using Nat.strongRecOn generalizing middle with
  | ind length ih =>
    subst hLength
    obtain ⟨found, after, hPoll⟩ := hPolls.exists_ok_poll hLimit
    rw [Assembler.drain_eq, hPoll]
    cases found with
    | none => exact ⟨middle, after, hPolls, hPoll, rfl, rfl, rfl⟩
    | some packet => exact ih _ (Assembler.length_pending_of_poll hPoll) (hPolls.next hPoll) rfl

/-- What a write makes of the device is what the last turn of its commit loop leaves. -/
theorem accept_eq_of_feed (hLimit : device.pending.limit = none) {packet : Entry}
    {after : Assembler} (hFeed : device.pending.feed buffer room = (.ok (some packet), after)) :
    ∃ last rest, device.Polls buffer room last ∧ last.pending.poll = (.ok none, rest) ∧
      device.accept buffer room = (.ok buffer.length, { last with pending := rest }) := by
  obtain ⟨last, rest, hLast, hNone, hFailure, hRest, hRing⟩ := (Polls.first hFeed).drain hLimit
  refine ⟨last, rest, hLast, hNone, ?_⟩
  dsimp only at hFailure hRest hRing
  rw [accept, Assembler.feedAll, hFeed]
  dsimp only
  rw [hFailure, hRest, List.foldl_cons, hRing]

/-! ## One write -/

/-- A write that is not empty waits for the lock, then for room, and then takes everything. -/
theorem Holds.write_eq (hHolds : device.Holds s) (hBuffer : buffer ≠ []) (attempts : List Attempt)
    (room : Bool) :
    device.write buffer attempts room =
      match Patience.interruptible.acquire attempts with
      | .acquired =>
        if room then (.ok buffer.length, (device.accept buffer).2)
        else (.error .noRoomToGrow, device)
      | .interrupted => (.error .interrupted, device)
      | .waiting => (.waiting, device) := by
  rw [Device.write, if_neg hBuffer]
  cases Patience.interruptible.acquire attempts with
  | interrupted => rfl
  | waiting => rfl
  | acquired =>
    dsimp only [Acquisition.enter]
    cases room with
    | true =>
      obtain ⟨hAnswer, -⟩ := hHolds.accept hBuffer
      rw [hAnswer, if_pos rfl]
      rfl
    | false =>
      rw [Device.accept, Assembler.feedAll, Assembler.feed, if_neg hBuffer]
      rfl

/-- **A write that fails leaves no trace.** -/
theorem Holds.write_error (hHolds : device.Holds s) {attempts : List Attempt} {error : Error}
    (hError : (device.write buffer attempts room).1 = .error error) :
    (device.write buffer attempts room).2 = device ∧
      (Patience.interruptible.acquire attempts = .interrupted ∧ error = .interrupted ∨
        Patience.interruptible.acquire attempts = .acquired ∧ room = false ∧
          error = .noRoomToGrow) := by
  have hBuffer : buffer ≠ [] := by
    rintro rfl
    rw [Device.write, if_pos rfl] at hError
    cases hError
  rw [hHolds.write_eq hBuffer] at hError ⊢
  cases hLock : Patience.interruptible.acquire attempts with
  | interrupted =>
    rw [hLock] at hError
    exact ⟨rfl, Or.inl ⟨rfl, (Outcome.error.inj hError).symm⟩⟩
  | waiting =>
    rw [hLock] at hError
    cases hError
  | acquired =>
    rw [hLock] at hError
    cases room with
    | true => cases hError
    | false => exact ⟨rfl, Or.inr ⟨rfl, rfl, (Outcome.error.inj hError).symm⟩⟩

end Device

/-! ## Again and again -/

/-- One round of a write that is made again when it is interrupted: what others do first, then the
attempts on the lock, and whether there is room for the bytes. -/
structure WriteRound where
  others : List DeskCall
  attempts : List Attempt
  room : Bool
deriving DecidableEq

namespace Desk

/-- Writes what is left of `buffer` until nothing is left; an interrupted write is made again, and
any other error ends it. -/
def persist (desk : Desk) (name : String) (buffer : Bytes) : List WriteRound → Outcome Unit × Desk
  | [] => (if buffer = [] then .ok () else .waiting, desk)
  | round :: later =>
    if buffer = [] then (.ok (), desk)
    else
      let desk := (desk.run round.others).2
      match desk.perform name round.attempts (.write buffer round.room) with
      | (.number (.ok count), desk) => desk.persist name (buffer.drop count) later
      | (.number (.error error), desk) =>
        if error.kind = .interrupted then desk.persist name buffer later else (.error error, desk)
      | (.number .crash, desk) => (.crash, desk)
      | (_, desk) => (.waiting, desk)

variable {desk : Desk} {s : Bytes}

theorem run_append (desk : Desk) (earlier later : List DeskCall) :
    desk.run (earlier ++ later) =
      ((desk.run earlier).1 ++ ((desk.run earlier).2.run later).1,
        ((desk.run earlier).2.run later).2) := by
  induction earlier generalizing desk with
  | nil => rfl
  | cons call earlier ih => rw [List.cons_append, run_cons, run_cons, ih, List.cons_append]

theorem persist_nil (desk : Desk) (name : String) (rounds : List WriteRound) :
    desk.persist name [] rounds = (.ok (), desk) := by
  cases rounds with
  | nil => rfl
  | cons round later => rw [persist, if_pos rfl]

theorem persist_cons {buffer : Bytes} (hBuffer : buffer ≠ []) (name : String) (round : WriteRound)
    (later : List WriteRound) (hHolds : (desk.run round.others).2.device.Holds s) :
    let before := (desk.run round.others).2
    desk.persist name buffer (round :: later) =
      match Patience.interruptible.acquire round.attempts with
      | .acquired =>
        if round.room then (.ok (), { before with device := (before.device.accept buffer).2 })
        else (.error .noRoomToGrow, before)
      | .interrupted => before.persist name buffer later
      | .waiting => (.waiting, before) := by
  intro before
  rw [persist, if_neg hBuffer]
  dsimp only [perform]
  rw [hHolds.write_eq hBuffer]
  cases Patience.interruptible.acquire round.attempts with
  | interrupted => rfl
  | waiting => rfl
  | acquired =>
    cases round.room with
    | false => rfl
    | true =>
      dsimp only
      rw [if_pos rfl, if_pos rfl]
      dsimp only
      rw [List.drop_length, persist_nil]

theorem accept_nil (device : Device) : (device.accept []).2 = device := by
  rw [Device.accept, Assembler.feedAll, Assembler.feed, if_pos rfl]
  rfl

/-- **The buffer goes in once or not at all.**  Of the rounds some are made, and in each of them the
others do what they would have done without this write. -/
theorem persist_eq (hHolds : desk.device.Holds s) (name : String) (buffer : Bytes)
    (rounds : List WriteRound) :
    ∃ made, made <+: rounds ∧
      let before := (desk.run (made.flatMap WriteRound.others)).2
      let outcome := desk.persist name buffer rounds
      (outcome.1 = .ok () ∧
          outcome.2 = { before with device := (before.device.accept buffer).2 }) ∨
        (outcome.1 ≠ .ok () ∧ outcome.2 = before) := by
  by_cases hBuffer : buffer = []
  · subst hBuffer
    refine ⟨[], List.nil_prefix, Or.inl ?_⟩
    rw [persist_nil]
    refine ⟨rfl, ?_⟩
    show desk = { desk with device := (desk.device.accept []).2 }
    rw [accept_nil]
  · induction rounds generalizing desk s with
    | nil =>
      refine ⟨[], List.nil_prefix, Or.inr ?_⟩
      rw [persist, if_neg hBuffer]
      exact ⟨nofun, rfl⟩
    | cons round later ih =>
      obtain ⟨-, hMiddle, -⟩ := holds_run desk hHolds round.others
      have hOne : [round].flatMap WriteRound.others = round.others := List.flatMap_singleton _ _
      have hFirst : [round] <+: round :: later := ⟨later, rfl⟩
      rw [persist_cons hBuffer name round later hMiddle]
      cases Patience.interruptible.acquire round.attempts with
      | acquired =>
        refine ⟨[round], hFirst, ?_⟩
        rw [hOne]
        cases round.room with
        | true => exact Or.inl ⟨rfl, rfl⟩
        | false => exact Or.inr ⟨nofun, rfl⟩
      | interrupted =>
        obtain ⟨made, hMade, hOutcome⟩ := ih hMiddle
        refine ⟨round :: made, List.cons_prefix_cons.mpr ⟨rfl, hMade⟩, ?_⟩
        rw [List.flatMap_cons, run_append]
        exact hOutcome
      | waiting =>
        refine ⟨[round], hFirst, ?_⟩
        rw [hOne]
        exact Or.inr ⟨nofun, rfl⟩

theorem persist_ok (hHolds : desk.device.Holds s) (name : String) (buffer : Bytes)
    {earlier : List WriteRound} {round : WriteRound}
    (hEarlier : ∀ other ∈ earlier, Patience.interruptible.acquire other.attempts = .interrupted)
    (hLock : Patience.interruptible.acquire round.attempts = .acquired) (hRoom : round.room = true)
    (later : List WriteRound) :
    (desk.persist name buffer (earlier ++ round :: later)).1 = .ok () := by
  by_cases hBuffer : buffer = []
  · rw [hBuffer, persist_nil]
  · induction earlier generalizing desk s with
    | nil =>
      obtain ⟨-, hMiddle, -⟩ := holds_run desk hHolds round.others
      rw [List.nil_append, persist_cons hBuffer name round later hMiddle, hLock]
      dsimp only
      rw [hRoom, if_pos rfl]
    | cons other earlier ih =>
      obtain ⟨hOther, hRest⟩ := List.forall_mem_cons.mp hEarlier
      obtain ⟨-, hMiddle, -⟩ := holds_run desk hHolds other.others
      rw [List.cons_append, persist_cons hBuffer name other _ hMiddle, hOther]
      exact ih hMiddle hRest

theorem persist_alone (hHolds : desk.device.Holds s) (name : String) (buffer : Bytes)
    (tries : List (List Attempt)) :
    desk.persist name buffer (tries.map fun attempts => ⟨[], attempts, true⟩) =
      ((desk.device.writeAll buffer tries).1,
        { desk with device := (desk.device.writeAll buffer tries).2 }) := by
  by_cases hBuffer : buffer = []
  · subst hBuffer
    rw [persist_nil]
    cases tries with
    | nil => rfl
    | cons attempts later => rfl
  · induction tries with
    | nil =>
      rw [List.map_nil, persist, Device.writeAll, if_neg hBuffer]
    | cons attempts later ih =>
      have hNone : (desk.run ([] : List DeskCall)).2.device.Holds s := hHolds
      rw [List.map_cons, persist_cons hBuffer name ⟨[], attempts, true⟩ _ hNone, Device.writeAll,
        hHolds.write_eq hBuffer]
      cases Patience.interruptible.acquire attempts with
      | acquired => rfl
      | waiting => rfl
      | interrupted => exact ih

/-- **A write that fails can be made again.**  On a desk that any calls have led to, a write that
reports an error was interrupted at the lock or found no room, and everything is as before: the
ring, the pending packet with its cursor, and all handles.  No turn of the commit loop fails, and
what its last turn leaves is what the write makes of the device.  However often a write is made
again, while others act in between, its buffer goes in once, behind what those others have written,
or not at all; and it does go in as soon as a round gets the lock and has room. -/
theorem persist_of_reached (hReached : desk.Reached) (name : String) (buffer : Bytes) :
    (∀ attempts room error,
      (desk.perform name attempts (.write buffer room)).1 = .number (.error error) →
        (desk.perform name attempts (.write buffer room)).2 = desk ∧
        (Patience.interruptible.acquire attempts = .interrupted ∧ error = .interrupted ∨
          Patience.interruptible.acquire attempts = .acquired ∧ room = false ∧
            error = .noRoomToGrow)) ∧
    (∀ room middle, desk.device.Polls buffer room middle →
      ∃ found after, middle.pending.poll = (.ok found, after)) ∧
    (∀ room packet after, desk.device.pending.feed buffer room = (.ok (some packet), after) →
      ∃ last rest, desk.device.Polls buffer room last ∧ last.pending.poll = (.ok none, rest) ∧
        desk.device.accept buffer room = (.ok buffer.length, { last with pending := rest })) ∧
    (∀ tries, desk.persist name buffer (tries.map fun attempts => ⟨[], attempts, true⟩) =
      ((desk.device.writeAll buffer tries).1,
        { desk with device := (desk.device.writeAll buffer tries).2 })) ∧
    ∀ rounds : List WriteRound,
      let outcome := desk.persist name buffer rounds
      (∀ earlier round later, rounds = earlier ++ round :: later →
        (∀ other ∈ earlier, Patience.interruptible.acquire other.attempts = .interrupted) →
        Patience.interruptible.acquire round.attempts = .acquired → round.room = true →
          outcome.1 = .ok ()) ∧
      ∃ made, made <+: rounds ∧
        let before := (desk.run (made.flatMap WriteRound.others)).2
        (outcome.1 = .ok () →
          outcome.2 = { before with device := (before.device.accept buffer).2 } ∧
          ∀ t, before.device.Holds t → outcome.2.device.Holds (t ++ buffer)) ∧
        (outcome.1 ≠ .ok () → outcome.2 = before) := by
  obtain ⟨s, hHolds⟩ := hReached.exists_holds
  refine ⟨fun attempts room error hError => ?_, fun room middle hPolls => ?_,
    fun room packet after hFeed => Device.accept_eq_of_feed hHolds.limit hFeed,
    persist_alone hHolds name buffer, fun rounds => ⟨?_, ?_⟩⟩
  · have hOutcome : (desk.device.write buffer attempts room).1 = .error error :=
      DeskAnswer.number.inj hError
    obtain ⟨hSame, hCause⟩ := hHolds.write_error hOutcome
    refine ⟨?_, hCause⟩
    show { desk with device := (desk.device.write buffer attempts room).2 } = desk
    rw [hSame]
  · exact hPolls.exists_ok_poll hHolds.limit
  · rintro earlier round later rfl hEarlier hLock hRoom
    exact persist_ok hHolds name buffer hEarlier hLock hRoom later
  · obtain ⟨made, hMade, hOutcome⟩ := persist_eq hHolds name buffer rounds
    refine ⟨made, hMade, fun hOk => ?_, fun hNot => ?_⟩
    · obtain ⟨-, hLast⟩ | ⟨hNot, -⟩ := hOutcome
      · refine ⟨hLast, fun t hBefore => ?_⟩
        rw [hLast]
        by_cases hBuffer : buffer = []
        · subst hBuffer
          rw [accept_nil, List.append_nil]
          exact hBefore
        · exact (hBefore.accept hBuffer).2.2
      · exact absurd hOk hNot
    · obtain ⟨hOk, -⟩ | ⟨-, hLast⟩ := hOutcome
      · exact absurd hOk hNot
      · exact hLast

/-- The write of `b`, newline, `c` is interrupted after another handle has begun a packet, and goes
in behind that packet's next byte when it is made again. -/
theorem persist_of_reached_of_interruption :
    let free : List Attempt := [⟨true, false⟩]
    let interrupted : List Attempt := [⟨false, false⟩, ⟨false, true⟩]
    let desk : Desk := (run { device := { ring := { capacity := 2 } } }
      [⟨"x", free, .write [97, 10, 98] true⟩, ⟨"y", free, .seek (.start 1)⟩]).2
    let rounds : List WriteRound :=
      [⟨[⟨"x", free, .write [120] true⟩], interrupted, true⟩,
        ⟨[⟨"x", free, .write [121] true⟩], free, true⟩]
    let outcome := desk.persist "y" [98, 10, 99] rounds
    desk.Reached ∧
      (desk.perform "y" interrupted (.write [98, 10, 99] true)).1 =
        .number (.error .interrupted) ∧
      (desk.perform "y" interrupted (.write [98, 10, 99] true)).2 = desk ∧
      outcome.1 = .ok () ∧ outcome.2.device.ring.entries = [[97, 10], [98, 120, 121, 98, 10]] ∧
      outcome.2.device.pending.pending = [99] ∧ (outcome.2.handle "y").position = 1 := by
  intro free interrupted desk rounds outcome
  have hReached : desk.Reached := .run (.create (by decide) []) _
  obtain ⟨hFailed, -, -, -, hAgain⟩ := persist_of_reached hReached "y" [98, 10, 99]
  have hError : (desk.perform "y" interrupted (.write [98, 10, 99] true)).1 =
      .number (.error .interrupted) := rfl
  obtain ⟨hSame, -⟩ := hFailed interrupted true .interrupted hError
  obtain ⟨hSucceeds, -⟩ := hAgain rounds
  have hOk : outcome.1 = .ok () :=
    hSucceeds [⟨[⟨"x", free, .write [120] true⟩], interrupted, true⟩]
      ⟨[⟨"x", free, .write [121] true⟩], free, true⟩ [] rfl (by decide) (by decide) rfl
  have hEntries : outcome.2.device.ring.entries = [[97, 10], [98, 120, 121, 98, 10]] := by
    decide +kernel
  have hPending : outcome.2.device.pending.pending = [99] := by decide +kernel
  have hPosition : (outcome.2.handle "y").position = 1 := by decide +kernel
  exact ⟨hReached, hError, hSame, hOk, hEntries, hPending, hPosition⟩

end Desk

end PacketLog
