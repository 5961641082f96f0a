import PacketLog.Proofs.Worker.Commits

/-!
# What a worker echoes

After each commit a worker takes a snapshot of the store and sends it to its peer, who may take
fewer bytes than are offered, or none for now.  `Echoing` keeps the books: what the peer has been
handed and what is left of the last snapshot are the snapshots laid end to end, and each snapshot
was taken after a commit of its own.  `Echoing.step` says that every step that does not end the
worker keeps them, and `Echoing.run` that every run does; a step that ends the worker hands nothing
over (`Transition.quiet_of_isOver`).

So the peer receives the snapshots in full, but for the end of the last one if the worker stops
while it sends it.  `SendingEnds` lists how that can happen: a failure that may be repeated is not
among the reasons, unless the abort signal is raised.
-/

namespace PacketLog

open Bytes

namespace WorkerPhase

/-- The worker sends a snapshot to its peer. -/
def sends : WorkerPhase → Bool
  | .sending _ | .stalled _ => true
  | _ => false

/-- What is left to send. -/
def unsent : WorkerPhase → Bytes
  | .sending rest | .stalled rest => rest
  | _ => []

/-- A packet is committed, and the snapshot that belongs to it is not taken yet. -/
def awaitsSnapshot : WorkerPhase → Bool
  | .reading _ => true
  | _ => false

end WorkerPhase

def WorkerEvent.snapshot : WorkerEvent → List Bytes
  | .snapshotted (.ok contents) => [contents]
  | _ => []

namespace Worker

def snapshotsIn (events : List WorkerEvent) : List Bytes := events.flatMap WorkerEvent.snapshot

def sentOf (worker : Worker) : WorkerEvent → Bytes
  | .sent (.sent count) => worker.phase.unsent.take count
  | _ => []

def sentIn (worker : Worker) : List WorkerEvent → Bytes
  | [] => []
  | event :: later =>
    worker.sentOf event ++ ((worker.step? event).map fun next => next.sentIn later).getD []

/-- How the sending of a snapshot ends before all of it is sent. -/
inductive SendingEnds : WorkerPhase → WorkerEvent → WorkerExit → Prop
  | nothingTaken (rest : Bytes) : SendingEnds (.sending rest) (.sent (.sent 0))
      (.failed (.ofMessage .io "peer accepted zero bytes"))
  | failed (rest : Bytes) {failure : IoFailure} (hRetry : failure.retryable = false) :
      SendingEnds (.sending rest) (.sent (.failed failure))
        (.failed ((Error.ofMessage .io "failed to send to peer").withFailure failure))
  /-- The signal is raised when the worker looks at it, after a failure that may be repeated. -/
  | aborted (rest : Bytes) : SendingEnds (.stalled rest) (.looked true) .aborted

variable {worker next last : Worker} {commits : Nat} {snapshots : List Bytes} {sent : Bytes}

theorem sentIn_cons {event : WorkerEvent} (hStep : worker.step? event = some next)
    (later : List WorkerEvent) :
    worker.sentIn (event :: later) = worker.sentOf event ++ next.sentIn later := by
  rw [sentIn, hStep]
  rfl

theorem sentIn_concat {earlier : List WorkerEvent} {event : WorkerEvent}
    (hEarlier : worker.run? earlier = some next) (hStep : next.step? event = some last) :
    worker.sentIn (earlier ++ [event]) = worker.sentIn earlier ++ next.sentOf event := by
  induction earlier generalizing worker with
  | nil =>
    obtain rfl := Option.some.inj hEarlier
    rw [List.nil_append, sentIn_cons hStep, sentIn, List.append_nil]
    rfl
  | cons first earlier ih =>
    obtain ⟨middle, hFirst, hRest⟩ := run?_cons hEarlier
    rw [List.cons_append, sentIn_cons hFirst, sentIn_cons hFirst, ih hRest, List.append_assoc]

theorem snapshotsIn_concat (earlier : List WorkerEvent) (event : WorkerEvent) :
    snapshotsIn (earlier ++ [event]) = snapshotsIn earlier ++ event.snapshot := by
  rw [snapshotsIn, snapshotsIn, List.flatMap_append, List.flatMap_singleton]

/-! ## What the peer has been handed -/

/-- What the peer has been handed, and what is left of the last snapshot, are the snapshots; each of
them follows a commit. -/
structure Echoing (worker : Worker) (commits : Nat) (snapshots : List Bytes) (sent : Bytes) :
    Prop where
  sent_eq : sent ++ worker.phase.unsent = snapshots.flatten
  unsent_isSuffix : ∀ latest ∈ snapshots.getLast?, worker.phase.unsent <:+ latest
  sends_iff : worker.phase.sends = true ↔ worker.phase.unsent ≠ []
  commits_eq : commits = snapshots.length + if worker.phase.awaitsSnapshot then 1 else 0

theorem echoing_create (id maxPacketBytes chunkSize : Nat) :
    (create id maxPacketBytes chunkSize).Echoing 0 [] [] where
  sent_eq := rfl
  unsent_isSuffix := nofun
  sends_iff := ⟨nofun, fun h => absurd rfl h⟩
  commits_eq := rfl

namespace Echoing

theorem commits_le (hEchoing : worker.Echoing commits snapshots sent) :
    commits ≤ snapshots.length + 1 := by
  rw [hEchoing.commits_eq]
  split <;> omega

theorem goOn (hEchoing : worker.Echoing commits snapshots sent) {event : WorkerEvent}
    (hUnsent : next.phase.unsent = worker.phase.unsent)
    (hSends : next.phase.sends = worker.phase.sends)
    (hAwaits : next.phase.awaitsSnapshot = worker.phase.awaitsSnapshot)
    (hCommit : worker.commitOf event = []) (hSnapshot : event.snapshot = [])
    (hSent : worker.sentOf event = []) :
    next.Echoing (commits + (worker.commitOf event).length) (snapshots ++ event.snapshot)
      (sent ++ worker.sentOf event) := by
  rw [hCommit, hSnapshot, hSent, List.append_nil, List.append_nil, List.length_nil]
  refine ⟨?_, ?_, ?_, ?_⟩
  · rw [hUnsent]
    exact hEchoing.sent_eq
  · rw [hUnsent]
    exact hEchoing.unsent_isSuffix
  · rw [hSends, hUnsent]
    exact hEchoing.sends_iff
  · rw [hAwaits]
    exact hEchoing.commits_eq

theorem snapshotted (hEchoing : worker.Echoing commits snapshots sent) {patience : Patience}
    (hPhase : worker.phase = .reading patience) {contents : Bytes}
    (hNext : next.phase = if contents = [] then .polling else .sending contents) :
    next.Echoing commits (snapshots ++ [contents]) sent := by
  obtain ⟨hSent, -, -, hCommits⟩ := hEchoing
  rw [hPhase] at hSent hCommits
  have hAll : sent = snapshots.flatten := (List.append_nil sent).symm.trans hSent
  have hUnsent : next.phase.unsent = contents := by
    rw [hNext]
    split
    · next hEmpty => exact hEmpty.symm
    · rfl
  refine ⟨?_, ?_, ?_, ?_⟩
  · rw [hUnsent, hAll, List.flatten_append, List.flatten_singleton]
  · intro latest hLatest
    rw [List.getLast?_concat] at hLatest
    obtain rfl := Option.some.inj hLatest
    exact ⟨[], hUnsent⟩
  · rw [hUnsent, hNext]
    split
    · next hEmpty => exact ⟨nofun, fun h => absurd hEmpty h⟩
    · next hSome => exact ⟨fun _ => hSome, fun _ => rfl⟩
  · have hAwaits : next.phase.awaitsSnapshot = false := by
      rw [hNext]
      split <;> rfl
    rw [hCommits, hAwaits, List.length_append]
    rfl

theorem sendOn (hEchoing : worker.Echoing commits snapshots sent) {rest : Bytes} {count : Nat}
    (hPhase : worker.phase = .sending rest) (hCount : count ≤ rest.length)
    (hNext : next.phase = if count = rest.length then .polling else .sending (rest.drop count)) :
    next.Echoing commits snapshots (sent ++ rest.take count) := by
  obtain ⟨hSent, hSuffix, -, hCommits⟩ := hEchoing
  rw [hPhase] at hSent hSuffix hCommits
  have hUnsent : next.phase.unsent = rest.drop count := by
    rw [hNext]
    split
    · next hAll => rw [hAll, List.drop_length]; rfl
    · rfl
  refine ⟨?_, ?_, ?_, ?_⟩
  · rw [hUnsent, List.append_assoc, List.take_append_drop]
    exact hSent
  · intro latest hLatest
    rw [hUnsent]
    exact (List.drop_suffix _ _).trans (hSuffix latest hLatest)
  · rw [hUnsent, hNext]
    split
    · next hAll =>
      rw [hAll, List.drop_length]
      exact ⟨nofun, fun h => absurd rfl h⟩
    · next hPart =>
      refine ⟨fun _ hNone => ?_, fun _ => rfl⟩
      have hLength := List.drop_eq_nil_iff.mp hNone
      omega
  · have hAwaits : next.phase.awaitsSnapshot = false := by
      rw [hNext]
      split <;> rfl
    rw [hAwaits]
    exact hCommits

/-- The books are kept by every step that does not end the worker. -/
theorem step (hEchoing : worker.Echoing commits snapshots sent) {event : WorkerEvent}
    (hStep : Transition worker event next) (hLive : next.phase.isOver = false) :
    next.Echoing (commits + (worker.commitOf event).length) (snapshots ++ event.snapshot)
      (sent ++ worker.sentOf event) := by
  cases hStep with
  | packetPolled hPhase | nothingPolled hPhase | cleared hPhase | packetReceived hPhase
  | nothingReceived hPhase | receiveRetried hPhase | commitRepeated hPhase
  | snapshotRepeated hPhase | sendStalled hPhase | resumed hPhase =>
    exact hEchoing.goOn (by rw [hPhase]; rfl) (by rw [hPhase]; rfl) (by rw [hPhase]; rfl) rfl rfl
      rfl
  | committed hPhase =>
    obtain ⟨hSent, hSuffix, hSends, hCommits⟩ := hEchoing
    rw [hPhase] at hSent hSuffix hSends hCommits
    have hCommit : worker.commitOf (.committed (.ok ())) = worker.phase.inHand := rfl
    have hSnapshots : snapshots ++ WorkerEvent.snapshot (.committed (.ok ())) = snapshots :=
      List.append_nil _
    have hNone : sent ++ worker.sentOf (.committed (.ok ())) = sent := List.append_nil _
    rw [hSnapshots, hNone, hCommit, hPhase]
    exact ⟨hSent, hSuffix, hSends, by rw [hCommits]; rfl⟩
  | @snapshotted patience contents hPhase =>
    have hNone : sent ++ worker.sentOf (.snapshotted (.ok contents)) = sent := List.append_nil _
    rw [hNone]
    exact hEchoing.snapshotted hPhase rfl
  | @sent rest count hPhase hPos hCount =>
    have hSnapshots : snapshots ++ WorkerEvent.snapshot (.sent (.sent count)) = snapshots :=
      List.append_nil _
    rw [hSnapshots, sentOf, hPhase]
    exact hEchoing.sendOn hPhase hCount rfl
  | _ => cases hLive

theorem run (hEchoing : worker.Echoing commits snapshots sent) {events : List WorkerEvent}
    (hRun : worker.run? events = some last) (hLive : last.phase.isOver = false) :
    last.Echoing (commits + (worker.committedIn events).length) (snapshots ++ snapshotsIn events)
      (sent ++ worker.sentIn events) := by
  induction events generalizing worker commits snapshots sent with
  | nil =>
    obtain rfl := Option.some.inj hRun
    rw [committedIn, snapshotsIn, List.flatMap_nil, sentIn, List.append_nil, List.append_nil]
    exact hEchoing
  | cons event later ih =>
    obtain ⟨next, hStep, hRest⟩ := run?_cons hRun
    have hNext : next.phase.isOver = false := by
      cases hOver : next.phase.isOver with
      | false => rfl
      | true =>
        obtain ⟨-, rfl⟩ := run?_of_isOver hOver hRest
        rw [hOver] at hLive
        cases hLive
    have hLast := ih (hEchoing.step (transition_of_step? hStep) hNext) hRest
    rw [committedIn_cons hStep, snapshotsIn, List.flatMap_cons, sentIn_cons hStep,
      List.length_append, ← Nat.add_assoc, ← List.append_assoc, ← List.append_assoc]
    exact hLast

end Echoing

/-! ## How the sending ends -/

/-- A step that ends the worker commits nothing, takes no snapshot and hands nothing over. -/
theorem Transition.quiet_of_isOver {event : WorkerEvent} (hStep : Transition worker event next)
    (hOver : next.phase.isOver) :
    worker.commitOf event = [] ∧ event.snapshot = [] ∧ worker.sentOf event = [] := by
  cases hStep with
  | sentNothing hPhase => exact ⟨rfl, rfl, List.take_zero (l := worker.phase.unsent)⟩
  | snapshotted hPhase | sent hPhase hPos hCount =>
    dsimp only at hOver
    split at hOver <;> cases hOver
  | pollFailed | aborted | peerClosed | feedFailed | receiveFailed | commitFailed | commitBroken
  | snapshotFailed | snapshotBroken | sendFailed | gaveUp => exact ⟨rfl, rfl, rfl⟩
  | _ => cases hOver

theorem Transition.sendingEnds {event : WorkerEvent} (hStep : Transition worker event next)
    (hSends : worker.phase.sends) (hOver : next.phase.isOver) :
    ∃ exit, next.phase = .finished exit ∧ SendingEnds worker.phase event exit := by
  cases hStep with
  | @sentNothing rest hPhase =>
    rw [hPhase]
    exact ⟨_, rfl, .nothingTaken rest⟩
  | @sendFailed rest failure hPhase hRetry =>
    rw [hPhase]
    exact ⟨_, rfl, .failed rest hRetry⟩
  | @gaveUp rest hPhase =>
    rw [hPhase]
    exact ⟨_, rfl, .aborted rest⟩
  | sent hPhase hPos hCount =>
    dsimp only at hOver
    split at hOver <;> cases hOver
  | sendStalled | resumed => cases hOver
  | packetPolled hPhase | nothingPolled hPhase | pollFailed hPhase | aborted hPhase
  | cleared hPhase | peerClosed hPhase | packetReceived hPhase | nothingReceived hPhase
  | feedFailed hPhase | receiveRetried hPhase | receiveFailed hPhase | committed hPhase
  | commitRepeated hPhase | commitFailed hPhase | commitBroken hPhase | snapshotted hPhase
  | snapshotRepeated hPhase | snapshotFailed hPhase | snapshotBroken hPhase =>
    rw [hPhase] at hSends
    cases hSends

/-- The worker looks at the abort signal after a failure that may be repeated, and only then. -/
theorem Transition.of_stalled {event : WorkerEvent} {rest : Bytes}
    (hStep : Transition worker event next) (hStalled : next.phase = .stalled rest) :
    ∃ failure, event = .sent (.failed failure) ∧ failure.retryable = true := by
  cases hStep with
  | sendStalled hPhase hRetry => exact ⟨_, rfl, hRetry⟩
  | snapshotted hPhase | sent hPhase hPos hCount =>
    dsimp only at hStalled
    split at hStalled <;> cases hStalled
  | _ => cases hStalled

/-- As long as the signal is not raised, failures that may be repeated change nothing. -/
theorem run?_retries {rest : Bytes} (hPhase : worker.phase = .sending rest)
    (failures : List IoFailure) (hRetry : ∀ failure ∈ failures, failure.retryable = true) :
    worker.run? (failures.flatMap fun failure => [.sent (.failed failure), .looked false]) =
      some worker := by
  induction failures with
  | nil => rfl
  | cons failure failures ih =>
    obtain ⟨hFirst, hLater⟩ := List.forall_mem_cons.mp hRetry
    have hStall : worker.step? (.sent (.failed failure)) = some (worker.goTo (.stalled rest)) := by
      unfold step?
      rw [hPhase]
      dsimp only [onSent]
      rw [if_pos hFirst]
    have hResume : (worker.goTo (.stalled rest)).step? (.looked false) = some worker := by
      show some (worker.goTo (.sending rest)) = some worker
      rw [← hPhase]
      rfl
    rw [List.flatMap_cons, run?_append, run?, hStall, Option.bind_some, run?, hResume,
      Option.bind_some, run?, Option.bind_some]
    exact ih hLater

/-! ## Whole runs -/

/-- The last event of a run has ended the worker while it was sending. -/
def StoppedSending (worker : Worker) (events : List WorkerEvent) (last : Worker) : Prop :=
  last.phase.isOver ∧ ∃ before event middle, events = before ++ [event] ∧
    worker.run? before = some middle ∧ middle.phase.sends

theorem sends_of_isOver (hOver : worker.phase.isOver) : worker.phase.sends = false := by
  cases hPhase : worker.phase <;> rw [hPhase] at hOver <;> first | rfl | cases hOver

theorem stoppedSending_concat_iff {before : List WorkerEvent} {event : WorkerEvent}
    {middle : Worker} (hBefore : worker.run? before = some middle) (hOver : last.phase.isOver) :
    worker.StoppedSending (before ++ [event]) last ↔ middle.phase.sends = true := by
  constructor
  · rintro ⟨-, earlier, other, found, hEvents, hEarlier, hSends⟩
    obtain ⟨rfl, -⟩ := List.append_inj' hEvents rfl
    obtain rfl := Option.some.inj (hEarlier.symm.trans hBefore)
    exact hSends
  · intro hSends
    exact ⟨hOver, before, event, middle, rfl, hBefore, hSends⟩

theorem echoing_run {id maxPacketBytes chunkSize : Nat} {events : List WorkerEvent}
    (hRun : (create id maxPacketBytes chunkSize).run? events = some last)
    (hLive : last.phase.isOver = false) :
    last.Echoing ((create id maxPacketBytes chunkSize).committedIn events).length
      (snapshotsIn events) ((create id maxPacketBytes chunkSize).sentIn events) := by
  have hLast := (echoing_create id maxPacketBytes chunkSize).run hRun hLive
  rwa [Nat.zero_add] at hLast

theorem exists_heldBack {id maxPacketBytes chunkSize : Nat} {events : List WorkerEvent}
    (hRun : (create id maxPacketBytes chunkSize).run? events = some last) :
    let worker := create id maxPacketBytes chunkSize
    ∃ rest, worker.sentIn events ++ rest = (snapshotsIn events).flatten ∧
      (∀ latest ∈ (snapshotsIn events).getLast?, rest <:+ latest) ∧
      (rest ≠ [] ↔ last.phase.sends = true ∨ worker.StoppedSending events last) ∧
      (worker.committedIn events).length ≤ (snapshotsIn events).length + 1 := by
  intro worker
  by_cases hOver : last.phase.isOver
  · -- The books are those of the run up to its last event.
    obtain rfl | ⟨before, event, rfl⟩ := List.eq_nil_or_concat' events
    · obtain rfl := Option.some.inj hRun
      cases hOver
    · obtain ⟨middle, hBefore, hStep⟩ := run?_concat hRun
      have hLast := transition_of_step? hStep
      have hLive : middle.phase.isOver = false := by
        cases hMiddle : middle.phase.isOver with
        | false => rfl
        | true => exact absurd hLast (not_transition_of_isOver hMiddle)
      have hEchoing := echoing_run hBefore hLive
      obtain ⟨hCommit, hSnapshot, hNothing⟩ := hLast.quiet_of_isOver hOver
      rw [sentIn_concat hBefore hStep, snapshotsIn_concat, committedIn_concat hBefore hStep,
        hCommit, hSnapshot, hNothing, List.append_nil, List.append_nil, List.append_nil]
      refine ⟨middle.phase.unsent, hEchoing.sent_eq, hEchoing.unsent_isSuffix, ?_,
        hEchoing.commits_le⟩
      rw [← hEchoing.sends_iff, stoppedSending_concat_iff hBefore hOver, sends_of_isOver hOver]
      simp
  · have hEchoing := echoing_run hRun (Bool.eq_false_iff.mpr hOver)
    refine ⟨last.phase.unsent, hEchoing.sent_eq, hEchoing.unsent_isSuffix, ?_,
      hEchoing.commits_le⟩
    rw [← hEchoing.sends_iff]
    exact ⟨Or.inl, fun h => h.resolve_right fun hStopped => hOver hStopped.1⟩

/-- A snapshot is taken after a commit, and before the next. -/
theorem length_committedIn_of_snapshot {id maxPacketBytes chunkSize : Nat}
    {before later : List WorkerEvent} {contents : Bytes}
    (hRun : (create id maxPacketBytes chunkSize).run?
      (before ++ .snapshotted (.ok contents) :: later) = some last) :
    ((create id maxPacketBytes chunkSize).committedIn before).length =
      (snapshotsIn before).length + 1 := by
  rw [run?_append] at hRun
  obtain ⟨middle, hBefore, hRest⟩ := Option.bind_eq_some_iff.mp hRun
  obtain ⟨next, hStep, -⟩ := run?_cons hRest
  cases transition_of_step? hStep with
  | snapshotted hPhase =>
    obtain ⟨-, -, -, hCommits⟩ := echoing_run hBefore (by rw [hPhase]; rfl)
    rw [hPhase] at hCommits
    exact hCommits

/-- **The peer is sent every snapshot, each byte once.**  A worker takes one snapshot after each
commit, before the next.  What the peer has been handed is all snapshots but the last, laid end to
end, and then the last one: in full, or a beginning of it if, and only if, the worker is sending it
or was stopped in the middle.  The sending is stopped by a write that takes nothing, by a failure
that is not to be repeated, or by the abort signal.  The signal is looked at after a failure that
may be repeated; as long as it is not raised, any number of them leave the worker with the same
bytes to send. -/
theorem echoed_run {id maxPacketBytes chunkSize : Nat} {events : List WorkerEvent}
    (hRun : (create id maxPacketBytes chunkSize).run? events = some last) :
    let worker := create id maxPacketBytes chunkSize
    let snapshots := snapshotsIn events
    let sent := worker.sentIn events
    (worker.committedIn events).length ≤ snapshots.length + 1 ∧
    (∀ before contents later, events = before ++ .snapshotted (.ok contents) :: later →
      (worker.committedIn before).length = (snapshotsIn before).length + 1) ∧
    (snapshots = [] → sent = []) ∧
    (∀ earlier latest, snapshots = earlier ++ [latest] →
      ∃ part rest, latest = part ++ rest ∧ sent = earlier.flatten ++ part ∧
        (rest ≠ [] ↔ last.phase.sends = true ∨ worker.StoppedSending events last)) ∧
    (∀ before event middle, events = before ++ [event] → worker.run? before = some middle →
      middle.phase.sends → last.phase.isOver →
        ∃ exit, last.phase = .finished exit ∧ SendingEnds middle.phase event exit) ∧
    (∀ rest, last.phase = .stalled rest → ∃ before failure,
      events = before ++ [.sent (.failed failure)] ∧ failure.retryable = true) ∧
    ∀ (rest : Bytes) (failures : List IoFailure), last.phase = .sending rest →
      (∀ failure ∈ failures, failure.retryable = true) →
        last.run? (failures.flatMap fun failure => [.sent (.failed failure), .looked false]) =
          some last := by
  intro worker snapshots sent
  obtain ⟨rest, hSent, hSuffix, hRest, hCommits⟩ := exists_heldBack hRun
  refine ⟨hCommits, ?_, fun hNone => ?_, fun earlier latest hSnapshots => ?_, ?_,
    fun kept hStalled => ?_,
    fun kept failures hPhase hRetry => run?_retries hPhase failures hRetry⟩
  · rintro before contents later rfl
    exact length_committedIn_of_snapshot hRun
  · change sent ++ rest = snapshots.flatten at hSent
    rw [hNone, List.flatten_nil] at hSent
    exact (List.append_eq_nil_iff.mp hSent).1
  · change sent ++ rest = snapshots.flatten at hSent
    change ∀ latest ∈ snapshots.getLast?, rest <:+ latest at hSuffix
    rw [hSnapshots] at hSent hSuffix
    obtain ⟨part, hPart⟩ := hSuffix latest List.getLast?_concat
    refine ⟨part, rest, hPart.symm, ?_, hRest⟩
    rw [List.flatten_append, List.flatten_singleton, ← hPart, ← List.append_assoc] at hSent
    exact List.append_cancel_right hSent
  · rintro before event middle rfl hBefore hSends hOver
    have hStep := step?_of_run?_concat hBefore hRun
    exact (transition_of_step? hStep).sendingEnds hSends hOver
  · obtain rfl | ⟨before, event, rfl⟩ := List.eq_nil_or_concat' events
    · obtain rfl := Option.some.inj hRun
      cases hStalled
    · obtain ⟨middle, -, hStep⟩ := run?_concat hRun
      obtain ⟨failure, rfl, hRetry⟩ := (transition_of_step? hStep).of_stalled hStalled
      exact ⟨before, failure, rfl, hRetry⟩

/-- The first snapshot goes out in two pieces, with a timeout between them; in the middle of the
second one the abort signal is raised. -/
theorem echoed_run_of_slow_peer :
    let worker := create 1 16 16
    let timeout : IoFailure := ⟨.wouldBlock, "Resource temporarily unavailable (os error 11)"⟩
    let before : List WorkerEvent :=
      [.polled, .looked false, .received (.received [97, 10, 98, 10]) true,
        .committed (.ok ()), .snapshotted (.ok [97, 10]), .sent (.sent 1),
        .sent (.failed timeout), .looked false, .sent (.sent 1),
        .polled, .committed (.ok ()), .snapshotted (.ok [97, 10, 98, 10]), .sent (.sent 3),
        .sent (.failed timeout)]
    ∃ last part rest, worker.run? (before ++ [.looked true]) = some last ∧
      last.phase = .finished .aborted ∧ [97, 10, 98, 10] = part ++ rest ∧ rest ≠ [] ∧
      worker.sentIn (before ++ [.looked true]) = [97, 10] ++ part ∧ part = [97, 10, 98] := by
  intro worker timeout before
  obtain ⟨middle, hMiddle, hSends⟩ : ∃ middle, worker.run? before = some middle ∧
      middle.phase.sends := ⟨_, rfl, rfl⟩
  obtain ⟨last, hLast, hPhase⟩ : ∃ last,
      worker.run? (before ++ [.looked true]) = some last ∧ last.phase = .finished .aborted :=
    ⟨_, rfl, rfl⟩
  obtain ⟨-, -, -, hSent, -⟩ := echoed_run hLast
  obtain ⟨part, rest, hLatest, hPart, hRest⟩ := hSent [[97, 10]] [97, 10, 98, 10] rfl
  have hStopped : worker.StoppedSending (before ++ [.looked true]) last :=
    ⟨by rw [hPhase]; rfl, before, .looked true, middle, rfl, hMiddle, hSends⟩
  have hAll : worker.sentIn (before ++ [.looked true]) = [97, 10] ++ [97, 10, 98] := rfl
  have hTaken : part = [97, 10, 98] := List.append_cancel_left (hPart.symm.trans hAll)
  exact ⟨last, part, rest, hLast, hPhase, hLatest, hRest.mpr (Or.inr hStopped), hPart, hTaken⟩

end Worker

end PacketLog
