import Mathlib.Data.Prod.Lex
import PacketLog.Proofs.Worker.Echoes

/-!
# A worker under a raised abort signal

Once the abort signal is raised, every look at it sees it raised, so a worker starts no further
read.  What it has left to do then gets less with every event (`Transition.workLeft_lt`): it ends a
read that is under way, goes through the packets in its buffer, commits and echoes each of them, and
what is left of an echo gets shorter or is given up.  On the way it meets at most one read
(`countP_isRead_le`), and it commits nothing but the packet in hand and the lines of what is
buffered and read (`committedIn_isPrefix`).
-/

namespace PacketLog

open Bytes

namespace WorkerPhase

def receives : WorkerPhase → Bool
  | .receiving => true
  | _ => false

/-- How far it is to the end of a visit to the store and its echo, and to the next look at the abort
signal. -/
def rank : WorkerPhase → Nat
  | .committing _ .interruptible => 8
  | .committing _ .blocking => 7
  | .reading .interruptible => 6
  | .reading .blocking => 5
  | .sending _ => 4
  | .stalled _ => 3
  | .polling => 2
  | .watching | .receiving => 1
  | .finished _ | .broken => 0

end WorkerPhase

def WorkerEvent.isRead : WorkerEvent → Bool
  | .received _ _ => true
  | _ => false

namespace Worker

variable {worker next last : Worker} {event : WorkerEvent} {events : List WorkerEvent}

/-- What a worker has left to do once it starts no further read: the read under way, then what is
buffered, then the present visit to the store with its echo. -/
def workLeft (worker : Worker) : Nat ×ₗ Nat ×ₗ Nat ×ₗ Nat :=
  toLex (worker.phase.receives.toNat, toLex (worker.assembler.pending.length,
    toLex (worker.phase.rank, worker.phase.unsent.length)))

theorem workLeft_lt_of_receives (hReceives : worker.phase.receives = true)
    (hNext : next.phase.receives = false) : next.workLeft < worker.workLeft := by
  rw [workLeft, workLeft, hReceives, hNext, Prod.Lex.toLex_lt_toLex]
  exact Or.inl Nat.zero_lt_one

theorem workLeft_lt_of_pending (hReceives : next.phase.receives = worker.phase.receives)
    (hPending : next.assembler.pending.length < worker.assembler.pending.length) :
    next.workLeft < worker.workLeft := by
  rw [workLeft, workLeft, hReceives, Prod.Lex.toLex_lt_toLex, Prod.Lex.toLex_lt_toLex]
  exact Or.inr ⟨rfl, Or.inl hPending⟩

theorem workLeft_lt_of_rank (hReceives : next.phase.receives = worker.phase.receives)
    (hPending : next.assembler.pending.length ≤ worker.assembler.pending.length)
    (hRank : next.phase.rank < worker.phase.rank) : next.workLeft < worker.workLeft := by
  obtain hLess | hSame := Nat.lt_or_eq_of_le hPending
  · exact workLeft_lt_of_pending hReceives hLess
  · rw [workLeft, workLeft, hReceives, hSame, Prod.Lex.toLex_lt_toLex, Prod.Lex.toLex_lt_toLex,
      Prod.Lex.toLex_lt_toLex]
    exact Or.inr ⟨rfl, Or.inr ⟨rfl, Or.inl hRank⟩⟩

theorem workLeft_lt_of_unsent (hAssembler : next.assembler = worker.assembler)
    (hReceives : next.phase.receives = worker.phase.receives)
    (hRank : next.phase.rank = worker.phase.rank)
    (hUnsent : next.phase.unsent.length < worker.phase.unsent.length) :
    next.workLeft < worker.workLeft := by
  rw [workLeft, workLeft, hReceives, hAssembler, hRank, Prod.Lex.toLex_lt_toLex,
    Prod.Lex.toLex_lt_toLex, Prod.Lex.toLex_lt_toLex]
  exact Or.inr ⟨rfl, Or.inr ⟨rfl, Or.inr ⟨rfl, hUnsent⟩⟩⟩

/-- A worker reads only after it has seen that the signal is not raised. -/
theorem Transition.receives_eq_false (hStep : Transition worker event next)
    (hRaised : event ≠ .looked false) : next.phase.receives = false := by
  cases hStep with
  | cleared => exact absurd rfl hRaised
  | snapshotted | sent =>
    dsimp only
    split <;> rfl
  | _ => rfl

theorem eq_interruptible_of_again {error : Error} {patience : Patience}
    (hAgain : again error patience = true) : patience = .interruptible := by
  cases patience with
  | interruptible => rfl
  | blocking =>
    rw [again] at hAgain
    simp at hAgain

/-- With the signal raised, whatever the worker meets leaves it less to do. -/
theorem Transition.workLeft_lt (hStep : Transition worker event next)
    (hRaised : event ≠ .looked false) : next.workLeft < worker.workLeft := by
  have hNext := hStep.receives_eq_false hRaised
  cases hStep with
  | @packetPolled packet after hPhase hPoll =>
    exact workLeft_lt_of_pending (by rw [hPhase]; rfl) (Assembler.length_pending_of_poll hPoll)
  | @nothingPolled after hPhase hPoll =>
    have hLength := worker.assembler.length_pending_poll_le
    rw [hPoll] at hLength
    exact workLeft_lt_of_rank (by rw [hPhase]; rfl) hLength (by simp [hPhase, WorkerPhase.rank])
  | @pollFailed error after hPhase hPoll =>
    have hLength := worker.assembler.length_pending_poll_le
    rw [hPoll] at hLength
    exact workLeft_lt_of_rank (by rw [hPhase]; rfl) hLength (by simp [hPhase, WorkerPhase.rank])
  | peerClosed hPhase | packetReceived hPhase | nothingReceived hPhase | feedFailed hPhase
  | receiveRetried hPhase | receiveFailed hPhase =>
    exact workLeft_lt_of_receives (by rw [hPhase]; rfl) hNext
  | @committed packet patience hPhase =>
    refine workLeft_lt_of_rank (by rw [hPhase]; rfl) (Nat.le_refl _) ?_
    rw [hPhase]
    cases patience <;> simp [WorkerPhase.rank]
  | commitRepeated hPhase hAgain | snapshotRepeated hPhase hAgain =>
    obtain rfl := eq_interruptible_of_again hAgain
    exact workLeft_lt_of_rank (by rw [hPhase]; rfl) (Nat.le_refl _)
      (by simp [hPhase, WorkerPhase.rank])
  | @commitFailed packet patience error hPhase | @commitBroken packet patience hPhase
  | @snapshotFailed patience error hPhase | @snapshotBroken patience hPhase =>
    refine workLeft_lt_of_rank (by rw [hPhase]; rfl) (Nat.le_refl _) ?_
    rw [hPhase]
    cases patience <;> simp [WorkerPhase.rank]
  | @snapshotted patience contents hPhase =>
    refine workLeft_lt_of_rank (by rw [hNext, hPhase]; rfl) (Nat.le_refl _) ?_
    rw [hPhase]
    dsimp only
    split <;> cases patience <;> simp [WorkerPhase.rank]
  | @sent rest count hPhase hPos hCount =>
    by_cases hAll : count = rest.length
    · refine workLeft_lt_of_rank (by rw [hNext, hPhase]; rfl) (Nat.le_refl _) ?_
      rw [hPhase, if_pos hAll]
      simp [WorkerPhase.rank]
    · refine workLeft_lt_of_unsent rfl (by rw [hNext, hPhase]; rfl) ?_ ?_
      · rw [hPhase, if_neg hAll]
        rfl
      · rw [hPhase, if_neg hAll]
        show (rest.drop count).length < rest.length
        rw [List.length_drop]
        omega
  | aborted hPhase | sentNothing hPhase | sendStalled hPhase | sendFailed hPhase | gaveUp hPhase =>
    exact workLeft_lt_of_rank (by rw [hPhase]; rfl) (Nat.le_refl _)
      (by simp [hPhase, WorkerPhase.rank])
  | cleared | resumed => exact absurd rfl hRaised

theorem workLeft_lt_of_run? (hRun : worker.run? events = some last)
    (hRaised : ∀ event ∈ events, event ≠ .looked false) :
    events = [] ∧ last = worker ∨ last.workLeft < worker.workLeft := by
  induction events generalizing worker with
  | nil => exact Or.inl ⟨rfl, (Option.some.inj hRun).symm⟩
  | cons event later ih =>
    obtain ⟨next, hStep, hRest⟩ := run?_cons hRun
    obtain ⟨hFirst, hLater⟩ := List.forall_mem_cons.mp hRaised
    have hLess := (transition_of_step? hStep).workLeft_lt hFirst
    obtain ⟨-, rfl⟩ | hRestLess := ih hRest hLater
    · exact Or.inr hLess
    · exact Or.inr (hRestLess.trans hLess)

/-! ## Reads and commits -/

theorem Transition.receives_of_isRead (hStep : Transition worker event next)
    (hRead : event.isRead = true) : worker.phase.receives = true := by
  cases hStep with
  | peerClosed hPhase | packetReceived hPhase | nothingReceived hPhase | feedFailed hPhase
  | receiveRetried hPhase | receiveFailed hPhase => rw [hPhase]; rfl
  | _ => cases hRead

/-- **At most one read answers**, the one that was under way when the signal was raised. -/
theorem countP_isRead_le (hRun : worker.run? events = some last)
    (hRaised : ∀ event ∈ events, event ≠ .looked false) :
    events.countP WorkerEvent.isRead ≤ worker.phase.receives.toNat := by
  induction events generalizing worker with
  | nil => exact Nat.zero_le _
  | cons event later ih =>
    obtain ⟨next, hStep, hRest⟩ := run?_cons hRun
    obtain ⟨hFirst, hLater⟩ := List.forall_mem_cons.mp hRaised
    have hNext := (transition_of_step? hStep).receives_eq_false hFirst
    have hNone := ih hRest hLater
    rw [hNext] at hNone
    rw [List.countP_cons, Nat.le_zero.mp hNone, Nat.zero_add]
    split
    · next hRead =>
      rw [(transition_of_step? hStep).receives_of_isRead hRead]
      exact Nat.le_refl _
    · exact Nat.zero_le _

theorem receivedIn_eq_nil (hNone : events.countP WorkerEvent.isRead = 0) :
    receivedIn events = [] := by
  rw [receivedIn, List.flatMap_eq_nil_iff]
  intro event hMem
  have hOther := List.countP_eq_zero.mp hNone event hMem
  cases event with
  | received answer room => exact absurd rfl hOther
  | _ => rfl

/-- What a worker commits from some point on is the packet it had in hand there, and then lines of
what it had buffered and received after it. -/
theorem Balanced.committedIn_isPrefix {limit : Option Nat} {received : Bytes}
    {committed : List Entry} (hBalanced : Balanced limit worker received committed)
    (hRun : worker.run? events = some last) :
    worker.committedIn events <+:
      worker.phase.inHand ++ lines (worker.assembler.pending ++ receivedIn events) := by
  have hAll : committed ++ worker.committedIn events <+:
      Assembler.admitted limit (received ++ receivedIn events) := by
    obtain hLast | ⟨-, hPrefix⟩ := hBalanced.run hRun
    · have hHand := hLast.inHand_isPrefix []
      rw [List.append_nil] at hHand
      exact (List.prefix_append _ _).trans hHand
    · exact hPrefix
  rw [hBalanced.admitted_eq, List.append_assoc, List.prefix_append_right_inj] at hAll
  exact hAll.trans ((List.prefix_append_right_inj _).mpr (List.takeWhile_prefix _))

theorem committedIn_isPrefix {id maxPacketBytes chunkSize : Nat} {before : List WorkerEvent}
    (hBefore : (create id maxPacketBytes chunkSize).run? before = some worker)
    (hRun : worker.run? events = some last) :
    worker.committedIn events <+:
      worker.phase.inHand ++ lines (worker.assembler.pending ++ receivedIn events) := by
  obtain hBalanced | ⟨hOver, -⟩ := (balanced_create id maxPacketBytes chunkSize).run hBefore
  · exact hBalanced.committedIn_isPrefix hRun
  · obtain ⟨rfl, -⟩ := run?_of_isOver hOver hRun
    exact List.nil_prefix

end Worker

end PacketLog
