import PacketLog.Stamper
import PacketLog.Proofs.Timestamp
import PacketLog.Proofs.Worker.Commits

/-!
# Producers

Workers and periodic appenders are the producers of a store.  Each goes its own way
until it asks something of the store, `request?`, and goes on with the answer.
Whatever the answers, it offers nothing but lines, counts its commits, and reads the
store only after a commit of its own: `of_step?`, `of_committed?`, `of_snapshotted?`.
-/

namespace PacketLog

open Bytes

/-- Whoever commits to the store. -/
inductive Producer
  | ofWorker (worker : Worker)
  | ofStamper (stamper : Stamper)
deriving DecidableEq

inductive ProducerEvent
  | ofWorker (event : WorkerEvent)
  | ofStamper (event : StamperEvent)
deriving DecidableEq

inductive StoreRequest
  | commit (entry : Entry) (patience : Patience)
  | snapshot (patience : Patience)
deriving DecidableEq

namespace Producer

def request? : Producer → Option StoreRequest
  | .ofWorker worker =>
    match worker.phase with
    | .committing packet patience => some (.commit packet patience)
    | .reading patience => some (.snapshot patience)
    | _ => none
  | .ofStamper stamper =>
    match stamper.phase with
    | .committing _ record => some (.commit record .interruptible)
    | _ => none

def step? : Producer → ProducerEvent → Option Producer
  | .ofWorker worker, .ofWorker event => (worker.step? event).map .ofWorker
  | .ofStamper stamper, .ofStamper event => (stamper.step? event).map .ofStamper
  | _, _ => none

/-- What a producer makes of the answer to its commit. -/
def committed? (producer : Producer) (outcome : Outcome Unit) : Option Producer :=
  match producer with
  | .ofWorker worker => (worker.step? (.committed outcome)).map .ofWorker
  | .ofStamper stamper => (stamper.step? (.committed outcome)).map .ofStamper

/-- What a producer makes of the answer to its snapshot. -/
def snapshotted? (producer : Producer) (outcome : Outcome Bytes) : Option Producer :=
  match producer with
  | .ofWorker worker => (worker.step? (.snapshotted outcome)).map .ofWorker
  | .ofStamper _ => none

def commits : Producer → Nat
  | .ofWorker worker => worker.packets
  | .ofStamper stamper => stamper.appended

end Producer

/-! ## What a producer asks for next -/

namespace Worker

variable {worker next : Worker}

theorem inHand_of_idle (hIdle : (Producer.ofWorker worker).request? = none) :
    worker.phase.inHand = [] := by
  cases hPhase : worker.phase with
  | committing packet patience => rw [Producer.request?, hPhase] at hIdle; cases hIdle
  | _ => rfl

theorem phase_of_request_commit {entry : Entry} {patience : Patience}
    (hRequest : (Producer.ofWorker worker).request? = some (.commit entry patience)) :
    worker.phase = .committing entry patience := by
  cases hPhase : worker.phase <;> simp_all [Producer.request?]

theorem phase_of_request_snapshot {patience : Patience}
    (hRequest : (Producer.ofWorker worker).request? = some (.snapshot patience)) :
    worker.phase = .reading patience := by
  cases hPhase : worker.phase <;> simp_all [Producer.request?]

theorem isLine_of_transition {event : WorkerEvent} (hStep : Transition worker event next)
    (hHand : ∀ packet ∈ worker.phase.inHand, IsLine packet) :
    ∀ packet ∈ next.phase.inHand, IsLine packet := by
  have hFound : ∀ {assembler after : Assembler} {found : Entry} {patience : Patience},
      assembler.poll = (.ok (some found), after) →
      ∀ packet ∈ (WorkerPhase.committing found patience).inHand, IsLine packet :=
    fun hPoll packet hMem => by
      rw [List.mem_singleton.mp hMem]
      exact (Assembler.of_poll_some hPoll).1
  have hEmpty : ∀ {phase : WorkerPhase}, phase.inHand = [] →
      ∀ packet ∈ phase.inHand, IsLine packet := fun hPhase packet hMem => by
    rw [hPhase] at hMem
    cases hMem
  cases hStep with
  | packetPolled hPhase hPoll => exact hFound hPoll
  | packetReceived hPhase hChunk hLength hFeed =>
    obtain ⟨whole, -, -, hPoll⟩ | hRoom := Assembler.feed_cases hChunk hFeed
    · exact hFound hPoll
    · cases hRoom
  | commitRepeated hPhase hAgain => rwa [hPhase] at hHand
  | snapshotted hPhase => exact hEmpty (by dsimp only; split <;> rfl)
  | sent hPhase hPos hCount => exact hEmpty (by dsimp only; split <;> rfl)
  | _ => exact hEmpty rfl

/-- The count goes up with a commit that succeeds and with nothing else. -/
theorem packets_of_transition {event : WorkerEvent} (hStep : Transition worker event next) :
    next.packets = worker.packets + if event = .committed (.ok ()) then 1 else 0 := by
  cases hStep <;> rfl

/-- A worker is about to read the store after a commit that succeeded, and until it has. -/
theorem reading_of_transition {event : WorkerEvent} {patience : Patience}
    (hStep : Transition worker event next) (hReading : next.phase = .reading patience) :
    event = .committed (.ok ()) ∨ ∃ error, event = .snapshotted (.error error) := by
  cases hStep with
  | committed hPhase => exact Or.inl rfl
  | snapshotRepeated hPhase hAgain => exact Or.inr ⟨_, rfl⟩
  | snapshotted hPhase | sent hPhase hPos hCount =>
    dsimp only at hReading
    split at hReading <;> cases hReading
  | _ => cases hReading

end Worker

namespace Stamper

variable {stamper next : Stamper}

/-- A record in hand is a line. -/
def HoldsLine (stamper : Stamper) : Prop :=
  ∀ started record, stamper.phase = .committing started record → IsLine record

theorem holdsLine_onBegun (stamper : Stamper) (now : Nat) (moment : Moment) :
    (stamper.onBegun now moment).HoldsLine := by
  intro started record hPhase
  rw [onBegun] at hPhase
  cases hRecord : Timestamp.record moment with
  | ok text =>
    rw [hRecord] at hPhase
    obtain ⟨-, rfl⟩ := StamperPhase.committing.inj hPhase
    exact Timestamp.isLine_entry hRecord
  | error error => rw [hRecord] at hPhase; cases hPhase

theorem appended_onBegun (stamper : Stamper) (now : Nat) (moment : Moment) :
    (stamper.onBegun now moment).appended = stamper.appended := by
  rw [onBegun]
  split <;> rfl

theorem holdsLine_sleep (stamper : Stamper) (started : Nat) :
    (stamper.sleep started).HoldsLine := by
  rw [sleep]
  split <;> exact nofun

theorem appended_sleep (stamper : Stamper) (started : Nat) :
    (stamper.sleep started).appended = stamper.appended := by
  rw [sleep]
  split <;> rfl

theorem of_step? {event : StamperEvent} (hStep : stamper.step? event = some next) :
    next.HoldsLine ∧
      next.appended = stamper.appended + if event = .committed (.ok ()) then 1 else 0 := by
  unfold step? at hStep
  split at hStep
  · obtain rfl := Option.some.inj hStep
    refine ⟨?_, rfl⟩
    split <;> exact nofun
  · obtain rfl := Option.some.inj hStep
    exact ⟨holdsLine_onBegun _ _ _, appended_onBegun _ _ _⟩
  · rename_i started record outcome hPhase
    cases outcome with
    | ok value =>
      obtain rfl := Option.some.inj hStep
      exact ⟨holdsLine_sleep _ _, appended_sleep _ _⟩
    | error error =>
      obtain rfl := Option.some.inj hStep
      exact ⟨nofun, rfl⟩
    | crash =>
      obtain rfl := Option.some.inj hStep
      exact ⟨nofun, rfl⟩
    | waiting => cases hStep
  · split at hStep
    · obtain rfl := Option.some.inj hStep
      exact ⟨nofun, rfl⟩
    · split at hStep
      · obtain rfl := Option.some.inj hStep
        exact ⟨nofun, rfl⟩
      · cases hStep
  · cases hStep

end Stamper

namespace Producer

variable {producer next : Producer}

/-- What the producer asks to commit is a line. -/
def OffersLine (producer : Producer) : Prop :=
  ∀ entry patience, producer.request? = some (.commit entry patience) → IsLine entry

def Reads (producer : Producer) : Prop := ∃ patience, producer.request? = some (.snapshot patience)

theorem offersLine_ofWorker_iff {worker : Worker} :
    (ofWorker worker).OffersLine ↔ ∀ packet ∈ worker.phase.inHand, IsLine packet := by
  cases hPhase : worker.phase <;> simp [OffersLine, request?, hPhase, WorkerPhase.inHand]

theorem reads_ofWorker_iff {worker : Worker} :
    (ofWorker worker).Reads ↔ ∃ patience, worker.phase = .reading patience := by
  cases hPhase : worker.phase <;> simp [Reads, request?, hPhase]

theorem offersLine_ofStamper {stamper : Stamper} (hLine : stamper.HoldsLine) :
    (ofStamper stamper).OffersLine := by
  intro entry patience hRequest
  cases hPhase : stamper.phase <;> simp only [request?, hPhase] at hRequest <;> try cases hRequest
  exact hLine _ _ hPhase

theorem not_reads_ofStamper (stamper : Stamper) : ¬ (ofStamper stamper).Reads := by
  cases hPhase : stamper.phase <;> simp [Reads, request?, hPhase]

theorem offersLine_of_request?_eq_none (hIdle : producer.request? = none) :
    producer.OffersLine := fun entry patience hRequest => by
  rw [hIdle] at hRequest
  cases hRequest

/-- Away from the store nothing is committed, and the next request is to commit a line. -/
theorem of_step? {event : ProducerEvent} (hIdle : producer.request? = none)
    (hStep : producer.step? event = some next) :
    next.OffersLine ∧ next.commits = producer.commits ∧ ¬ next.Reads := by
  cases producer with
  | ofWorker worker =>
    cases event with
    | ofWorker event =>
      obtain ⟨after, hAfter, rfl⟩ := Option.map_eq_some_iff.mp hStep
      have hTransition := Worker.transition_of_step? hAfter
      have hHand := offersLine_ofWorker_iff.mp (offersLine_of_request?_eq_none hIdle)
      have hCommitted : ∀ outcome, event ≠ .committed outcome := by
        rintro outcome rfl
        cases hTransition <;> rename_i hPhase <;> simp_all [request?]
      have hSnapshotted : ∀ outcome, event ≠ .snapshotted outcome := by
        rintro outcome rfl
        cases hTransition <;> rename_i hPhase <;> simp_all [request?]
      refine ⟨offersLine_ofWorker_iff.mpr (Worker.isLine_of_transition hTransition hHand), ?_, ?_⟩
      · have hCount := Worker.packets_of_transition hTransition
        rwa [if_neg (hCommitted _)] at hCount
      · rw [reads_ofWorker_iff]
        rintro ⟨patience, hReading⟩
        obtain hOk | ⟨error, hError⟩ := Worker.reading_of_transition hTransition hReading
        · exact hCommitted _ hOk
        · exact hSnapshotted _ hError
    | ofStamper event => cases hStep
  | ofStamper stamper =>
    cases event with
    | ofWorker event => cases hStep
    | ofStamper event =>
      obtain ⟨after, hAfter, rfl⟩ := Option.map_eq_some_iff.mp hStep
      obtain ⟨hLine, hCount⟩ := Stamper.of_step? hAfter
      refine ⟨offersLine_ofStamper hLine, ?_, not_reads_ofStamper after⟩
      rw [if_neg] at hCount
      · exact hCount
      · rintro rfl
        unfold Stamper.step? at hAfter
        split at hAfter <;> simp_all [request?]

theorem of_committed? {outcome : Outcome Unit} (hOffers : producer.OffersLine)
    (hStep : producer.committed? outcome = some next) :
    next.OffersLine ∧ next.commits = producer.commits + (if outcome = .ok () then 1 else 0) ∧
      (next.Reads → outcome = .ok ()) := by
  cases producer with
  | ofWorker worker =>
    obtain ⟨after, hAfter, rfl⟩ := Option.map_eq_some_iff.mp hStep
    have hTransition := Worker.transition_of_step? hAfter
    have hHand := offersLine_ofWorker_iff.mp hOffers
    refine ⟨offersLine_ofWorker_iff.mpr (Worker.isLine_of_transition hTransition hHand), ?_, ?_⟩
    · have hCount := Worker.packets_of_transition hTransition
      simp only [WorkerEvent.committed.injEq] at hCount
      exact hCount
    · rw [reads_ofWorker_iff]
      rintro ⟨patience, hReading⟩
      obtain hOk | ⟨error, hError⟩ := Worker.reading_of_transition hTransition hReading
      · exact WorkerEvent.committed.inj hOk
      · cases hError
  | ofStamper stamper =>
    obtain ⟨after, hAfter, rfl⟩ := Option.map_eq_some_iff.mp hStep
    obtain ⟨hLine, hCount⟩ := Stamper.of_step? hAfter
    refine ⟨offersLine_ofStamper hLine, ?_, fun h => absurd h (not_reads_ofStamper after)⟩
    simp only [StamperEvent.committed.injEq] at hCount
    exact hCount

theorem of_snapshotted? {outcome : Outcome Bytes} (hOffers : producer.OffersLine)
    (hStep : producer.snapshotted? outcome = some next) :
    next.OffersLine ∧ next.commits = producer.commits ∧
      (next.Reads → ∃ error, outcome = .error error) := by
  cases producer with
  | ofWorker worker =>
    obtain ⟨after, hAfter, rfl⟩ := Option.map_eq_some_iff.mp hStep
    have hTransition := Worker.transition_of_step? hAfter
    have hHand := offersLine_ofWorker_iff.mp hOffers
    refine ⟨offersLine_ofWorker_iff.mpr (Worker.isLine_of_transition hTransition hHand),
      Worker.packets_of_transition hTransition, ?_⟩
    rw [reads_ofWorker_iff]
    rintro ⟨patience, hReading⟩
    obtain hOk | ⟨error, hError⟩ := Worker.reading_of_transition hTransition hReading
    · cases hOk
    · exact ⟨error, WorkerEvent.snapshotted.inj hError⟩
  | ofStamper stamper => cases hStep

end Producer

end PacketLog
