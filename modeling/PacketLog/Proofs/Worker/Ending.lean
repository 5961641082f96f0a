import PacketLog.Proofs.Worker.Offers
import PacketLog.Proofs.Worker.Raised

/-!
# A worker ends once the abort signal is raised

A worker shares its context with others, and the abort signal is raised at any point of what it
does.  `Contender.metIn` are the events that it meets in a run of the whole: those of its own, and
the answers to its calls of the store.  No step lowers the signal (`Follows`), so once it is raised
the worker never sees it lowered (`metIn_raised`), and whatever it meets leaves it less to do.

A course is a run without an end.  If on a course the worker's calls return, and from time to time
the lock is tried while it is free, the worker advances again and again, and so it ends
(`Course.exists_isOver`).  Nothing but the lock can keep it from advancing (`exists_advances`).
-/

namespace PacketLog

open Bytes

/-! ## Calls of the store -/

namespace Context

variable {context : Context}

theorem aborted_meet (hRaised : context.aborted = true) (call : StoreCall) :
    (context.meet call).2.aborted = true := by
  rw [meet]
  dsimp only
  rw [hRaised, Bool.true_or]

theorem aborted_appendHeld (hRaised : context.aborted = true) (entry : Entry)
    (answers : List WriteAnswer) : (context.appendHeld entry answers).2.aborted = true := by
  have hMet := aborted_meet hRaised .append
  rw [appendHeld]
  split <;> (next hMeet => rw [hMeet] at hMet; exact hMet)

theorem aborted_readHeld (hRaised : context.aborted = true) (answer : ReadAnswer) :
    (context.readHeld answer).2.aborted = true := by
  have hMet := aborted_meet hRaised .read
  rw [readHeld]
  split <;> (next hMeet => rw [hMeet] at hMet; exact hMet)

theorem appendHeld_ne_waiting (context : Context) (entry : Entry) :
    (context.appendHeld entry [.accepted 0]).1 ≠ .waiting := by
  intro hWaiting
  rw [appendHeld] at hWaiting
  split at hWaiting
  · next met hMeet =>
    dsimp only at hWaiting
    cases hStore : met.store.value with
    | inMemory ring =>
      rw [hStore] at hWaiting
      cases hWaiting
    | inFile file =>
      rw [hStore, Store.append, FileStore.append] at hWaiting
      by_cases hEmpty : entry = []
      · rw [if_pos hEmpty] at hWaiting
        cases hWaiting
      · rw [if_neg hEmpty] at hWaiting
        cases hWaiting
  · cases hWaiting
  · cases hWaiting

theorem readHeld_ne_waiting (context : Context) (answer : ReadAnswer) :
    (context.readHeld answer).1 ≠ .waiting := by
  intro hWaiting
  rw [readHeld] at hWaiting
  split at hWaiting
  · next met hMeet =>
    dsimp only at hWaiting
    cases hRead : (met.store.value.read met.files answer).1 with
    | ok bytes =>
      rw [hRead] at hWaiting
      cases hWaiting
    | error error =>
      rw [hRead] at hWaiting
      cases hWaiting
  · cases hWaiting
  · cases hWaiting

end Context

namespace Worker

variable {worker : Worker}

theorem exists_onCommitted (worker : Worker) {outcome : Outcome Unit}
    (hReturns : outcome ≠ .waiting) (packet : Entry) (patience : Patience) :
    ∃ next, worker.onCommitted packet patience outcome = some next := by
  cases outcome with
  | waiting => exact absurd rfl hReturns
  | ok value | crash => exact ⟨_, rfl⟩
  | error error =>
    rw [onCommitted]
    split <;> exact ⟨_, rfl⟩

theorem exists_onSnapshotted (worker : Worker) {outcome : Outcome Bytes}
    (hReturns : outcome ≠ .waiting) (patience : Patience) :
    ∃ next, worker.onSnapshotted patience outcome = some next := by
  cases outcome with
  | waiting => exact absurd rfl hReturns
  | ok value | crash => exact ⟨_, rfl⟩
  | error error =>
    rw [onSnapshotted]
    split <;> exact ⟨_, rfl⟩

/-- Away from the store there is always something that the worker can meet. -/
theorem exists_step_of_idle (hLive : worker.phase.isOver = false)
    (hIdle : (Producer.ofWorker worker).request? = none) (aborted : Bool) :
    ∃ event next, worker.step? event = some next ∧
      ∀ look, event = .looked look → look = aborted := by
  unfold step?
  cases hPhase : worker.phase with
  | polling => exact ⟨.polled, _, rfl, by rintro _ ⟨⟩⟩
  | watching | stalled => exact ⟨.looked aborted, _, rfl, by rintro _ ⟨⟩; rfl⟩
  | receiving => exact ⟨.received (.received []), _, rfl, by rintro _ ⟨⟩⟩
  | sending rest => exact ⟨.sent (.sent 0), _, rfl, by rintro _ ⟨⟩⟩
  | committing packet patience | reading patience =>
    rw [Producer.request?, hPhase] at hIdle
    cases hIdle
  | finished exit | broken =>
    rw [hPhase] at hLive
    cases hLive

theorem exists_ended (hOver : worker.phase.isOver) (hLive : worker.phase ≠ .broken) :
    ∃ summary, worker.thread = .ended summary := by
  unfold thread
  cases hPhase : worker.phase with
  | finished exit => exact ⟨_, rfl⟩
  | broken => exact absurd hPhase hLive
  | _ =>
    rw [hPhase] at hOver
    cases hOver

end Worker

namespace StoreRequest

theorem aborted_call {context : Context} (hRaised : context.aborted = true)
    (request : StoreRequest) (attempts : List Attempt) (answers : List WriteAnswer)
    (answer : ReadAnswer) : (request.call context attempts answers answer).2.aborted = true := by
  cases request with
  | commit entry patience =>
    show ((patience.acquire attempts).enter context
      fun context => context.appendHeld entry answers).2.aborted = true
    apply Acquisition.enter_snd (motive := fun left : Context => left.aborted = true)
    · exact hRaised
    · exact Context.aborted_appendHeld hRaised entry answers
  | snapshot patience =>
    show ((patience.acquire attempts).enter context
      fun context => context.readHeld answer).2.aborted = true
    apply Acquisition.enter_snd (motive := fun left : Context => left.aborted = true)
    · exact hRaised
    · exact Context.aborted_readHeld hRaised answer

/-- The worker goes on with the answer to a call that did not wait for the lock in vain. -/
theorem exists_step {worker : Worker} {request : StoreRequest}
    (hRequest : (Producer.ofWorker worker).request? = some request) (context : Context)
    {attempts : List Attempt} (hOver : request.patience.acquire attempts ≠ .waiting) :
    ∃ next, worker.step? (request.call context attempts [.accepted 0] .whole).1 = some next := by
  cases request with
  | commit entry patience =>
    have hReturns : (context.commit patience attempts entry [.accepted 0]).1 ≠ .waiting :=
      Acquisition.enter_ne_waiting hOver (context.appendHeld_ne_waiting entry)
    obtain ⟨next, hNext⟩ := worker.exists_onCommitted hReturns entry patience
    exact ⟨next, (Worker.step?_committed (Worker.phase_of_request_commit hRequest) _).trans hNext⟩
  | snapshot patience =>
    have hReturns : (context.snapshot patience attempts .whole).1 ≠ .waiting :=
      Acquisition.enter_ne_waiting hOver (context.readHeld_ne_waiting .whole)
    obtain ⟨next, hNext⟩ := worker.exists_onSnapshotted hReturns patience
    exact ⟨next,
      (Worker.step?_snapshotted (Worker.phase_of_request_snapshot hRequest) _).trans hNext⟩

end StoreRequest

namespace Contender

variable {contender next last : Contender} {event : ContenderEvent} {events : List ContenderEvent}

/-! ## What the worker meets -/

/-- What the worker meets in a step: an event of its own, or the answer to a call that returns. -/
def metOf (contender : Contender) (event : ContenderEvent) : List WorkerEvent :=
  match event with
  | .moved event => [event]
  | _ => ((contender.step? event).map fun next =>
      (next.calls.drop contender.calls.length).map Call.event).getD []

def metIn (contender : Contender) : List ContenderEvent → List WorkerEvent
  | [] => []
  | event :: later =>
    contender.metOf event ++ ((contender.step? event).map fun next => next.metIn later).getD []

/-- The worker advances: it makes a step of its own, or the lock is tried while it is free. -/
def Advances (contender : Contender) : ContenderEvent → Prop
  | .moved _ => True
  | .tried _ _ => contender.context.store.held = false
  | _ => False

/-- What a step is to the worker and to the abort signal: the worker sees the signal as it is, no
step lowers it, and a step with which the worker advances is an event for it. -/
structure Follows (contender : Contender) (event : ContenderEvent) (next : Contender) : Prop where
  run_eq : contender.worker.run? (contender.metOf event) = some next.worker
  sees : ∀ met ∈ contender.metOf event, contender.sees met = true
  raised : contender.context.aborted = true → next.context.aborted = true
  advances : contender.Advances event → contender.metOf event ≠ []

theorem metOf_eq (hOther : ∀ met, event ≠ .moved met) (hStep : contender.step? event = some next) :
    contender.metOf event = (next.calls.drop contender.calls.length).map Call.event := by
  cases event with
  | moved met => exact absurd rfl (hOther met)
  | elsewhere left | tried answers answer | looked =>
    unfold metOf
    dsimp only
    rw [hStep]
    rfl

theorem follows_of_nothing (hMet : contender.metOf event = [])
    (hWorker : next.worker = contender.worker)
    (hRaised : contender.context.aborted = true → next.context.aborted = true)
    (hStays : ¬ contender.Advances event) : contender.Follows event next where
  run_eq := by rw [hMet, Worker.run?, hWorker]
  sees := by simp [hMet]
  raised := hRaised
  advances := fun hAdvances => absurd hAdvances hStays

theorem follows_of_one {met : WorkerEvent} (hMet : contender.metOf event = [met])
    (hStep : contender.worker.step? met = some next.worker) (hSees : contender.sees met = true)
    (hRaised : contender.context.aborted = true → next.context.aborted = true) :
    contender.Follows event next where
  run_eq := by rw [hMet, Worker.run?, hStep]; rfl
  sees := by simp [hMet, hSees]
  raised := hRaised
  advances := by simp [hMet]

theorem sees_of_call {request : StoreRequest} {context after : Context} {attempts : List Attempt}
    {answers : List WriteAnswer} {answer : ReadAnswer} {met : WorkerEvent}
    (hCall : request.call context attempts answers answer = (met, after)) :
    contender.sees met = true := by
  cases request <;> (obtain ⟨rfl, -⟩ := Prod.mk.inj hCall; rfl)

/-- An attempt leaves the worker waiting, or its call returns. -/
theorem follows_of_attempted? {request : StoreRequest} {tried : Context}
    {answers : List WriteAnswer} {answer : ReadAnswer}
    (hMet : contender.metOf event = (next.calls.drop contender.calls.length).map Call.event)
    (hFree : contender.Advances event → tried.store.held = false)
    (hStep : contender.attempted? request tried answers answer = some next) :
    contender.Follows event next := by
  rw [attempted?] at hStep
  dsimp only at hStep
  split at hStep
  · next hWaiting =>
    obtain rfl := Option.some.inj hStep
    rw [List.drop_length, List.map_nil] at hMet
    refine follows_of_nothing hMet rfl id fun hAdvances => ?_
    have hAttempt : (tried.store.attempt contender.context.aborted).free = true := by
      rw [Exclusion.attempt, hFree hAdvances]
      rfl
    exact request.patience.acquire_concat_ne_waiting hAttempt _ hWaiting
  · obtain ⟨worker, hWorker, rfl⟩ := Option.map_eq_some_iff.mp hStep
    rw [afterCall, List.drop_left, List.map_singleton] at hMet
    exact follows_of_one hMet hWorker (sees_of_call rfl)
      fun hRaised => request.aborted_call hRaised _ answers answer

theorem follows_of_step? (hStep : contender.step? event = some next) :
    contender.Follows event next := by
  cases event with
  | elsewhere left =>
    have hMet := metOf_eq (by rintro _ ⟨⟩) hStep
    obtain rfl := Option.some.inj hStep
    rw [List.drop_length, List.map_nil] at hMet
    refine follows_of_nothing hMet rfl (fun hRaised => ?_) id
    show (contender.context.aborted || left.aborted) = true
    rw [hRaised, Bool.true_or]
  | moved met =>
    rw [step?] at hStep
    split at hStep
    · next hAllowed =>
      obtain ⟨worker, hWorker, rfl⟩ := Option.map_eq_some_iff.mp hStep
      exact follows_of_one rfl hWorker hAllowed.2 id
    · cases hStep
  | tried answers answer =>
    have hMet := metOf_eq (by rintro _ ⟨⟩) hStep
    rw [step?] at hStep
    split at hStep
    · split at hStep
      · next hHeld =>
        obtain rfl := Option.some.inj hStep
        rw [List.drop_length, List.map_nil] at hMet
        refine follows_of_nothing hMet rfl id fun hFree => ?_
        rw [Advances, hHeld] at hFree
        cases hFree
      · exact follows_of_attempted? hMet id hStep
    · cases hStep
  | looked =>
    have hMet := metOf_eq (by rintro _ ⟨⟩) hStep
    rw [step?] at hStep
    split at hStep
    · exact follows_of_attempted? hMet False.elim hStep
    · cases hStep

theorem Follows.ne_cleared (hFollows : contender.Follows event next)
    (hRaised : contender.context.aborted = true) :
    ∀ met ∈ contender.metOf event, met ≠ .looked false := by
  rintro met hMet rfl
  have hSees := hFollows.sees _ hMet
  rw [Contender.sees, hRaised] at hSees
  cases hSees

/-! ## Runs -/

theorem metIn_cons (hStep : contender.step? event = some next) (later : List ContenderEvent) :
    contender.metIn (event :: later) = contender.metOf event ++ next.metIn later := by
  rw [metIn, hStep]
  rfl

/-- For the worker, a run of the whole is a run through what it meets. -/
theorem run?_metIn (hRun : contender.run? events = some last) :
    contender.worker.run? (contender.metIn events) = some last.worker := by
  induction events generalizing contender with
  | nil =>
    obtain rfl := Option.some.inj hRun
    rfl
  | cons event later ih =>
    obtain ⟨next, hStep, hRest⟩ := Option.bind_eq_some_iff.mp hRun
    rw [metIn_cons hStep, Worker.run?_append, (follows_of_step? hStep).run_eq]
    exact ih hRest

theorem metIn_raised (hRaised : contender.context.aborted = true)
    (hRun : contender.run? events = some last) :
    ∀ met ∈ contender.metIn events, met ≠ .looked false := by
  induction events generalizing contender with
  | nil => exact fun met hMet => absurd hMet List.not_mem_nil
  | cons event later ih =>
    obtain ⟨next, hStep, hRest⟩ := Option.bind_eq_some_iff.mp hRun
    have hFollows := follows_of_step? hStep
    rw [metIn_cons hStep, List.forall_mem_append]
    exact ⟨hFollows.ne_cleared hRaised, ih (hFollows.raised hRaised) hRest⟩

/-! ## Courses -/

/-- A run without an end. -/
structure Course (contender : Contender) where
  events : Nat → ContenderEvent
  states : Nat → Contender
  start : states 0 = contender
  step : ∀ n, (states n).step? (events n) = some (states (n + 1))

namespace Course

variable (course : contender.Course)

theorem raised (hRaised : contender.context.aborted = true) (n : Nat) :
    (course.states n).context.aborted = true := by
  induction n with
  | zero =>
    rw [course.start]
    exact hRaised
  | succ n ih => exact (follows_of_step? (course.step n)).raised ih

theorem sound (hSound : contender.Sound) (n : Nat) : (course.states n).Sound := by
  induction n with
  | zero =>
    rw [course.start]
    exact hSound
  | succ n ih => exact ih.step (transition_of_step? (course.step n))

/-- A step is no event for the worker, or it leaves the worker less to do. -/
theorem workLeft_lt (hRaised : contender.context.aborted = true) (n : Nat) :
    (course.states n).metOf (course.events n) = [] ∧
        (course.states (n + 1)).worker = (course.states n).worker ∨
      (course.states (n + 1)).worker.workLeft < (course.states n).worker.workLeft := by
  have hFollows := follows_of_step? (course.step n)
  exact Worker.workLeft_lt_of_run? hFollows.run_eq (hFollows.ne_cleared (course.raised hRaised n))

theorem workLeft_le (hRaised : contender.context.aborted = true) {n m : Nat} (hLe : n ≤ m) :
    (course.states m).worker.workLeft ≤ (course.states n).worker.workLeft := by
  induction m, hLe using Nat.le_induction with
  | base => exact le_refl _
  | succ m hLe ih =>
    obtain ⟨-, hSame⟩ | hLess := course.workLeft_lt hRaised m
    · rw [hSame]
      exact ih
    · exact hLess.le.trans ih

/-- From time to time, as long as it is not over, the worker advances. -/
def Fair : Prop :=
  ∀ n, ∃ m, n ≤ m ∧ ((course.states m).worker.phase.isOver ∨
    (course.states m).Advances (course.events m))

/-- **The worker ends.**  What it has left to do cannot get less without an end. -/
theorem exists_isOver (hRaised : contender.context.aborted = true) (hFair : course.Fair) :
    ∃ n, (course.states n).worker.phase.isOver := by
  have hEnds : ∀ left n, (course.states n).worker.workLeft = left →
      ∃ m, (course.states m).worker.phase.isOver := by
    intro left
    induction left using WellFoundedLT.induction with
    | ind left ih =>
      rintro n rfl
      obtain ⟨m, hLe, hOver | hAdvances⟩ := hFair n
      · exact ⟨m, hOver⟩
      · obtain ⟨hNone, -⟩ | hLess := course.workLeft_lt hRaised m
        · exact absurd hNone ((follows_of_step? (course.step m)).advances hAdvances)
        · exact ih _ (hLess.trans_le (course.workLeft_le hRaised hLe)) (m + 1) rfl
  exact hEnds _ 0 rfl

end Course

theorem exists_course (hRun : contender.run? events = some last) :
    ∃ course : contender.Course, ∀ n, events.length ≤ n → course.states n = last := by
  induction events generalizing contender with
  | nil =>
    obtain rfl := Option.some.inj hRun
    refine ⟨⟨fun _ => .elsewhere contender.context, fun _ => contender, rfl, fun _ => ?_⟩,
      fun _ _ => rfl⟩
    rw [step?, meet, Bool.or_self]
  | cons event later ih =>
    obtain ⟨next, hStep, hRest⟩ := Option.bind_eq_some_iff.mp hRun
    obtain ⟨course, hLast⟩ := ih hRest
    refine ⟨⟨fun n => n.casesOn event course.events, fun n => n.casesOn contender course.states,
      rfl, fun n => ?_⟩, fun n hLe => ?_⟩
    · cases n with
      | zero =>
        show contender.step? event = some (course.states 0)
        rw [course.start]
        exact hStep
      | succ n => exact course.step n
    · cases n with
      | zero => cases hLe
      | succ n => exact hLast n (Nat.le_of_succ_le_succ hLe)

/-- Nothing but the lock keeps the worker from advancing. -/
theorem exists_advances (hLive : contender.worker.phase.isOver = false)
    (hWay : contender.request? = none ∨
      contender.missed? = none ∧ contender.context.store.held = false) :
    ∃ event next, contender.step? event = some next ∧ contender.Advances event := by
  cases hRequest : contender.request? with
  | none =>
    obtain ⟨met, worker, hStep, hLook⟩ :=
      Worker.exists_step_of_idle hLive hRequest contender.context.aborted
    have hSees : contender.sees met = true := by
      cases met with
      | looked look =>
        rw [hLook look rfl]
        exact decide_eq_true rfl
      | _ => rfl
    have hMoved : ∃ next, contender.step? (.moved met) = some next := by
      rw [step?, if_pos ⟨hRequest, hSees⟩, hStep, Option.map_some]
      exact ⟨_, rfl⟩
    obtain ⟨next, hNext⟩ := hMoved
    exact ⟨.moved met, next, hNext, trivial⟩
  | some request =>
    obtain hNone | ⟨hMissed, hFree⟩ := hWay
    · rw [hRequest] at hNone
      cases hNone
    have hAttempt : (contender.context.store.attempt contender.context.aborted).free = true := by
      rw [Exclusion.attempt, hFree]
      rfl
    have hOver := request.patience.acquire_concat_ne_waiting hAttempt contender.attempts
    obtain ⟨worker, hWorker⟩ := request.exists_step hRequest contender.context hOver
    have hTried : ∃ next, contender.step? (.tried [.accepted 0] .whole) = some next := by
      rw [step?, hMissed, hRequest]
      dsimp only
      rw [hFree, if_neg Bool.false_ne_true, attempted?]
      dsimp only
      rw [if_neg hOver, hWorker, Option.map_some]
      exact ⟨_, rfl⟩
    obtain ⟨next, hNext⟩ := hTried
    exact ⟨.tried [.accepted 0] .whole, next, hNext, hFree⟩

/-! ## The end -/

/-- **Once the abort signal is raised, the worker ends.**  It may be raised anywhere in a run, and
others may act, take the lock and give it back as they like: if from time to time, as long as it is
not over, the worker makes a step of its own or tries the lock while it is free, it is over after
finitely many steps, with a summary unless a fault was planned; and nothing keeps it from such a
step but the lock.  After the signal is raised at most one read answers, and none unless one was
under way.  What is committed after it is the packet that was in hand, and then lines of what was
buffered and of what that read brings. -/
theorem ends_of_raised {id maxPacketBytes chunkSize : Nat} {context : Context}
    {before : List ContenderEvent}
    (hBefore : (start id maxPacketBytes chunkSize context).run? before = some contender)
    (hRaised : contender.context.aborted = true) :
    (∀ course : contender.Course, course.Fair → ∃ n, (course.states n).worker.phase.isOver ∧
      (context.faults.plan = [] →
        ∃ summary, (course.states n).worker.thread = .ended summary)) ∧
    ∀ after last, contender.run? after = some last →
      let met := contender.metIn after
      (last.worker.phase.isOver = false →
        last.request? = none ∨ last.missed? = none ∧ last.context.store.held = false →
          ∃ event next, last.step? event = some next ∧ last.Advances event) ∧
      met.countP WorkerEvent.isRead ≤ 1 ∧
      (contender.worker.phase ≠ .receiving → Worker.receivedIn met = []) ∧
      contender.worker.committedIn met <+: contender.worker.phase.inHand ++
        lines (contender.worker.assembler.pending ++ Worker.receivedIn met) := by
  refine ⟨fun course hFair => ?_, fun after last hAfter => ?_⟩
  · obtain ⟨n, hOver⟩ := course.exists_isOver hRaised hFair
    refine ⟨n, hOver, fun hUnplanned => Worker.exists_ended hOver ?_⟩
    have hSound : contender.Sound :=
      (sound_start id maxPacketBytes chunkSize hUnplanned).run hBefore
    exact (course.sound hSound n).live
  · intro met
    have hMet : contender.worker.run? met = some last.worker := run?_metIn hAfter
    have hReads := Worker.countP_isRead_le hMet (metIn_raised hRaised hAfter)
    refine ⟨exists_advances, hReads.trans (Bool.toNat_le _), fun hNot => ?_,
      Worker.committedIn_isPrefix (run?_metIn hBefore) hMet⟩
    have hIdle : contender.worker.phase.receives = false := by
      cases hPhase : contender.worker.phase with
      | receiving => exact absurd hPhase hNot
      | _ => rfl
    rw [hIdle] at hReads
    exact Worker.receivedIn_eq_nil (Nat.le_zero.mp hReads)

/-- The signal is raised while a read is under way and another has the lock.  The read brings a line
and the beginning of another; the commit gives up once and then waits, and the echo is cut short. -/
theorem ends_of_raised_of_read :
    let context : Context := { store := { value := .inMemory { capacity := 2 } } }
    let busy : Context := { store := { value := .inMemory { capacity := 2 }, held := true } }
    let timeout : IoFailure := ⟨.wouldBlock, "Resource temporarily unavailable (os error 11)"⟩
    let before : List ContenderEvent :=
      [.moved .polled, .moved (.looked false), .elsewhere busy.raise]
    let after : List ContenderEvent :=
      [.moved (.received (.received [97, 10, 98]) true), .tried [] .whole, .looked,
        .tried [] .whole, .looked, .elsewhere context, .tried [] .whole, .tried [] .whole,
        .moved (.sent (.sent 1)), .moved (.sent (.failed timeout)), .moved (.looked true)]
    ∃ contender, (start 1 16 16 context).run? before = some contender ∧
      contender.context.aborted = true ∧
      (∃ course : contender.Course, course.Fair ∧
        ∃ n summary, (course.states n).worker.thread = .ended summary) ∧
      (contender.metIn after).countP WorkerEvent.isRead = 1 ∧
      contender.worker.committedIn (contender.metIn after) = [[97, 10]] ∧
      contender.worker.committedIn (contender.metIn after) <+: lines [97, 10, 98] := by
  intro context busy timeout before after
  obtain ⟨contender, last, hBefore, hRaised, hAfter, hOver, hReceived, hReads, hCommitted, hHand,
      hPending⟩ : ∃ contender last, (start 1 16 16 context).run? before = some contender ∧
        contender.context.aborted = true ∧ contender.run? after = some last ∧
        last.worker.phase.isOver = true ∧
        Worker.receivedIn (contender.metIn after) = [97, 10, 98] ∧
        (contender.metIn after).countP WorkerEvent.isRead = 1 ∧
        contender.worker.committedIn (contender.metIn after) = [[97, 10]] ∧
        contender.worker.phase.inHand = [] ∧ contender.worker.assembler.pending = [] :=
    ⟨_, _, rfl, rfl, rfl, rfl, rfl, rfl, rfl, rfl, rfl⟩
  obtain ⟨hEnds, hMeets⟩ := ends_of_raised hBefore hRaised
  obtain ⟨course, hLast⟩ := exists_course hAfter
  have hFair : course.Fair := fun n =>
    ⟨max n after.length, Nat.le_max_left _ _, Or.inl (by
      rw [hLast _ (Nat.le_max_right _ _)]
      exact hOver)⟩
  obtain ⟨n, -, hSummary⟩ := hEnds course hFair
  obtain ⟨summary, hEnded⟩ := hSummary rfl
  obtain ⟨-, -, -, hPrefix⟩ := hMeets after last hAfter
  rw [hReceived, hHand, hPending, List.nil_append, List.nil_append] at hPrefix
  exact ⟨contender, hBefore, hRaised, ⟨course, hFair, n, summary, hEnded⟩, hReads, hCommitted,
    hPrefix⟩

end Contender

end PacketLog
