import PacketLog.Proofs.Stamper.Steps
import PacketLog.Proofs.Supervisor.Returns

/-!
# How a service with an appender ends

A stamped service is a supervisor, with the books of its threads, beside the appender that it has
spawned and a clock.  The appender's commits and its end are steps of both.

The appender breaks off in one way only: there is no instant one interval after the beginning of
a record that it has committed (`Sound.overflow`).  That is for the clock to say, not for the
command line, which takes intervals that are too long for any record
(`left_behind_of_long_interval`).  A service whose appender does not break off reports its count and
deletes its file, and once the abort signal is raised the appender and the supervisor are done in a
few steps (`exit_run`).
-/

namespace PacketLog

namespace Clock

theorem later?_eq_none_iff {now duration : Nat} :
    later? now duration = none ↔ bound ≤ now + duration := by
  rw [later?, ite_eq_right_iff]
  simp

end Clock

theorem Context.commit_ne_crash {context : Context} (hUnplanned : context.Unplanned)
    (patience : Patience) (attempts : List Attempt) (entry : Entry) (answers : List WriteAnswer) :
    (context.commit patience attempts entry answers).1 ≠ .crash := by
  rw [commit]
  cases patience.acquire attempts with
  | acquired =>
    rcases hAppend : context.store.value.append context.files entry answers with
      ⟨outcome, store, files⟩
    show (context.appendHeld entry answers).1 ≠ .crash
    rw [appendHeld_eq hUnplanned hAppend]
    obtain ⟨hWhole, -⟩ := Store.of_append hAppend
    intro hCrash
    cases outcome with
    | crash => exact hWhole rfl
    | _ => cases hCrash
  | interrupted | waiting =>
    intro hCrash
    cases hCrash

def Stamper.thread? (stamper : Stamper) : Option StamperThread :=
  match stamper.phase with
  | .stopped => some (.returned stamper.appended)
  | .broken => some .broken
  | _ => none

theorem Stamper.ne_of_thread? {stamper : Stamper} {thread : StamperThread}
    (hThread : stamper.thread? = some thread) : thread ≠ .running ∧ thread ≠ .absent := by
  rw [thread?] at hThread
  split at hThread
  · obtain rfl := Option.some.inj hThread
    constructor <;> intro hSame <;> cases hSame
  · obtain rfl := Option.some.inj hThread
    decide
  · cases hThread

def SupervisorEvent.isStampers : SupervisorEvent → Bool
  | .stamperEnded _ => true
  | event => Supervisor.callerOf? event = some .stamper

structure StampedService where
  muster : Muster
  stamper : Stamper
  /-- The instant of the clock. -/
  now : Nat
deriving DecidableEq

inductive StampedServiceEvent
  /-- Something that is none of the appender's doing. -/
  | elsewhere (event : SupervisorEvent)
  | passed (duration : Nat)
  /-- The appender goes on without the store. -/
  | moved (event : StamperEvent)
  /-- The appender commits its record after these attempts on the lock; the write calls of a file
  answer as given. -/
  | committed (attempts : List Attempt) (answers : List WriteAnswer)
  /-- The thread of the appender ends. -/
  | ended

def StampedServiceEvent.isOwn : StampedServiceEvent → Bool
  | .elsewhere _ => false
  | .passed _ => false
  | _ => true

/-- The event is a step of the appender, or one of the supervisor on the way to its end. -/
def StampedServiceEvent.isShutdown : StampedServiceEvent → Bool
  | .elsewhere event => event.isShutdown
  | .passed _ => false
  | _ => true

namespace StampedService

def supervisor (service : StampedService) : Supervisor := service.muster.supervisor

def context (service : StampedService) : Context := service.muster.supervisor.context

/-- A service that has been set up.  It is yet to spawn its appender. -/
def start (context : Context) (config : ServiceConfig) (now : Nat) : StampedService where
  muster := { supervisor := { context := context, stamped := config.stampSeconds.isSome } }
  stamper := { interval := Clock.ofSeconds (config.stampSeconds.getD 0) }
  now := now

def sees (service : StampedService) : StamperEvent → Bool
  | .looked aborted => aborted = service.context.aborted
  | .begun now _ => now = service.now
  | .woken now aborted => now = service.now ∧ aborted = service.context.aborted
  | .committed _ => false

def step? (service : StampedService) : StampedServiceEvent → Option StampedService
  | .elsewhere event =>
    if event.isStampers then none
    else (service.muster.step? event).map fun muster => { service with muster := muster }
  | .passed duration => some { service with now := service.now + duration }
  | .moved event =>
    if service.supervisor.stamper = .running ∧ service.sees event then
      (service.stamper.step? event).map fun stamper => { service with stamper := stamper }
    else none
  | .committed attempts answers => do
    let record ← service.stamper.record?
    let muster ←
      service.muster.step? (.committed .stamper .interruptible attempts record answers)
    let (outcome, _) := service.context.commit .interruptible attempts record answers
    let stamper ← service.stamper.step? (.committed outcome)
    return { service with muster := muster, stamper := stamper }
  | .ended => do
    let thread ← service.stamper.thread?
    let muster ← service.muster.step? (.stamperEnded thread)
    return { service with muster := muster }

def run? (service : StampedService) : List StampedServiceEvent → Option StampedService
  | [] => some service
  | event :: later => (service.step? event).bind fun next => next.run? later

/-! ## What one step can be -/

variable {service next last : StampedService} {event : StampedServiceEvent}
  {events : List StampedServiceEvent}

inductive Transition (service : StampedService) : StampedServiceEvent → StampedService → Prop
  | elsewhere {event : SupervisorEvent} {supervisor : Supervisor}
      (hOthers : event.isStampers = false)
      (hStep : service.supervisor.step? event = some supervisor) :
      Transition service (.elsewhere event)
        { service with muster := service.muster.after event supervisor }
  | passed (duration : Nat) :
      Transition service (.passed duration) { service with now := service.now + duration }
  | moved {event : StamperEvent} {stamper : Stamper}
      (hRunning : service.supervisor.stamper = .running) (hSees : service.sees event = true)
      (hStep : service.stamper.Transition event stamper) :
      Transition service (.moved event) { service with stamper := stamper }
  | committed {record : Entry} {attempts : List Attempt} {answers : List WriteAnswer}
      {supervisor : Supervisor} {outcome : Outcome Unit} {context : Context} {stamper : Stamper}
      (hCommit : service.context.commit .interruptible attempts record answers =
        (outcome, context))
      (hCall : service.supervisor.step?
        (.committed .stamper .interruptible attempts record answers) = some supervisor)
      (hStep : service.stamper.Transition (.committed outcome) stamper) :
      Transition service (.committed attempts answers)
        { service with
          muster := service.muster.after
            (.committed .stamper .interruptible attempts record answers) supervisor
          stamper := stamper }
  | ended {thread : StamperThread} {supervisor : Supervisor}
      (hThread : service.stamper.thread? = some thread)
      (hStep : service.supervisor.step? (.stamperEnded thread) = some supervisor) :
      Transition service .ended
        { service with muster := service.muster.after (.stamperEnded thread) supervisor }

theorem transition_of_step? (hStep : service.step? event = some next) :
    Transition service event next := by
  cases event with
  | elsewhere event =>
    obtain ⟨hOthers, hNext⟩ := Option.ite_none_left_eq_some.mp hStep
    obtain ⟨muster, hMuster, rfl⟩ := Option.map_eq_some_iff.mp hNext
    obtain ⟨supervisor, hSupervisor, rfl⟩ := Option.map_eq_some_iff.mp hMuster
    exact .elsewhere (Bool.eq_false_iff.mpr hOthers) hSupervisor
  | passed duration =>
    obtain rfl := Option.some.inj hStep
    exact .passed duration
  | moved event =>
    obtain ⟨⟨hRunning, hSees⟩, hNext⟩ := Option.ite_none_right_eq_some.mp hStep
    obtain ⟨stamper, hStamper, rfl⟩ := Option.map_eq_some_iff.mp hNext
    exact .moved hRunning hSees (Stamper.transition_of_step? hStamper)
  | committed attempts answers =>
    obtain ⟨record, -, hRest⟩ := Option.bind_eq_some_iff.mp hStep
    obtain ⟨muster, hMuster, hRest⟩ := Option.bind_eq_some_iff.mp hRest
    obtain ⟨stamper, hStamper, hNext⟩ := Option.bind_eq_some_iff.mp hRest
    obtain rfl := Option.some.inj hNext
    obtain ⟨supervisor, hSupervisor, rfl⟩ := Option.map_eq_some_iff.mp hMuster
    exact .committed rfl hSupervisor (Stamper.transition_of_step? hStamper)
  | ended =>
    obtain ⟨thread, hThread, hRest⟩ := Option.bind_eq_some_iff.mp hStep
    obtain ⟨muster, hMuster, hNext⟩ := Option.bind_eq_some_iff.mp hRest
    obtain rfl := Option.some.inj hNext
    obtain ⟨supervisor, hSupervisor, rfl⟩ := Option.map_eq_some_iff.mp hMuster
    exact .ended hThread hSupervisor

/-! ## What a run keeps -/

/-- What the supervisor takes the appender's thread for is what the appender has come to. -/
def Agrees (stamper : Stamper) : StamperThread → Prop
  | .returned stamps => stamper.phase = .stopped ∧ stamps = stamper.appended
  | .broken => stamper.phase = .broken
  | _ => True

structure Sound (origin : Context) (seconds : Nat) (service : StampedService) : Prop where
  accounted : service.muster.Accounted
  stamped : service.supervisor.stamped = true
  inOrder : service.supervisor.InOrder origin service.supervisor.phase
  interval_eq : service.stamper.interval = Clock.ofSeconds seconds
  begun : ∀ started record, service.stamper.phase = .committing started record →
    started ≤ service.now
  /-- The appender breaks off for want of a later instant. -/
  overflow : service.stamper.phase = .broken →
    ∃ started ≤ service.now, Clock.bound ≤ started + Clock.ofSeconds seconds
  agrees : Agrees service.stamper service.supervisor.stamper

variable {origin : Context} {seconds : Nat}

theorem sound_start (hFresh : origin.workers = {}) {config : ServiceConfig}
    (hSeconds : config.stampSeconds = some seconds) (now : Nat) :
    (start origin config now).Sound origin seconds where
  accounted := Muster.accounted_of_fresh hFresh _
  stamped := by
    show config.stampSeconds.isSome = true
    rw [hSeconds]
    rfl
  inOrder := ⟨rfl, .refl origin⟩
  interval_eq := by
    show Clock.ofSeconds (config.stampSeconds.getD 0) = _
    rw [hSeconds]
    rfl
  begun := fun started record hPhase => by cases hPhase
  overflow := fun hPhase => by cases hPhase
  agrees := trivial

/-- The appender's thread is left alone by everybody else, once it is spawned. -/
theorem stamper_of_others {supervisor after : Supervisor} {event : SupervisorEvent}
    (hOthers : event.isStampers = false) (hStep : supervisor.step? event = some after) :
    after.stamper = supervisor.stamper ∨
      supervisor.phase = .starting ∧ after.stamper = .running := by
  cases Supervisor.transition_of_step? hStep with
  | stamperSpawned hPhase => exact Or.inr ⟨hPhase, rfl⟩
  | stamperNotSpawned _ _ hClose | closed _ hClose =>
    obtain ⟨hStamper, -⟩ := Supervisor.of_closeStore hClose
    exact Or.inl hStamper
  | stamperEnded => cases hOthers
  | _ => exact Or.inl rfl

theorem stamped_of_step {supervisor after : Supervisor} {event : SupervisorEvent}
    (hStep : supervisor.step? event = some after) : after.stamped = supervisor.stamped := by
  cases Supervisor.transition_of_step? hStep with
  | stamperNotSpawned _ _ hClose | closed _ hClose =>
    obtain ⟨-, hStamped, -⟩ := Supervisor.of_closeStore hClose
    exact hStamped
  | _ => rfl

theorem stamper_of_call {supervisor after : Supervisor} {patience : Patience}
    {attempts : List Attempt} {entry : Entry} {answers : List WriteAnswer}
    (hStep : supervisor.step? (.committed .stamper patience attempts entry answers) = some after) :
    supervisor.stamper = .running ∧ after.stamper = .running := by
  rw [Supervisor.step?_committed] at hStep
  obtain ⟨hRunning, hNext⟩ := Option.ite_none_right_eq_some.mp hStep
  obtain rfl := Option.some.inj hNext
  exact ⟨of_decide_eq_true hRunning, of_decide_eq_true hRunning⟩

theorem stamper_of_ended {supervisor after : Supervisor} {thread : StamperThread}
    (hStep : supervisor.step? (.stamperEnded thread) = some after) :
    supervisor.stamper = .running ∧ after.stamper = thread := by
  rw [Supervisor.step?_stamperEnded] at hStep
  obtain ⟨⟨hRunning, -⟩, hNext⟩ := Option.ite_none_right_eq_some.mp hStep
  obtain rfl := Option.some.inj hNext
  exact ⟨of_decide_eq_true hRunning, rfl⟩

theorem agrees_of_thread? {stamper : Stamper} {thread : StamperThread}
    (hThread : stamper.thread? = some thread) : Agrees stamper thread := by
  rw [Stamper.thread?] at hThread
  split at hThread
  · next hPhase =>
    obtain rfl := Option.some.inj hThread
    exact ⟨hPhase, rfl⟩
  · next hPhase =>
    obtain rfl := Option.some.inj hThread
    exact hPhase
  · cases hThread

/-- **The appender breaks off for want of a later instant**, when it has committed its record. -/
theorem overflow_of_committed {stamper after : Stamper} {outcome : Outcome Unit}
    (hStep : stamper.Transition (.committed outcome) after) (hWhole : outcome ≠ .crash)
    (hBroken : after.phase = .broken) :
    ∃ started record, stamper.phase = .committing started record ∧
      Clock.bound ≤ started + stamper.interval := by
  cases hStep with
  | overflowed hPhase hLater => exact ⟨_, _, hPhase, Clock.later?_eq_none_iff.mp hLater⟩
  | crashed => exact absurd rfl hWhole
  | committed | commitFailed => cases hBroken

/-- Of an appender with a record in hand, a step that counts it shows whether it breaks off. -/
theorem broken_iff_of_step {started : Nat} {record : Entry}
    (hPhase : service.stamper.phase = .committing started record)
    (hStep : service.step? event = some next)
    (hAppended : next.stamper.appended ≠ service.stamper.appended) :
    next.stamper.phase = .broken ↔ Clock.bound ≤ started + service.stamper.interval := by
  cases transition_of_step? hStep with
  | elsewhere | passed | ended => exact absurd rfl hAppended
  | moved _ hSees hStamper =>
    obtain ⟨hSame, -⟩ := hStamper.away fun outcome hCommitted => by
      rw [hCommitted] at hSees
      cases hSees
    exact absurd hSame hAppended
  | committed _ _ hStamper =>
    cases hStamper with
    | committed hBefore hLater =>
      obtain ⟨rfl, -⟩ := StamperPhase.committing.inj (hPhase.symm.trans hBefore)
      rw [← Clock.later?_eq_none_iff, hLater]
      exact ⟨nofun, nofun⟩
    | overflowed hBefore hLater =>
      obtain ⟨rfl, -⟩ := StamperPhase.committing.inj (hPhase.symm.trans hBefore)
      exact ⟨fun _ => Clock.later?_eq_none_iff.mp hLater, fun _ => rfl⟩
    | commitFailed | crashed => exact absurd rfl hAppended

section Steps

variable (hUnplanned : origin.Unplanned)
  (hRemovable : ∀ path, origin.store.value.path? = some path → origin.files.Removable path)

include hUnplanned hRemovable

/-- What the books say of the appender is so, whoever acts. -/
theorem Sound.step (hSound : service.Sound origin seconds)
    (hStep : service.step? event = some next) : next.Sound origin seconds := by
  have hMustered {event : SupervisorEvent} {supervisor : Supervisor}
      (hSupervisor : service.supervisor.step? event = some supervisor) :
      (service.muster.after event supervisor).Accounted ∧ supervisor.stamped = true ∧
        supervisor.InOrder origin supervisor.phase :=
    ⟨hSound.accounted.step (Supervisor.transition_of_step? hSupervisor),
      (stamped_of_step hSupervisor).trans hSound.stamped,
      hSound.accounted.inOrder hUnplanned hRemovable hSound.stamped hSound.inOrder hSupervisor⟩
  cases transition_of_step? hStep with
  | @elsewhere event supervisor hOthers hSupervisor =>
    obtain ⟨hAccounted, hStamped, hOrder⟩ := hMustered hSupervisor
    refine ⟨hAccounted, hStamped, hOrder, hSound.interval_eq, hSound.begun, hSound.overflow, ?_⟩
    show Agrees service.stamper supervisor.stamper
    obtain hSame | ⟨-, hRunning⟩ := stamper_of_others hOthers hSupervisor
    · rw [hSame]
      exact hSound.agrees
    · rw [hRunning]
      trivial
  | passed duration =>
    refine ⟨hSound.accounted, hSound.stamped, hSound.inOrder, hSound.interval_eq, ?_, ?_,
      hSound.agrees⟩
    · intro started record hPhase
      exact Nat.le_add_right_of_le (hSound.begun started record hPhase)
    · intro hBroken
      obtain ⟨started, hStarted, hBound⟩ := hSound.overflow hBroken
      exact ⟨started, Nat.le_add_right_of_le hStarted, hBound⟩
  | @moved event stamper hRunning hSees hStamper =>
    obtain ⟨-, hWhole, -, hBegun⟩ := hStamper.away fun outcome hCommitted => by
      rw [hCommitted] at hSees
      cases hSees
    refine ⟨hSound.accounted, hSound.stamped, hSound.inOrder,
      hStamper.interval_eq.trans hSound.interval_eq, ?_, fun hBroken => absurd hBroken hWhole, ?_⟩
    · intro started record hPhase
      obtain ⟨moment, rfl⟩ := hBegun started record hPhase
      exact Nat.le_of_eq (of_decide_eq_true hSees)
    · show Agrees stamper service.supervisor.stamper
      rw [hRunning]
      trivial
  | @committed record attempts answers supervisor outcome context stamper hCommit hCall hStamper =>
    obtain ⟨hAccounted, hStamped, hOrder⟩ := hMustered hCall
    obtain ⟨hBefore, hAfter⟩ := stamper_of_call hCall
    have hRunning : service.supervisor.isRunning .stamper = true := decide_eq_true hBefore
    obtain ⟨-, hSame⟩ := hSound.inOrder.busy (hSound.accounted.busy hRunning)
    have hWhole : outcome ≠ .crash := by
      have hReturns := (service.context.commit_ne_crash (hSame.unplanned hUnplanned)
        .interruptible attempts record answers)
      rwa [hCommit] at hReturns
    refine ⟨hAccounted, hStamped, hOrder, hStamper.interval_eq.trans hSound.interval_eq, ?_, ?_, ?_⟩
    · intro started record hPhase
      cases hStamper <;> cases hPhase
    · intro hBroken
      obtain ⟨started, record, hPhase, hBound⟩ := overflow_of_committed hStamper hWhole hBroken
      exact ⟨started, hSound.begun started record hPhase, hSound.interval_eq ▸ hBound⟩
    · show Agrees stamper supervisor.stamper
      rw [hAfter]
      trivial
  | @ended thread supervisor hThread hSupervisor =>
    obtain ⟨hAccounted, hStamped, hOrder⟩ := hMustered hSupervisor
    refine ⟨hAccounted, hStamped, hOrder, hSound.interval_eq, hSound.begun, hSound.overflow, ?_⟩
    show Agrees service.stamper supervisor.stamper
    rw [(stamper_of_ended hSupervisor).2]
    exact agrees_of_thread? hThread

theorem Sound.run (hSound : service.Sound origin seconds) (hRun : service.run? events = some last) :
    last.Sound origin seconds := by
  induction events generalizing service with
  | nil =>
    obtain rfl := Option.some.inj hRun
    exact hSound
  | cons event later ih =>
    obtain ⟨next, hStep, hRest⟩ := Option.bind_eq_some_iff.mp hRun
    exact ih (hSound.step hUnplanned hRemovable hStep) hRest

end Steps

/-! ## After the signal -/

/-- How many steps the appender has before it once the signal is raised, until its thread ends. -/
def stepsLeftIn (phase : StamperPhase) : StamperThread → Nat
  | .returned _ => 0
  | .broken => 0
  | _ =>
    match phase with
    | .starting => 4
    | .committing _ _ => 3
    | .checking => 2
    | .sleeping _ => 2
    | .stopped => 1
    | .broken => 1

def stepsLeft (service : StampedService) : Nat :=
  stepsLeftIn service.stamper.phase service.supervisor.stamper + service.supervisor.phase.stepsLeft

theorem stepsLeft_le (service : StampedService) : service.stepsLeft ≤ 8 := by
  have hAppender (phase : StamperPhase) (thread : StamperThread) :
      stepsLeftIn phase thread ≤ 4 := by
    cases thread <;> cases phase <;> simp [stepsLeftIn]
  have hSupervisor (phase : SupervisorPhase) : phase.stepsLeft ≤ 4 := by
    cases phase <;> simp [SupervisorPhase.stepsLeft]
  exact Nat.add_le_add (hAppender _ _) (hSupervisor _)

/-- Away from the store an appender that sees the raised signal comes nearer to its end. -/
theorem stepsLeftIn_lt {stamper after : Stamper} {event : StamperEvent}
    (hAborted : service.context.aborted = true) (hSees : service.sees event = true)
    (hStep : stamper.Transition event after) :
    stepsLeftIn after.phase .running < stepsLeftIn stamper.phase .running := by
  cases hStep with
  | aborted hPhase | woken hPhase =>
    rw [hPhase]
    exact Nat.one_lt_two
  | begun hPhase =>
    rw [hPhase]
    exact Nat.lt_succ_self 3
  | unformattable hPhase =>
    rw [hPhase]
    exact (by decide : 1 < 4)
  | cleared => cases (of_decide_eq_true hSees).trans hAborted
  | due => cases (of_decide_eq_true hSees).2.trans hAborted
  | committed | overflowed | commitFailed | crashed => cases hSees

theorem stepsLeftIn_lt_of_committed {stamper after : Stamper} {outcome : Outcome Unit}
    (hStep : stamper.Transition (.committed outcome) after) :
    stepsLeftIn after.phase .running < stepsLeftIn stamper.phase .running := by
  cases hStep with
  | committed hPhase =>
    rw [hPhase]
    exact Nat.lt_succ_self 2
  | overflowed hPhase | commitFailed hPhase | crashed hPhase =>
    rw [hPhase]
    exact (by decide : 1 < 3)

theorem stepsLeftIn_lt_of_thread? {stamper : Stamper} {thread : StamperThread}
    (hThread : stamper.thread? = some thread) :
    stepsLeftIn stamper.phase thread < stepsLeftIn stamper.phase .running := by
  rw [Stamper.thread?] at hThread
  split at hThread
  · next hPhase =>
    obtain rfl := Option.some.inj hThread
    rw [hPhase]
    exact Nat.zero_lt_one
  · next hPhase =>
    obtain rfl := Option.some.inj hThread
    rw [hPhase]
    exact Nat.zero_lt_one
  · cases hThread

/-- Each of these steps is one less, and no other is one more. -/
theorem Sound.stepsLeft_step (hSound : service.Sound origin seconds)
    (hAborted : service.context.aborted = true) (hStep : service.step? event = some next) :
    next.context.aborted = true ∧
      next.stepsLeft + (if event.isShutdown then 1 else 0) ≤ service.stepsLeft := by
  cases transition_of_step? hStep with
  | @elsewhere event supervisor hOthers hSupervisor =>
    have hLess := Supervisor.stepsLeft_of_step hSupervisor
    refine ⟨Supervisor.aborted_of_step hSupervisor hAborted, ?_⟩
    have hAppender : stepsLeftIn service.stamper.phase supervisor.stamper =
        stepsLeftIn service.stamper.phase service.supervisor.stamper := by
      obtain hSame | ⟨hPhase, hRunning⟩ := stamper_of_others hOthers hSupervisor
      · rw [hSame]
      · -- An appender that is spawned only now has all its steps before it.
        have hOrder := hSound.inOrder
        rw [hPhase] at hOrder
        rw [hRunning, hOrder.1]
        rfl
    show stepsLeftIn service.stamper.phase supervisor.stamper + supervisor.phase.stepsLeft +
      (if event.isShutdown then 1 else 0) ≤ service.stepsLeft
    rw [hAppender, stepsLeft, Nat.add_assoc]
    exact Nat.add_le_add_left hLess _
  | passed duration => exact ⟨hAborted, Nat.le_refl _⟩
  | @moved event stamper hRunning hSees hStamper =>
    have hLess := stepsLeftIn_lt hAborted hSees hStamper
    refine ⟨hAborted, ?_⟩
    show stepsLeftIn stamper.phase service.supervisor.stamper +
      service.supervisor.phase.stepsLeft + 1 ≤ service.stepsLeft
    rw [stepsLeft, hRunning]
    omega
  | @committed record attempts answers supervisor outcome context stamper hCommit hCall hStamper =>
    have hLess := stepsLeftIn_lt_of_committed hStamper
    have hPhase := Supervisor.stepsLeft_of_step hCall
    obtain ⟨hBefore, hAfter⟩ := stamper_of_call hCall
    refine ⟨Supervisor.aborted_of_step hCall hAborted, ?_⟩
    show stepsLeftIn stamper.phase supervisor.stamper + supervisor.phase.stepsLeft + 1 ≤
      service.stepsLeft
    rw [hAfter, stepsLeft, hBefore]
    omega
  | @ended thread supervisor hThread hSupervisor =>
    have hLess := stepsLeftIn_lt_of_thread? hThread
    have hPhase := Supervisor.stepsLeft_of_step hSupervisor
    obtain ⟨hBefore, hAfter⟩ := stamper_of_ended hSupervisor
    refine ⟨Supervisor.aborted_of_step hSupervisor hAborted, ?_⟩
    show stepsLeftIn service.stamper.phase supervisor.stamper + supervisor.phase.stepsLeft + 1 ≤
      service.stepsLeft
    rw [hAfter, stepsLeft, hBefore]
    omega

/-- **Once the signal is raised** the appender and the supervisor take eight more steps at most. -/
theorem Sound.stepsLeft_run (hUnplanned : origin.Unplanned)
    (hRemovable : ∀ path, origin.store.value.path? = some path → origin.files.Removable path)
    (hSound : service.Sound origin seconds) (hAborted : service.context.aborted = true)
    (hRun : service.run? events = some last) :
    last.stepsLeft + events.countP StampedServiceEvent.isShutdown ≤ service.stepsLeft := by
  induction events generalizing service with
  | nil =>
    obtain rfl := Option.some.inj hRun
    exact Nat.le_refl _
  | cons event later ih =>
    obtain ⟨next, hStep, hRest⟩ := Option.bind_eq_some_iff.mp hRun
    obtain ⟨hStill, hLess⟩ := hSound.stepsLeft_step hAborted hStep
    have hLater := ih (hSound.step hUnplanned hRemovable hStep) hStill hRest
    rw [List.countP_cons]
    omega

theorem exists_own_step (hAborted : service.context.aborted = true)
    (hRunning : service.supervisor.stamper = .running) :
    ∃ event next, event.isOwn = true ∧ service.step? event = some next := by
  have hSpawned : service.supervisor.isRunning .stamper = true := decide_eq_true hRunning
  have hMoved (event : StamperEvent) (stamper : Stamper) (hSees : service.sees event = true)
      (hStep : service.stamper.step? event = some stamper) :
      ∃ event next, event.isOwn = true ∧ service.step? event = some next := by
    refine ⟨.moved event, { service with stamper := stamper }, rfl, ?_⟩
    rw [step?, if_pos ⟨hRunning, hSees⟩, hStep]
    rfl
  have hEnded (thread : StamperThread) (hThread : service.stamper.thread? = some thread) :
      ∃ event next, event.isOwn = true ∧ service.step? event = some next := by
    have hStep := service.supervisor.step?_stamperEnded thread
    rw [if_pos ⟨hSpawned, Stamper.ne_of_thread? hThread⟩] at hStep
    obtain ⟨supervisor, hSupervisor⟩ : ∃ supervisor,
        service.supervisor.step? (.stamperEnded thread) = some supervisor := ⟨_, hStep⟩
    refine ⟨.ended,
      { service with muster := service.muster.after (.stamperEnded thread) supervisor }, rfl, ?_⟩
    rw [step?, hThread]
    show ((service.supervisor.step? (.stamperEnded thread)).map _ >>= _) = some _
    rw [hSupervisor]
    rfl
  cases hPhase : service.stamper.phase with
  | checking =>
    refine hMoved (.looked true) (service.stamper.goTo .stopped) (decide_eq_true hAborted.symm) ?_
    unfold Stamper.step?
    rw [hPhase]
    rfl
  | starting =>
    refine hMoved (.begun service.now { unix := 0 })
      (service.stamper.onBegun service.now { unix := 0 }) (decide_eq_true rfl) ?_
    unfold Stamper.step?
    rw [hPhase]
  | committing started record =>
    -- It may find the lock taken, and gives up.
    obtain ⟨supervisor, hSupervisor⟩ : ∃ supervisor, service.supervisor.step?
        (.committed .stamper .interruptible [⟨false, true⟩] record []) = some supervisor :=
      ⟨_, (service.supervisor.step?_committed _ _ _ _ _).trans (if_pos hSpawned)⟩
    refine ⟨.committed [⟨false, true⟩] [],
      { service with
        muster := service.muster.after
          (.committed .stamper .interruptible [⟨false, true⟩] record []) supervisor
        stamper := service.stamper.goTo .stopped }, rfl, ?_⟩
    rw [step?, Stamper.record?, hPhase]
    show ((service.supervisor.step? _).map _ >>= _) = some _
    rw [hSupervisor]
    show (service.stamper.step? _ >>= _) = some _
    unfold Stamper.step?
    rw [hPhase]
    rfl
  | sleeping deadline =>
    refine hMoved (.woken service.now true) (service.stamper.goTo .stopped)
      (decide_eq_true ⟨rfl, hAborted.symm⟩) ?_
    unfold Stamper.step?
    rw [hPhase]
    exact if_pos rfl
  | stopped =>
    exact hEnded (.returned service.stamper.appended) (by rw [Stamper.thread?, hPhase])
  | broken => exact hEnded .broken (by rw [Stamper.thread?, hPhase])

/-- Once the workers have ended, the appender or the supervisor goes on until the service
returns. -/
theorem Sound.exists_shutdown_step (hSound : service.Sound origin seconds)
    (hAborted : service.context.aborted = true) (hSpawned : service.supervisor.stamper ≠ .absent)
    (hWorkers : ∀ id, service.supervisor.isRunning (.worker id) = false)
    (hServing : ∀ result, service.supervisor.phase ≠ .returned result) :
    ∃ event next, event.isShutdown = true ∧ service.step? event = some next := by
  by_cases hRunning : service.supervisor.stamper = .running
  · obtain ⟨event, next, hOwn, hStep⟩ := exists_own_step hAborted hRunning
    refine ⟨event, next, ?_, hStep⟩
    cases event with
    | elsewhere event | passed duration => cases hOwn
    | moved event | committed attempts answers | ended => rfl
  · have hNone : service.supervisor.context.workers.running = [] := by
      refine List.eq_nil_iff_forall_not_mem.mpr fun id hMem => ?_
      have hRuns := Supervisor.isRunning_iff.mpr (Supervisor.worker_mem_running.mpr hMem)
      cases hRuns.symm.trans (hWorkers id)
    obtain ⟨event, supervisor, hShutdown, hStep⟩ :=
      Supervisor.exists_shutdown_step hSound.inOrder hAborted hSpawned hRunning hNone hServing
    have hOthers : event.isStampers = false := by
      cases event with
      | stopped | workersJoined | stamperJoined | closed => rfl
      | _ => cases hShutdown
    refine ⟨.elsewhere event,
      { service with muster := service.muster.after event supervisor }, hShutdown, ?_⟩
    rw [step?, if_neg (by rw [hOthers]; exact Bool.false_ne_true)]
    show ((service.supervisor.step? event).map _).map _ = some _
    rw [hStep]
    rfl

/-! ## Any run -/

/-- What the program exits with follows from how the appender has ended. -/
theorem Sound.of_returned (hSound : service.Sound origin seconds) {result : Outcome ShutdownReport}
    (hPhase : service.supervisor.phase = .returned result)
    (hSpawned : service.supervisor.stamper ≠ .absent) :
    (service.stamper.phase ≠ .broken → ∃ report, result = .ok report ∧
      report.stamps = service.stamper.appended ∧ service.supervisor.exitCode? = some 0 ∧
      ∀ path, origin.store.value.path? = some path →
        service.context.files.hasPath path = false) ∧
    (service.stamper.phase = .broken → result = .error Supervisor.stamperBroken ∧
      service.supervisor.exitCode? = some 1 ∧
      ∀ path, origin.store.value.path? = some path →
        service.context.files.hasPath path = true) := by
  have hOrder := hSound.inOrder
  have hAgrees := hSound.agrees
  rw [hPhase] at hOrder
  cases hOrder with
  | notSpawned hAbsent => exact absurd hAbsent hSpawned
  | @closed report hStamper hGone =>
    rw [hStamper] at hAgrees
    obtain ⟨hStopped, hStamps⟩ := hAgrees
    refine ⟨fun _ => ⟨report, rfl, hStamps, ?_, hGone⟩, fun hBroken => ?_⟩
    · rw [Supervisor.exitCode?, hPhase]
      rfl
    · cases hStopped.symm.trans hBroken
  | abandoned hBroken hLeft =>
    rw [hBroken] at hAgrees
    refine ⟨fun hWhole => absurd hAgrees hWhole, fun _ => ⟨rfl, ?_, hLeft⟩⟩
    rw [Supervisor.exitCode?, hPhase]
    rfl

section Program

variable {files after : FileSystem} {network : Network} {options : Options} {context : Context}
  {now : Nat}

theorem sound_of_prepare (hFiles : files.WellFormed) (hLegible : files.Legible)
    (hPrepare : Program.prepare files network options = (.ok context, after))
    (hSeconds : options.stampSeconds? = some seconds)
    (hRun : (start context (Program.serviceConfig options) now).run? events = some last) :
    context.Unplanned ∧ last.Sound context seconds := by
  obtain ⟨hUnplanned, hFresh⟩ : context.Unplanned ∧ context.workers = {} := by
    obtain ⟨opened, store, -, -, rfl⟩ := Program.exists_of_prepare hPrepare
    exact ⟨rfl, rfl⟩
  have hRemovable := Program.removable_of_prepare hFiles hLegible hPrepare
  exact ⟨hUnplanned, (sound_start hFresh hSeconds now).run hUnplanned hRemovable hRun⟩

/-- **How a service with an appender ends.**  Whatever interval the command line gave, whatever the
workers and the clock do, and whenever the abort signal is raised: the appender breaks off only if
some record was begun so late, or the interval is so long, that there is no instant one interval
after it; and then it does, as soon as that record is committed.  If it has not broken off when the
service returns, its count is reported, the exit code is 0 and the data file is deleted.  If it has,
the exit code is 1 and the data file is still there.

Once the signal is raised, the appender goes on as long as its thread runs, and when the workers
have ended, the appender or the supervisor goes on until the service returns.  Together they take
eight more steps at most. -/
theorem exit_run (hFiles : files.WellFormed) (hLegible : files.Legible)
    (hPrepare : Program.prepare files network options = (.ok context, after))
    (hSeconds : options.stampSeconds? = some seconds)
    (hRun : (start context (Program.serviceConfig options) now).run? events = some last) :
    (last.stamper.phase = .broken →
      ∃ started ≤ last.now, Clock.bound ≤ started + Clock.ofSeconds seconds) ∧
    (∀ started record event next, last.stamper.phase = .committing started record →
      last.step? event = some next → next.stamper.appended ≠ last.stamper.appended →
      (next.stamper.phase = .broken ↔ Clock.bound ≤ started + Clock.ofSeconds seconds)) ∧
    (∀ result, last.supervisor.phase = .returned result → last.supervisor.stamper ≠ .absent →
      (last.stamper.phase ≠ .broken → ∃ report, result = .ok report ∧
        report.stamps = last.stamper.appended ∧ last.supervisor.exitCode? = some 0 ∧
        ∀ path, context.store.value.path? = some path →
          last.context.files.hasPath path = false) ∧
      (last.stamper.phase = .broken → result = .error Supervisor.stamperBroken ∧
        last.supervisor.exitCode? = some 1 ∧
        ∀ path, context.store.value.path? = some path →
          last.context.files.hasPath path = true)) ∧
    (last.context.aborted = true →
      (last.supervisor.stamper = .running →
        ∃ event next, event.isOwn = true ∧ last.step? event = some next) ∧
      (last.supervisor.stamper ≠ .absent →
        (∀ id, last.supervisor.isRunning (.worker id) = false) →
        (∀ result, last.supervisor.phase ≠ .returned result) →
        ∃ event next, event.isShutdown = true ∧ last.step? event = some next) ∧
      ∀ later final, last.run? later = some final →
        later.countP StampedServiceEvent.isShutdown ≤ 8) := by
  obtain ⟨hUnplanned, hSound⟩ := sound_of_prepare hFiles hLegible hPrepare hSeconds hRun
  refine ⟨hSound.overflow, ?_, fun result hPhase => hSound.of_returned hPhase, ?_⟩
  · intro started record event next hPhase hStep hAppended
    rw [← hSound.interval_eq]
    exact broken_iff_of_step hPhase hStep hAppended
  · intro hAborted
    refine ⟨exists_own_step hAborted, hSound.exists_shutdown_step hAborted,
      fun later final hLater => ?_⟩
    have hBound := hSound.stepsLeft_run hUnplanned
      (Program.removable_of_prepare hFiles hLegible hPrepare) hAborted hLater
    exact (Nat.le_add_left _ _).trans (hBound.trans last.stepsLeft_le)

/-- The signal is raised in the appender's first sleep of ten seconds. -/
theorem exit_run_of_ten_seconds :
    let arguments := ["--stamp-interval", "10", "--data-file", "/a"]
    let events : List StampedServiceEvent :=
      [.elsewhere (.started (.ok ())), .moved (.looked false), .moved (.begun 0 { unix := 0 }),
        .committed [⟨true, false⟩] [.accepted 42], .passed 1000000000, .elsewhere .raised,
        .moved (.woken 1000000000 true), .ended, .elsewhere .stopped, .elsewhere .workersJoined,
        .elsewhere .stamperJoined, .elsewhere .closed]
    ({} : FileSystem).WellFormed ∧ ({} : FileSystem).Legible ∧
    ∃ options context files last, CommandLine.parse arguments = .ok options ∧
      Program.prepare {} .reachable options = (.ok context, files) ∧
      options.stampSeconds? = some 10 ∧ files.hasPath "/a" = true ∧
      (start context (Program.serviceConfig options) 0).run? events = some last ∧
      last.supervisor.phase = .returned (.ok ⟨[], 1⟩) ∧ last.supervisor.exitCode? = some 0 ∧
      last.context.files.hasPath "/a" = false := by
  intro arguments events
  let options : Options := { dataFile := "/a" }
  let files : FileSystem := { nodes := [.directory 0 [("a", 1)], .file []], locked := [1] }
  let context : Context :=
    { store := { value := .inFile { path := "/a", inode := 1 } }, files := files }
  have hParse : CommandLine.parse arguments = .ok options := by decide +kernel
  have hPrepare : Program.prepare {} .reachable options = (.ok context, files) := by cbv
  have hEnds : ((start context (Program.serviceConfig options) 0).run? events).map
      (fun last => (last.supervisor.phase, last.supervisor.stamper, last.stamper.phase)) =
      some (.returned (.ok ⟨[], 1⟩), .returned 1, .stopped) := by cbv
  obtain ⟨last, hRun, hLast⟩ := Option.map_eq_some_iff.mp hEnds
  obtain ⟨hPhase, hRest⟩ := Prod.mk.inj hLast
  obtain ⟨hStamper, hStopped⟩ := Prod.mk.inj hRest
  obtain ⟨-, -, hReturned, -⟩ :=
    exit_run FileSystem.wellFormed_empty FileSystem.legible_empty hPrepare rfl hRun
  obtain ⟨hWhole, -⟩ := hReturned _ hPhase (by rw [hStamper]; decide)
  obtain ⟨report, -, -, hExit, hGone⟩ := hWhole (by rw [hStopped]; decide)
  exact ⟨FileSystem.wellFormed_empty, FileSystem.legible_empty, options, context, files, last,
    hParse, hPrepare, rfl, by cbv, hRun, hPhase, hExit, hGone "/a" rfl⟩

/-- The command line takes the longest interval that it can read, and there is no instant so much
later than any other: the appender breaks off after its first record, the program exits with 1, and
the data file is still there. -/
theorem left_behind_of_long_interval :
    let arguments := ["--stamp-interval", "18446744073709551615", "--data-file", "/a"]
    let events : List StampedServiceEvent :=
      [.elsewhere (.started (.ok ())), .moved (.looked false), .moved (.begun 0 { unix := 0 }),
        .committed [⟨true, false⟩] [.accepted 42], .ended, .elsewhere .raised, .elsewhere .stopped,
        .elsewhere .workersJoined, .elsewhere .stamperJoined]
    ∃ options context files last, CommandLine.parse arguments = .ok options ∧
      Program.prepare {} .reachable options = (.ok context, files) ∧
      options.stampSeconds? = some 18446744073709551615 ∧
      (start context (Program.serviceConfig options) 0).run? events = some last ∧
      last.stamper.phase = .broken ∧ last.supervisor.exitCode? = some 1 ∧
      last.context.files.hasPath "/a" = true := by
  intro arguments events
  let options : Options := { stampInterval := 18446744073709551615, dataFile := "/a" }
  let files : FileSystem := { nodes := [.directory 0 [("a", 1)], .file []], locked := [1] }
  let context : Context :=
    { store := { value := .inFile { path := "/a", inode := 1 } }, files := files }
  have hParse : CommandLine.parse arguments = .ok options := by decide +kernel
  have hPrepare : Program.prepare {} .reachable options = (.ok context, files) := by cbv
  have hEnds : ((start context (Program.serviceConfig options) 0).run? events).map
      (fun last => (last.supervisor.phase, last.supervisor.stamper, last.stamper.phase)) =
      some (.returned (.error Supervisor.stamperBroken), .broken, .broken) := by decide +kernel
  obtain ⟨last, hRun, hLast⟩ := Option.map_eq_some_iff.mp hEnds
  obtain ⟨hPhase, hRest⟩ := Prod.mk.inj hLast
  obtain ⟨hStamper, hBroken⟩ := Prod.mk.inj hRest
  obtain ⟨-, hSound⟩ :=
    sound_of_prepare FileSystem.wellFormed_empty FileSystem.legible_empty hPrepare rfl hRun
  obtain ⟨-, hReturned⟩ := hSound.of_returned hPhase (by rw [hStamper]; decide)
  obtain ⟨-, hExit, hLeft⟩ := hReturned hBroken
  exact ⟨options, context, files, last, hParse, hPrepare, rfl, hRun, hBroken, hExit,
    hLeft "/a" rfl⟩

end Program

end StampedService

end PacketLog
