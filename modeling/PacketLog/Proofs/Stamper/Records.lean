import PacketLog.Proofs.Abort.Waits
import PacketLog.Proofs.Stamper.Steps
import PacketLog.Proofs.Worker.Contention

/-!
# What the appender appends

An appender shares the store with others, who take its lock and give it back, and the abort signal
with those who raise it and wait for it.  A recorder is such an appender, with the calls that have
returned to it.  Its attempts on the lock are those of a contender (`Contender.attempted?`), and its
sleeps are waits at the signal, step by step.

The appender counts the calls that succeed, and the first that does not is its last
(`Recorder.Sound`).  Once the signal is raised, a record that has been begun is still committed, if
the lock is free, and that is all (`Recorder.Transition.recordsLeft_le`): the sleep after it ends at
once.
-/

namespace PacketLog

structure Recorder where
  stamper : Stamper
  context : Context
  /-- The abort signal, and those who raise it or wait for it. -/
  abort : Abort := {}
  /-- The attempts on the lock in the present call. -/
  attempts : List Attempt := []
  /-- What the context was at an attempt in vain, until the appender looks at the signal. -/
  missed? : Option Context := none
  /-- The thread that the last sleep is at the signal. -/
  sleeper? : Option Nat := none
  calls : List Call := []
deriving DecidableEq

inductive RecorderEvent
  /-- Others have acted at the store, and leave the context like this. -/
  | elsewhere (left : Context)
  /-- Something happens at the signal: others raise it or wait for it, the sleeper goes on, or time
  passes. -/
  | signalled (event : AbortEvent)
  /-- The appender goes on without the store. -/
  | moved (event : StamperEvent)
  /-- The appender tries the lock.  If it is free the record is appended, and the write calls of a
  file answer as given. -/
  | tried (answers : List WriteAnswer)
  /-- The appender looks at the signal after an attempt in vain. -/
  | looked

namespace Recorder

def start (interval : Nat) (context : Context) (abort : Abort) : Recorder :=
  { stamper := { interval := interval }
    context := { context with aborted := abort.flag }
    abort := abort }

/-- Whatever others do at the store, the signal is raised elsewhere, and no faults are planned. -/
def meet (recorder : Recorder) (left : Context) : Context :=
  { left with aborted := recorder.context.aborted, faults := recorder.context.faults }

def sees (recorder : Recorder) : StamperEvent → Bool
  | .looked aborted => aborted = recorder.abort.flag
  | .begun now _ => now = recorder.abort.now
  | .woken now aborted =>
    now = recorder.abort.now ∧ recorder.sleeper?.bind recorder.abort.answer? = some aborted
  | .committed _ => false

/-- A sleep begins with a new wait at the signal. -/
def fallAsleep (recorder : Recorder) : Recorder :=
  match recorder.stamper.phase with
  | .sleeping deadline =>
    { recorder with
      abort := recorder.abort.withWait deadline
      sleeper? := some recorder.abort.threads.length }
  | _ => recorder

def afterCall (recorder : Recorder) (call : Call) (stamper : Stamper) : Recorder :=
  { recorder with
    stamper := stamper
    context := call.after
    attempts := []
    missed? := none
    calls := recorder.calls ++ [call] }

/-- An attempt is over, for which the lock was tried in the context `tried`.  The call waits on, or
it returns. -/
def attempted? (recorder : Recorder) (record : Entry) (tried : Context)
    (answers : List WriteAnswer) : Option Recorder :=
  let context := recorder.context
  let attempts := recorder.attempts ++ [tried.store.attempt context.aborted]
  let acquisition := Patience.interruptible.acquire attempts
  if acquisition = .waiting then some { recorder with attempts := attempts, missed? := none }
  else
    let (outcome, after) := context.commit .interruptible attempts record answers
    (recorder.stamper.step? (.committed outcome)).map fun stamper =>
      (recorder.afterCall
        { request := .commit record .interruptible
          tried := tried
          acquisition := acquisition
          before := context
          event := .committed outcome
          after := after }
        stamper).fallAsleep

def step? (recorder : Recorder) : RecorderEvent → Option Recorder
  | .elsewhere left => some { recorder with context := recorder.meet left }
  | .signalled event =>
    (recorder.abort.step? event).map fun abort =>
      { recorder with
        abort := abort
        context := { recorder.context with aborted := abort.flag } }
  | .moved event =>
    if recorder.sees event then
      (recorder.stamper.step? event).map fun stamper => { recorder with stamper := stamper }
    else none
  | .tried answers =>
    match recorder.missed?, recorder.stamper.record? with
    | none, some record =>
      if recorder.context.store.held then
        some { recorder with missed? := some recorder.context }
      else recorder.attempted? record recorder.context answers
    | _, _ => none
  | .looked =>
    match recorder.missed?, recorder.stamper.record? with
    | some tried, some record => recorder.attempted? record tried []
    | _, _ => none

def run? (recorder : Recorder) : List RecorderEvent → Option Recorder
  | [] => some recorder
  | event :: later => (recorder.step? event).bind fun next => next.run? later

/-! ## What one step can be -/

variable {recorder next last middle : Recorder} {event : RecorderEvent}
  {events : List RecorderEvent}

inductive Transition (recorder : Recorder) : RecorderEvent → Recorder → Prop
  | elsewhere (left : Context) :
      Transition recorder (.elsewhere left) { recorder with context := recorder.meet left }
  | signalled {event : AbortEvent} {abort : Abort}
      (hStep : recorder.abort.Transition event abort) :
      Transition recorder (.signalled event)
        { recorder with
          abort := abort
          context := { recorder.context with aborted := abort.flag } }
  | moved {event : StamperEvent} {stamper : Stamper} (hSees : recorder.sees event = true)
      (hStep : recorder.stamper.Transition event stamper) :
      Transition recorder (.moved event) { recorder with stamper := stamper }
  | missed {answers : List WriteAnswer} (hHeld : recorder.context.store.held = true) :
      Transition recorder (.tried answers) { recorder with missed? := some recorder.context }
  | waited {event : RecorderEvent} {record : Entry} {attempt : Attempt}
      (hRecord : recorder.stamper.record? = some record)
      (hWaiting : Patience.interruptible.acquire (recorder.attempts ++ [attempt]) = .waiting) :
      Transition recorder event
        { recorder with attempts := recorder.attempts ++ [attempt], missed? := none }
  | returned {event : RecorderEvent} {record : Entry} {tried after : Context}
      {attempts : List Attempt} {answers : List WriteAnswer} {outcome : Outcome Unit}
      {stamper : Stamper} (hRecord : recorder.stamper.record? = some record)
      (hAttempts :
        attempts = recorder.attempts ++ [tried.store.attempt recorder.context.aborted])
      (hOver : Patience.interruptible.acquire attempts ≠ .waiting)
      (hCommit : recorder.context.commit .interruptible attempts record answers = (outcome, after))
      (hStep : recorder.stamper.Transition (.committed outcome) stamper) :
      Transition recorder event
        (recorder.afterCall
          { request := .commit record .interruptible
            tried := tried
            acquisition := Patience.interruptible.acquire attempts
            before := recorder.context
            event := .committed outcome
            after := after }
          stamper).fallAsleep

theorem transition_of_attempted? {record : Entry} {tried : Context} {answers : List WriteAnswer}
    (hRecord : recorder.stamper.record? = some record)
    (hStep : recorder.attempted? record tried answers = some next) :
    Transition recorder event next := by
  rw [attempted?] at hStep
  dsimp only at hStep
  split at hStep
  · next hWaiting =>
    obtain rfl := Option.some.inj hStep
    exact .waited hRecord hWaiting
  · next hOver =>
    obtain ⟨stamper, hStamper, rfl⟩ := Option.map_eq_some_iff.mp hStep
    exact .returned hRecord rfl hOver rfl (Stamper.transition_of_step? hStamper)

theorem transition_of_step? (hStep : recorder.step? event = some next) :
    Transition recorder event next := by
  cases event with
  | elsewhere left =>
    obtain rfl := Option.some.inj hStep
    exact .elsewhere left
  | signalled event =>
    obtain ⟨abort, hAbort, rfl⟩ := Option.map_eq_some_iff.mp hStep
    exact .signalled (Abort.transition_of_step? hAbort)
  | moved event =>
    obtain ⟨hSees, hNext⟩ := Option.ite_none_right_eq_some.mp hStep
    obtain ⟨stamper, hStamper, rfl⟩ := Option.map_eq_some_iff.mp hNext
    exact .moved hSees (Stamper.transition_of_step? hStamper)
  | tried answers =>
    rw [step?] at hStep
    split at hStep
    · next record _ hRecord =>
      split at hStep
      · next hHeld =>
        obtain rfl := Option.some.inj hStep
        exact .missed hHeld
      · exact transition_of_attempted? hRecord hStep
    · cases hStep
  | looked =>
    rw [step?] at hStep
    split at hStep
    · next tried record _ hRecord => exact transition_of_attempted? hRecord hStep
    · cases hStep

/-! ## The books -/

/-- All calls have succeeded, or the last one has failed and the appender has stopped. -/
def Settled (recorder : Recorder) : Prop :=
  (∀ call ∈ recorder.calls, call.succeeded = true) ∨
    recorder.stamper.phase = .stopped ∧ ∃ earlier call, recorder.calls = earlier ++ [call] ∧
      (∀ other ∈ earlier, other.succeeded = true) ∧ call.succeeded = false

/-- What is appended is what is counted, and the first call that fails is the last. -/
structure Sound (recorder : Recorder) : Prop where
  unplanned : recorder.context.Unplanned
  agrees : recorder.context.aborted = recorder.abort.flag
  waiting : Patience.interruptible.acquire recorder.attempts = .waiting
  waits : ∀ deadline, recorder.stamper.phase = .sleeping deadline →
    ∃ sleeper, recorder.sleeper? = some sleeper ∧ recorder.abort.Waits sleeper deadline
  returned : ∀ call ∈ recorder.calls, call.Returned
  commits : ∀ call ∈ recorder.calls, ∃ record, call.request = .commit record .interruptible
  counted : recorder.stamper.appended = recorder.calls.countP Call.succeeded
  settled : recorder.Settled
  fits : ∀ started record, recorder.stamper.phase = .committing started record →
    started + recorder.stamper.interval < Clock.bound
  whole : recorder.stamper.phase ≠ .broken

theorem sound_start (interval : Nat) {context : Context} (hUnplanned : context.Unplanned)
    (abort : Abort) : (start interval context abort).Sound where
  unplanned := hUnplanned
  agrees := rfl
  waiting := rfl
  waits := by simp [start]
  returned := by simp [start]
  commits := by simp [start]
  counted := rfl
  settled := Or.inl (by simp [start])
  fits := by simp [start]
  whole := by simp [start]

/-- No record is begun less than an interval before the end of the clock. -/
def Fits (interval : Nat) (event : RecorderEvent) : Prop :=
  ∀ now moment, event = .moved (.begun now moment) → now + interval < Clock.bound

/-- Nothing comes after a call that has failed. -/
theorem Settled.ended (hSettled : recorder.Settled) {earlier later : List Call} {call : Call}
    (hCalls : recorder.calls = earlier ++ call :: later) (hFailed : call.succeeded = false) :
    later = [] ∧ recorder.stamper.phase = .stopped := by
  have hOnce {others : List Call} (hAll : ∀ other ∈ others, other.succeeded = true)
      (hMem : call ∈ others) : False := by
    rw [hAll call hMem] at hFailed
    cases hFailed
  rcases hSettled with hAll | ⟨hStopped, before, final, hEnd, hAll, -⟩
  · exact (hOnce hAll (by rw [hCalls]; simp)).elim
  · refine ⟨?_, hStopped⟩
    rcases List.eq_nil_or_concat later with hNil | ⟨rest, other, rfl⟩
    · exact hNil
    · have hSplit : earlier ++ call :: rest ++ [other] = before ++ [final] := by
        rw [← hEnd, hCalls]
        simp
      obtain ⟨rfl, -⟩ := List.append_inj' hSplit rfl
      exact (hOnce hAll (by simp)).elim

theorem Sound.all_succeeded (hSound : recorder.Sound) (hLive : recorder.stamper.phase ≠ .stopped) :
    ∀ call ∈ recorder.calls, call.succeeded = true :=
  hSound.settled.resolve_right fun hEnded => hLive hEnded.1

theorem Sound.moved (hSound : recorder.Sound) {met : StamperEvent} {stamper : Stamper}
    (hFits : Fits recorder.stamper.interval (.moved met)) (hSees : recorder.sees met = true)
    (hStep : recorder.stamper.Transition met stamper) :
    { recorder with stamper := stamper }.Sound := by
  have hAway : ∀ outcome, met ≠ .committed outcome := by
    rintro outcome rfl
    cases hSees
  obtain ⟨hSame, hWhole, hAwake, hBegun⟩ := hStep.away hAway
  exact
    { unplanned := hSound.unplanned
      agrees := hSound.agrees
      waiting := hSound.waiting
      waits := fun deadline hPhase => absurd hPhase (hAwake deadline)
      returned := hSound.returned
      commits := hSound.commits
      counted := hSame.trans hSound.counted
      settled := Or.inl (hSound.all_succeeded hStep.live)
      fits := by
        intro started record hPhase
        obtain ⟨moment, rfl⟩ := hBegun started record hPhase
        rw [hStep.interval_eq]
        exact hFits started moment rfl
      whole := hWhole }

/-- Another step at the signal leaves the present sleep a wait there. -/
theorem Sound.signalled (hSound : recorder.Sound) {event : AbortEvent} {abort : Abort}
    (hStep : recorder.abort.Transition event abort) :
    { recorder with
      abort := abort
      context := { recorder.context with aborted := abort.flag } }.Sound :=
  { hSound with
    unplanned := hSound.unplanned
    agrees := rfl
    waits := by
      intro deadline hPhase
      obtain ⟨sleeper, hSleeper, hWaits⟩ := hSound.waits deadline hPhase
      exact ⟨sleeper, hSleeper, hWaits.step hStep⟩ }

end Recorder

namespace Context

variable {context after : Context} {patience : Patience} {attempts : List Attempt} {entry : Entry}
  {answers : List WriteAnswer} {outcome : Outcome Unit}

theorem aborted_of_commit (hUnplanned : context.Unplanned)
    (hCommit : context.commit patience attempts entry answers = (outcome, after)) :
    after.aborted = context.aborted := by
  obtain rfl : (context.commit patience attempts entry answers).2 = after := by rw [hCommit]
  apply Acquisition.enter_snd (motive := fun left : Context => left.aborted = context.aborted)
  · rfl
  · rcases hAppend : context.store.value.append context.files entry answers with
      ⟨stored, store, files⟩
    rw [appendHeld_eq hUnplanned hAppend]

end Context

theorem Call.Returned.ne_crash {call : Call} (hReturned : call.Returned) :
    call.event ≠ .committed .crash := by
  cases hReturned with
  | @committed _ _ _ _ _ _ outcome hAppend =>
    obtain ⟨hCrash, -⟩ := Store.of_append hAppend
    cases outcome with
    | crash => exact absurd rfl hCrash
    | _ => exact nofun
  | snapshotted => exact nofun
  | @givenUp request => cases request <;> exact nofun

theorem Call.Returned.of_succeeded {call : Call} (hReturned : call.Returned) {entry : Entry}
    {patience : Patience} (hRequest : call.request = .commit entry patience)
    (hSucceeded : call.succeeded = true) :
    ∃ answers evicted, call.before.store.value.append call.before.files entry answers =
      (.ok evicted, call.after.store.value, call.after.files) := by
  have hEvent : call.event = .committed (.ok ()) := of_decide_eq_true hSucceeded
  obtain ⟨-, answers, outcome, hAppend, hCommitted⟩ | ⟨-, hInterrupted, -⟩ :=
    hReturned.of_commit entry patience hRequest
  · rw [hEvent] at hCommitted
    cases outcome with
    | ok evicted => exact ⟨answers, evicted, hAppend⟩
    | _ => cases hCommitted
  · rw [hEvent] at hInterrupted
    cases hInterrupted

namespace Recorder

variable {recorder next last middle : Recorder} {event : RecorderEvent}
  {events : List RecorderEvent}

/-- A call that returns after the present attempts. -/
theorem Sound.call_returned (hSound : recorder.Sound) {record : Entry} {tried after : Context}
    {attempts : List Attempt} {answers : List WriteAnswer} {outcome : Outcome Unit}
    (hAttempts : attempts = recorder.attempts ++ [tried.store.attempt recorder.context.aborted])
    (hOver : Patience.interruptible.acquire attempts ≠ .waiting)
    (hCommit : recorder.context.commit .interruptible attempts record answers = (outcome, after)) :
    Call.Returned
        { request := .commit record .interruptible
          tried := tried
          acquisition := Patience.interruptible.acquire attempts
          before := recorder.context
          event := .committed outcome
          after := after } ∧
      after.Unplanned := by
  have hCall : (StoreRequest.commit record .interruptible).call recorder.context attempts answers
      .whole = (.committed outcome, after) := by
    rw [StoreRequest.call, hCommit]
  exact Call.returned_of_call hSound.unplanned hSound.waiting hAttempts hOver hCall

theorem Sound.afterCall (hSound : recorder.Sound) {call : Call} {outcome : Outcome Unit}
    {record : Entry} {stamper : Stamper} (hReturned : call.Returned)
    (hRequest : call.request = .commit record .interruptible)
    (hEvent : call.event = .committed outcome) (hUnplanned : call.after.Unplanned)
    (hAborted : call.after.aborted = recorder.context.aborted)
    (hStep : recorder.stamper.Transition (.committed outcome) stamper) :
    (recorder.afterCall call stamper).fallAsleep.Sound := by
  have hBefore := hSound.all_succeeded hStep.live
  have hCalls : ∀ other ∈ recorder.calls ++ [call], other.Returned ∧
      ∃ record, other.request = .commit record .interruptible := by
    intro other hMem
    rcases List.mem_append.mp hMem with hOld | hNew
    · exact ⟨hSound.returned other hOld, hSound.commits other hOld⟩
    · rw [List.mem_singleton.mp hNew]
      exact ⟨hReturned, record, hRequest⟩
  have hCounted : (recorder.calls ++ [call]).countP Call.succeeded =
      recorder.stamper.appended + if call.succeeded = true then 1 else 0 := by
    rw [List.countP_append, List.countP_singleton, hSound.counted]
  have hAgrees : call.after.aborted = recorder.abort.flag := hAborted.trans hSound.agrees
  cases hStep with
  | @committed started deadline entry hPhase hLater =>
    have hSucceeded : call.succeeded = true := by simp [Call.succeeded, hEvent]
    rw [if_pos hSucceeded] at hCounted
    exact
      { unplanned := hUnplanned
        agrees := hAgrees
        waiting := rfl
        waits := by
          intro latest hSleeping
          obtain rfl := StamperPhase.sleeping.inj hSleeping
          exact ⟨_, rfl, recorder.abort.waits_withWait _⟩
        returned := fun other hMem => (hCalls other hMem).1
        commits := fun other hMem => (hCalls other hMem).2
        counted := hCounted.symm
        settled := by
          left
          intro other hMem
          rcases List.mem_append.mp hMem with hOld | hNew
          · exact hBefore other hOld
          · rw [List.mem_singleton.mp hNew]
            exact hSucceeded
        fits := nofun
        whole := nofun }
  | overflowed hPhase hLater =>
    have hFits := hSound.fits _ _ hPhase
    rw [Clock.later?, if_pos hFits] at hLater
    cases hLater
  | commitFailed hPhase =>
    have hFailed : call.succeeded = false := by simp [Call.succeeded, hEvent]
    rw [hFailed, if_neg Bool.false_ne_true] at hCounted
    exact
      { unplanned := hUnplanned
        agrees := hAgrees
        waiting := rfl
        waits := nofun
        returned := fun other hMem => (hCalls other hMem).1
        commits := fun other hMem => (hCalls other hMem).2
        counted := hCounted.symm
        settled := Or.inr ⟨rfl, recorder.calls, call, rfl, hBefore, hFailed⟩
        fits := nofun
        whole := nofun }
  | crashed hPhase => exact absurd hEvent hReturned.ne_crash

theorem Sound.step (hSound : recorder.Sound) (hFits : Fits recorder.stamper.interval event)
    (hTransition : Transition recorder event next) : next.Sound := by
  cases hTransition with
  | elsewhere left =>
    exact
      { hSound with
        unplanned := hSound.unplanned
        agrees := hSound.agrees }
  | signalled hStep => exact hSound.signalled hStep
  | moved hSees hStep => exact hSound.moved hFits hSees hStep
  | missed hHeld =>
    exact { hSound with }
  | waited hRecord hWaiting => exact { hSound with waiting := hWaiting }
  | returned hRecord hAttempts hOver hCommit hStep =>
    obtain ⟨hReturned, hUnplanned⟩ := hSound.call_returned hAttempts hOver hCommit
    exact hSound.afterCall hReturned rfl rfl hUnplanned
      (Context.aborted_of_commit hSound.unplanned hCommit) hStep

@[simp]
theorem fallAsleep_stamper (recorder : Recorder) :
    recorder.fallAsleep.stamper = recorder.stamper := by
  rw [fallAsleep]
  split <;> rfl

theorem Transition.interval_eq (hTransition : Transition recorder event next) :
    next.stamper.interval = recorder.stamper.interval := by
  cases hTransition with
  | moved hSees hStep => exact hStep.interval_eq
  | returned hRecord hAttempts hOver hCommit hStep =>
    rw [fallAsleep_stamper]
    exact hStep.interval_eq
  | _ => rfl

theorem Sound.run (hSound : recorder.Sound)
    (hFits : ∀ event ∈ events, Fits recorder.stamper.interval event)
    (hRun : recorder.run? events = some last) : last.Sound := by
  induction events generalizing recorder with
  | nil =>
    obtain rfl := Option.some.inj hRun
    exact hSound
  | cons event later ih =>
    obtain ⟨next, hStep, hRest⟩ := Option.bind_eq_some_iff.mp hRun
    have hTransition := transition_of_step? hStep
    refine ih (hSound.step (hFits event List.mem_cons_self) hTransition) ?_ hRest
    intro other hMem
    rw [hTransition.interval_eq]
    exact hFits other (List.mem_cons_of_mem _ hMem)

/-! ## Once the signal is raised -/

end Recorder

/-- The records that may still be appended once the signal is raised. -/
def StamperPhase.recordsLeft : StamperPhase → Nat
  | .starting => 1
  | .committing _ _ => 1
  | _ => 0

theorem StamperPhase.recordsLeft_le_one (phase : StamperPhase) : phase.recordsLeft ≤ 1 := by
  cases phase <;> simp [recordsLeft]

theorem Stamper.Transition.recordsLeft_committed {stamper next : Stamper} {outcome : Outcome Unit}
    (hTransition : stamper.Transition (.committed outcome) next) :
    stamper.phase.recordsLeft = 1 ∧ next.phase.recordsLeft = 0 := by
  cases hTransition with
  | committed hPhase | overflowed hPhase | commitFailed hPhase | crashed hPhase =>
    rw [hPhase]
    exact ⟨rfl, rfl⟩

theorem Stamper.Transition.recordsLeft_le {stamper next : Stamper} {event : StamperEvent}
    (hTransition : stamper.Transition event next) (hRaised : event ≠ .looked false) :
    next.phase.recordsLeft ≤ stamper.phase.recordsLeft := by
  cases hTransition with
  | cleared => exact absurd rfl hRaised
  | begun hPhase => rw [hPhase]; exact Nat.le_refl _
  | _ => exact Nat.zero_le _

namespace Recorder

variable {recorder next last middle : Recorder} {event : RecorderEvent}
  {events : List RecorderEvent}

/-- What has become of a recorder since the signal was raised. -/
structure WindsDown (recorder last : Recorder) : Prop where
  raised : last.abort.flag = true
  calls : ∃ later, last.calls = recorder.calls ++ later ∧
    later.length + last.stamper.phase.recordsLeft ≤ recorder.stamper.phase.recordsLeft
  length_le : recorder.abort.threads.length ≤ last.abort.threads.length
  parked : ∀ thread deadline : Nat, last.abort.threads[thread]? = some (.parked deadline) →
    recorder.abort.threads[thread]? = some (.parked deadline)
  sleeper : last.sleeper? = recorder.sleeper? ∨ ∃ sleeper, last.sleeper? = some sleeper ∧
    recorder.abort.threads.length ≤ sleeper ∧ last.abort.Awake sleeper

theorem windsDown_refl (hRaised : recorder.abort.flag = true) : recorder.WindsDown recorder where
  raised := hRaised
  calls := ⟨[], (List.append_nil _).symm, (Nat.zero_add _).le⟩
  length_le := Nat.le_refl _
  parked := fun _ _ hParked => hParked
  sleeper := Or.inl rfl

/-- A sleep that begins now does not last. -/
theorem WindsDown.fallAsleep {after : Recorder} {later : List Call}
    (hWinds : recorder.WindsDown middle) (hAbort : after.abort = middle.abort)
    (hSleeper : after.sleeper? = middle.sleeper?) (hCalls : after.calls = recorder.calls ++ later)
    (hLeft : later.length + after.stamper.phase.recordsLeft ≤ recorder.stamper.phase.recordsLeft) :
    recorder.WindsDown after.fallAsleep := by
  have hStays : recorder.WindsDown after :=
    { raised := hAbort ▸ hWinds.raised
      calls := ⟨later, hCalls, hLeft⟩
      length_le := hAbort ▸ hWinds.length_le
      parked := hAbort ▸ hWinds.parked
      sleeper := by
        rw [hAbort, hSleeper]
        exact hWinds.sleeper }
  rw [Recorder.fallAsleep]
  split
  · next deadline hPhase =>
    have hStep : after.abort.Transition (.wait deadline) (after.abort.withWait deadline) :=
      .wait
    exact
      { raised := hStays.raised
        calls := ⟨later, hCalls, hLeft⟩
        length_le := hStays.length_le.trans hStep.length_le
        parked := fun thread latest hParked =>
          hStays.parked thread latest (Abort.parked_of_step hStays.raised hStep hParked)
        sleeper := Or.inr ⟨_, rfl, hStays.length_le, after.abort.awake_withWait deadline⟩ }
  · exact hStays

theorem WindsDown.step (hWinds : recorder.WindsDown middle)
    (hTransition : Transition middle event next) : recorder.WindsDown next := by
  obtain ⟨later, hCalls, hLeft⟩ := hWinds.calls
  cases hTransition with
  | elsewhere left | missed hHeld | waited hRecord hWaiting => exact { hWinds with }
  | signalled hStep =>
    exact
      { raised := hStep.flag_mono hWinds.raised
        calls := hWinds.calls
        length_le := hWinds.length_le.trans hStep.length_le
        parked := fun thread deadline hParked =>
          hWinds.parked thread deadline (Abort.parked_of_step hWinds.raised hStep hParked)
        sleeper := by
          obtain hSame | ⟨sleeper, hSleeper, hNew, hAwake⟩ := hWinds.sleeper
          · exact Or.inl hSame
          · exact Or.inr ⟨sleeper, hSleeper, hNew, hAwake.step hWinds.raised hStep⟩ }
  | @moved met stamper hSees hStep =>
    have hLooked : met ≠ .looked false := by
      rintro rfl
      rw [sees, hWinds.raised] at hSees
      cases hSees
    have hFewer := Nat.add_le_add_left (hStep.recordsLeft_le hLooked) later.length
    exact { hWinds with calls := ⟨later, hCalls, hFewer.trans hLeft⟩ }
  | returned hRecord hAttempts hOver hCommit hStep =>
    obtain ⟨hOne, hNone⟩ := hStep.recordsLeft_committed
    refine hWinds.fallAsleep rfl rfl (by rw [afterCall, hCalls, List.append_assoc]) ?_
    simp only [afterCall, List.length_append, List.length_singleton]
    omega

theorem WindsDown.run (hWinds : recorder.WindsDown middle) (hRun : middle.run? events = some last) :
    recorder.WindsDown last := by
  induction events generalizing middle with
  | nil =>
    obtain rfl := Option.some.inj hRun
    exact hWinds
  | cons event later ih =>
    obtain ⟨next, hStep, hRest⟩ := Option.bind_eq_some_iff.mp hRun
    exact ih (hWinds.step (transition_of_step? hStep)) hRest

theorem run?_append (recorder : Recorder) (earlier later : List RecorderEvent) :
    recorder.run? (earlier ++ later) =
      (recorder.run? earlier).bind fun middle => middle.run? later := by
  induction earlier generalizing recorder with
  | nil => rfl
  | cons event earlier ih => simp only [List.cons_append, run?, ih, Option.bind_assoc]

/-- Whoever sleeps now has slept since before the signal was raised. -/
theorem WindsDown.sleeps_on (hWinds : recorder.WindsDown last) {sleeper deadline : Nat}
    (hSleeper : last.sleeper? = some sleeper)
    (hParked : last.abort.threads[sleeper]? = some (.parked deadline)) :
    recorder.sleeper? = some sleeper ∧
      recorder.abort.threads[sleeper]? = some (.parked deadline) := by
  have hBefore := hWinds.parked sleeper deadline hParked
  refine ⟨?_, hBefore⟩
  obtain hSame | ⟨other, hOther, hNew, -⟩ := hWinds.sleeper
  · rw [← hSame, hSleeper]
  · obtain rfl := Option.some.inj (hSleeper.symm.trans hOther)
    rw [List.getElem?_eq_none hNew] at hBefore
    cases hBefore

/-- A sleep that has begun since the signal was raised is told so. -/
theorem WindsDown.told (hWinds : recorder.WindsDown last) {sleeper : Nat}
    (hSleeper : last.sleeper? = some sleeper) (hNew : recorder.sleeper? ≠ some sleeper) :
    (∀ answer, last.abort.answer? sleeper = some answer → answer = true) ∧
      (last.abort.holder = none →
        (last.abort.run (Abort.acts sleeper)).answer? sleeper = some true) := by
  obtain hSame | ⟨other, hOther, -, hAwake⟩ := hWinds.sleeper
  · exact absurd (hSame.symm.trans hSleeper) hNew
  · obtain rfl := Option.some.inj (hSleeper.symm.trans hOther)
    exact ⟨fun answer => hAwake.of_answer?, hAwake.answers hWinds.raised⟩

/-! ## Any run -/

/-- **What the appender reports is what it has appended.**  Others take the lock and give it back,
change the store, and raise the abort signal as they like, and calls of the store fail; only the
clock is not to end while a record is less than an interval old.  Then the appender does not break
off.  What it has counted, and reports once it has stopped, are its calls that succeeded; each of
those was one append of its record, and a call that was interrupted has changed nothing.  The first
call that does not succeed is the last.

Once the signal is raised at most one more call returns.  Nobody falls asleep at the signal any
more, so the appender sleeps only if it slept before; and a sleep that begins then is told that the
signal is raised as soon as it gets the mutex. -/
theorem records_run {interval : Nat} {context : Context} {abort : Abort}
    (hUnplanned : context.faults.plan = []) (hFits : ∀ event ∈ events, Fits interval event)
    (hRun : (start interval context abort).run? events = some last) :
    last.stamper.phase ≠ .broken ∧
    last.stamper.appended = last.calls.countP Call.succeeded ∧
    (∀ count, last.stamper.result? = some count → count = last.calls.countP Call.succeeded) ∧
    (∀ call ∈ last.calls, ∃ record, call.request = .commit record .interruptible ∧
      (call.succeeded = true → ∃ answers evicted,
        call.before.store.value.append call.before.files record answers =
          (.ok evicted, call.after.store.value, call.after.files)) ∧
      ∀ error, call.event = .committed (.error error) → error.kind = .interrupted →
        call.after = call.before) ∧
    (∀ earlier call later, last.calls = earlier ++ call :: later → call.succeeded = false →
      later = [] ∧ last.stamper.phase = .stopped) ∧
    ∀ earlier later middle, events = earlier ++ later →
      (start interval context abort).run? earlier = some middle → middle.context.aborted = true →
      (∃ more, last.calls = middle.calls ++ more ∧ more.length ≤ 1) ∧
      ∀ sleeper, last.sleeper? = some sleeper →
        (∀ deadline, last.abort.threads[sleeper]? = some (.parked deadline) →
          middle.sleeper? = some sleeper ∧
            middle.abort.threads[sleeper]? = some (.parked deadline)) ∧
        (middle.sleeper? ≠ some sleeper →
          (∀ answer, last.abort.answer? sleeper = some answer → answer = true) ∧
          (last.abort.holder = none →
            (last.abort.run (Abort.acts sleeper)).answer? sleeper = some true)) := by
  have hStart := sound_start interval hUnplanned abort
  have hSound : last.Sound := hStart.run hFits hRun
  refine ⟨hSound.whole, hSound.counted, ?_, ?_, ?_, ?_⟩
  · intro count hResult
    obtain ⟨-, hCount⟩ := Option.ite_none_right_eq_some.mp hResult
    rw [← Option.some.inj hCount]
    exact hSound.counted
  · intro call hMem
    have hReturned := hSound.returned call hMem
    obtain ⟨record, hRequest⟩ := hSound.commits call hMem
    refine ⟨record, hRequest, ?_, ?_⟩
    · intro hSucceeded
      exact hReturned.of_succeeded hRequest hSucceeded
    · intro error hError hKind
      obtain ⟨-, -, -, hSame⟩ := hReturned.of_interrupted error (by rw [hError]; rfl) hKind
      exact hSame
  · intro earlier call later hCalls hFailed
    exact hSound.settled.ended hCalls hFailed
  · intro earlier later middle hEvents hMiddle hRaised
    have hBefore : middle.Sound := by
      refine hStart.run (fun event hMem => hFits event ?_) hMiddle
      rw [hEvents]
      exact List.mem_append_left _ hMem
    have hFlag : middle.abort.flag = true := hBefore.agrees ▸ hRaised
    rw [hEvents, run?_append, hMiddle, Option.bind_some] at hRun
    have hWinds := (windsDown_refl hFlag).run hRun
    obtain ⟨more, hCalls, hLeft⟩ := hWinds.calls
    refine ⟨⟨more, hCalls, ?_⟩, ?_⟩
    · have hOne := middle.stamper.phase.recordsLeft_le_one
      omega
    · intro sleeper hSleeper
      exact ⟨fun deadline => hWinds.sleeps_on hSleeper, hWinds.told hSleeper⟩

/-- The signal is raised when the appender has just looked at it.  The second record is appended all
the same, and the sleep after it is told at once. -/
theorem records_run_of_late_signal :
    let context : Context := { store := { value := .inMemory { capacity := 2 } } }
    let second : Nat := 1000000000
    let earlier : List RecorderEvent :=
      [.moved (.looked false), .moved (.begun 0 { unix := 0 }), .tried [], .signalled (.act 0),
        .signalled (.act 0), .signalled (.pass second), .signalled (.timeout 0),
        .signalled (.act 0), .signalled (.act 0), .moved (.woken second false),
        .moved (.looked false), .signalled .raise, .signalled (.act 1)]
    let later : List RecorderEvent :=
      [.moved (.begun second { unix := 1 }), .tried [], .signalled (.act 2), .signalled (.act 2),
        .signalled (.act 2), .moved (.woken second true)]
    (∀ event ∈ earlier ++ later, Fits second event) ∧
    ∃ middle last, (start second context {}).run? earlier = some middle ∧
      middle.context.aborted = true ∧
      (start second context {}).run? (earlier ++ later) = some last ∧
      last.stamper.result? = some 2 ∧ last.calls.countP Call.succeeded = 2 ∧
      ∃ more, last.calls = middle.calls ++ more ∧ more.length ≤ 1 := by
  intro context second earlier later
  have hFits : ∀ event ∈ earlier ++ later, Fits second event := by
    intro event hMem now moment hBegun
    subst hBegun
    have hBoth : now = 0 ∨ now = second := by
      simp [earlier, later] at hMem
      exact hMem.imp And.left And.left
    rcases hBoth with rfl | rfl <;> decide
  have hAborted : ((start second context {}).run? earlier).map (·.context.aborted) = some true := by
    decide +kernel
  have hStopped : ((start second context {}).run? (earlier ++ later)).map (·.stamper.result?) =
      some (some 2) := by
    decide +kernel
  obtain ⟨middle, hMiddle, hRaised⟩ := Option.map_eq_some_iff.mp hAborted
  obtain ⟨last, hRun, hResult⟩ := Option.map_eq_some_iff.mp hStopped
  obtain ⟨-, -, hCount, -, -, hLate⟩ := records_run (by rfl) hFits hRun
  obtain ⟨hMore, -⟩ := hLate earlier later middle rfl hMiddle hRaised
  exact ⟨hFits, middle, last, hMiddle, hRaised, hRun, hResult, (hCount 2 hResult).symm, hMore⟩

end Recorder

end PacketLog
