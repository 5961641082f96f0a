import PacketLog.Proofs.Abort.Mutex

/-!
# Seeing the flag and acting on it

The flag is set without the mutex, so it can be set between the moment a thread looks at it and the
moment the thread acts on what it saw.  `Abort.step?` does both at once.  A `Watch` takes them
apart: `seen?` is what the thread with the mutex has seen, `Watch.actOn?` is `Abort.act?` with the
flag as it was then, and every look is kept in `tests`.  All other steps are those of `Abort.step?`.

`Watch.Sound` is what every run leads to.  Its last field carries the main result: once a thread has
woken the sleepers nobody sleeps, and nobody has seen the flag unset and is about to sleep.  A
thread that has seen it so has the mutex, and to wake the sleepers takes the mutex too.
-/

namespace PacketLog

structure FlagTest where
  thread : Nat
  found : Bool
  instant : Nat
deriving DecidableEq

/-- The signal, with a step between a look at the flag and what it leads to. -/
structure Watch where
  abort : Abort := {}
  /-- What the thread that has the mutex has seen of the flag, until it acts on it. -/
  seen? : Option Bool := none
  /-- All looks at the flag, the oldest first. -/
  tests : List FlagTest := []
deriving DecidableEq

namespace Watch

def look (watch : Watch) (thread : Nat) : Watch :=
  { watch with
    seen? := some watch.abort.flag
    tests := watch.tests ++ [⟨thread, watch.abort.flag, watch.abort.now⟩] }

def actOn? (watch : Watch) (thread : Nat) (seen : Bool) : Option Watch :=
  (Abort.act? { watch.abort with flag := seen } thread).map fun abort =>
    { watch with abort := { abort with flag := watch.abort.flag }, seen? := none }

/-- A thread that has to test the flag does so in two steps, with the mutex in both. -/
def step? (watch : Watch) (event : AbortEvent) : Option Watch :=
  match watch.abort.tester? event, watch.seen? with
  | some thread, none => some (watch.look thread)
  | some thread, some seen => watch.actOn? thread seen
  | none, _ => (watch.abort.step? event).map fun abort => { watch with abort := abort }

def run? (watch : Watch) : List AbortEvent → Option Watch
  | [] => some watch
  | event :: later => (watch.step? event).bind fun next => next.run? later

/-- The last test that a thread has made. -/
def lastTest? (watch : Watch) (thread : Nat) : Option FlagTest :=
  (watch.tests.filter fun test => test.thread = thread).getLast?

variable {watch next last : Watch} {event : AbortEvent} {events : List AbortEvent} {thread : Nat}

inductive Transition (watch : Watch) : AbortEvent → Watch → Prop
  | looked {thread : Nat} {phase : AbortPhase} (hPhase : watch.abort.threads[thread]? = some phase)
      (hTests : phase.tests = true) (hUnseen : watch.seen? = none) :
      Transition watch (.act thread) (watch.look thread)
  | confirmed {thread deadline : Nat}
      (hPhase : watch.abort.threads[thread]? = some (.testing deadline))
      (hSeen : watch.seen? = some true) :
      Transition watch (.act thread)
        { watch with abort := watch.abort.setPhase thread .concluding, seen? := none }
  | parked {thread deadline : Nat}
      (hPhase : watch.abort.threads[thread]? = some (.testing deadline))
      (hSeen : watch.seen? = some false) :
      Transition watch (.act thread)
        { watch with abort := watch.abort.giveMutex thread (.parked deadline), seen? := none }
  | answered {thread : Nat} {answer : Bool}
      (hPhase : watch.abort.threads[thread]? = some .concluding)
      (hSeen : watch.seen? = some answer) :
      Transition watch (.act thread)
        { watch with abort := watch.abort.giveMutex thread (.answered answer), seen? := none }
  | untested {event : AbortEvent} {abort : Abort} (hTester : watch.abort.tester? event = none)
      (hStep : watch.abort.Transition event abort) :
      Transition watch event { watch with abort := abort }

theorem transition_of_actOn? {seen : Bool} {phase : AbortPhase}
    (hPhase : watch.abort.threads[thread]? = some phase) (hTests : phase.tests = true)
    (hSeen : watch.seen? = some seen) (hAct : watch.actOn? thread seen = some next) :
    Transition watch (.act thread) next := by
  obtain ⟨abort, hAbort, rfl⟩ := Option.map_eq_some_iff.mp hAct
  cases phase with
  | testing deadline =>
    rw [Abort.act?] at hAbort
    simp only [hPhase] at hAbort
    cases seen with
    | true =>
      obtain rfl := Option.some.inj hAbort
      exact .confirmed hPhase hSeen
    | false =>
      obtain rfl := Option.some.inj hAbort
      exact .parked hPhase hSeen
  | concluding =>
    rw [Abort.act?] at hAbort
    simp only [hPhase] at hAbort
    obtain rfl := Option.some.inj hAbort
    exact .answered hPhase hSeen
  | _ => cases hTests

theorem transition_of_step? (hStep : watch.step? event = some next) :
    Transition watch event next := by
  unfold step? at hStep
  split at hStep
  · next thread hTester hUnseen =>
    obtain ⟨rfl, phase, hPhase, hTests⟩ := Abort.tester?_eq_some hTester
    obtain rfl := Option.some.inj hStep
    exact .looked hPhase hTests hUnseen
  · next thread seen hTester hSeen =>
    obtain ⟨rfl, phase, hPhase, hTests⟩ := Abort.tester?_eq_some hTester
    exact transition_of_actOn? hPhase hTests hSeen hStep
  · next hTester =>
    obtain ⟨abort, hAbort, rfl⟩ := Option.map_eq_some_iff.mp hStep
    exact .untested hTester (Abort.transition_of_step? hAbort)

theorem run?_append (watch : Watch) (earlier later : List AbortEvent) :
    watch.run? (earlier ++ later) = (watch.run? earlier).bind fun middle => middle.run? later := by
  induction earlier generalizing watch with
  | nil => rfl
  | cons event earlier ih => simp only [List.cons_append, run?, ih, Option.bind_assoc]

/-! ## The state that every run leads to -/

/-- What has been seen of the flag was seen by the thread that has the mutex, in its last test, and
once a thread has woken the sleepers nobody sleeps or is about to. -/
structure Sound (watch : Watch) : Prop where
  guarded : watch.abort.Guarded
  seen : ∀ seen, watch.seen? = some seen → ∃ (thread : Nat) (phase : AbortPhase),
    watch.abort.threads[thread]? = some phase ∧ phase.tests = true ∧
      (seen = true → watch.abort.flag = true)
  woken : watch.abort.HasWoken → watch.seen? ≠ some false ∧
    ∀ sleeper deadline : Nat, watch.abort.threads[sleeper]? ≠ some (.parked deadline)

theorem sound_empty : ({} : Watch).Sound where
  guarded := ⟨by simp, by simp⟩
  seen := nofun
  woken := by
    rintro ⟨thread, phase, hPhase, -⟩
    simp at hPhase

/-- A thread has acted on what it had seen, and has not fallen asleep. -/
theorem Sound.acted (hSound : watch.Sound) {before after : AbortPhase} {abort : Abort}
    (hBefore : watch.abort.threads[thread]? = some before)
    (hThreads : abort.threads = watch.abort.threads.set thread after)
    (hAfter : after.hasWoken = false) (hAwake : ∀ deadline, after ≠ .parked deadline)
    (hGuarded : abort.Guarded) : { watch with abort := abort, seen? := none }.Sound where
  guarded := hGuarded
  seen := nofun
  woken := by
    intro hWoken
    have hOld := hWoken.of_set hThreads hBefore (by simp [hAfter])
    refine ⟨nofun, ?_⟩
    intro sleeper deadline hParked
    rw [hThreads] at hParked
    obtain ⟨-, hNew⟩ | ⟨-, hSlept⟩ := Abort.of_set hParked
    · exact hAwake deadline hNew.symm
    · exact (hSound.woken hOld).2 sleeper deadline hSlept

theorem Sound.untested (hSound : watch.Sound) {abort : Abort}
    (hTester : watch.abort.tester? event = none) (hStep : watch.abort.Transition event abort) :
    { watch with abort := abort }.Sound where
  guarded := hSound.guarded.step hStep
  seen := by
    intro seen hSeen
    obtain ⟨tester, phase, hPhase, hTests, hFlag⟩ := hSound.seen seen hSeen
    exact ⟨tester, phase, hStep.testing_stays hTester hPhase hTests, hTests,
      fun hTrue => hStep.flag_mono (hFlag hTrue)⟩
  woken := by
    intro hWoken
    obtain hOld | ⟨waker, hWaking, hNone⟩ := hStep.hasWoken hWoken
    · obtain ⟨hSeen, hNone⟩ := hSound.woken hOld
      refine ⟨hSeen, ?_⟩
      intro sleeper deadline hParked
      exact hNone sleeper deadline
        (Abort.parked_of_step (hSound.guarded.flag_of_hasWoken hOld) hStep hParked)
    · -- The one who wakes has the mutex, so that nobody else is between its test and its sleep.
      refine ⟨?_, hNone⟩
      intro hSeen
      obtain ⟨tester, phase, hPhase, hTests, -⟩ := hSound.seen false hSeen
      obtain rfl := hSound.guarded.eq hWaking rfl hPhase (AbortPhase.hasMutex_of_tests hTests)
      obtain rfl := Option.some.inj (hWaking.symm.trans hPhase)
      cases hTests

theorem Sound.step (hSound : watch.Sound) (hTransition : Transition watch event next) :
    next.Sound := by
  cases hTransition with
  | @looked thread phase hPhase hTests hUnseen =>
    exact
      { guarded := hSound.guarded
        seen := by
          intro seen hSeen
          obtain rfl := Option.some.inj hSeen
          exact ⟨thread, phase, hPhase, hTests, id⟩
        woken := by
          intro hWoken
          refine ⟨?_, (hSound.woken hWoken).2⟩
          intro hSeen
          have hFlag := hSound.guarded.flag_of_hasWoken hWoken
          cases (Option.some.inj hSeen).symm.trans hFlag }
  | confirmed hPhase hSeen =>
    exact hSound.acted hPhase rfl rfl nofun
      (hSound.guarded.setPhase hPhase (fun _ => rfl) nofun)
  | @parked thread deadline hPhase hSeen =>
    exact
      { guarded := hSound.guarded.giveMutex hPhase rfl rfl nofun
        seen := nofun
        woken := by
          intro hWoken
          have hOld := hWoken.of_set rfl hPhase (by exact nofun)
          exact absurd hSeen (hSound.woken hOld).1 }
  | answered hPhase hSeen =>
    exact hSound.acted hPhase rfl rfl nofun (hSound.guarded.giveMutex hPhase rfl rfl nofun)
  | untested hTester hStep => exact hSound.untested hTester hStep

theorem Sound.run (hSound : watch.Sound) (hRun : watch.run? events = some last) : last.Sound := by
  induction events generalizing watch with
  | nil =>
    obtain rfl := Option.some.inj hRun
    exact hSound
  | cons event later ih =>
    obtain ⟨next, hStep, hRest⟩ := Option.bind_eq_some_iff.mp hRun
    exact ih (hSound.step (transition_of_step? hStep)) hRest

end Watch

end PacketLog
