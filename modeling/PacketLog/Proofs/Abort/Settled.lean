import PacketLog.Proofs.Abort.Watch

/-!
# A watch and the signal

A watch takes two steps where the signal takes one: a look at the flag, and what the thread does
that has looked.  Nobody else can tell when the second one happens, because the thread has the mutex
and the flag is not read again (`Abort.Transition.moved`).  `Watch.settled` therefore lets the
thread act at once.  A step of a watch is then a step of the signal or none (`Sound.settled_step`),
a step of the signal is one or two of a watch, and the two reach the same states
(`Watch.exists_run_iff`).
-/

namespace PacketLog

namespace Abort

variable {abort next : Abort} {event : AbortEvent} {thread : Nat}

theorem Transition.step?_eq (hTransition : Transition abort event next) :
    abort.step? event = some next := by
  cases hTransition with
  | raise | wait | passed => rfl
  | flagSet hPhase | notified hPhase | left hPhase | concluded hPhase => simp [step?, act?, hPhase]
  | knocked hPhase hFree | arrived hPhase hFree | resumed hPhase hFree =>
    simp [step?, act?, takeMutex?, hPhase, hFree]
  | tested hPhase hFlag | parked hPhase hFlag => simp [step?, act?, hPhase, hFlag]
  | timedOut hPhase hPassed => simp [step?, hPhase, hPassed]
  | stirred hPhase => simp [step?, hPhase]

def moved (abort : Abort) (thread : Nat) (phase : AbortPhase) (holder : Option Nat) : Abort :=
  { abort.setPhase thread phase with holder := holder }

theorem getElem?_moved_of_ne {other : Nat} (hOther : other ≠ thread) (abort : Abort)
    (phase : AbortPhase) (holder : Option Nat) :
    (abort.moved thread phase holder).threads[other]? = abort.threads[other]? :=
  List.getElem?_set_ne hOther.symm

theorem setPhase_moved_comm {other : Nat} (hOther : other ≠ thread) (abort : Abort)
    (phase after : AbortPhase) (holder : Option Nat) :
    (abort.moved thread after holder).setPhase other phase =
      (abort.setPhase other phase).moved thread after holder := by
  simp only [moved, setPhase, List.set_comm _ _ hOther.symm]

/-- The thread that is about to test the flag could have moved before the others step. -/
theorem Transition.moved (hTransition : Transition abort event next) (hGuarded : abort.Guarded)
    (hTester : abort.tester? event = none) {phase : AbortPhase}
    (hPhase : abort.threads[thread]? = some phase) (hTests : phase.tests = true)
    (after : AbortPhase) (holder : Option Nat) :
    Transition (abort.moved thread after holder) event (next.moved thread after holder) := by
  have hHolder := hGuarded.mutex thread phase hPhase (AbortPhase.hasMutex_of_tests hTests)
  obtain ⟨hLt, -⟩ := List.getElem?_eq_some_iff.mp hPhase
  have hTaken (hFree : abort.holder = none) : False := by
    rw [hFree] at hHolder
    cases hHolder
  have hAlone {other : Nat} {before : AbortPhase} (hBefore : abort.threads[other]? = some before)
      (hNot : before.tests = false) (hHas : before.hasMutex = true) : False :=
    ne_of_tests hBefore hNot hPhase hTests
      (hGuarded.eq hBefore hHas hPhase (AbortPhase.hasMutex_of_tests hTests))
  have hKeeps {other : Nat} {before : AbortPhase} (hBefore : abort.threads[other]? = some before)
      (hNot : before.tests = false) :
      (abort.moved thread after holder).threads[other]? = some before :=
    (getElem?_moved_of_ne (ne_of_tests hBefore hNot hPhase hTests) ..).trans hBefore
  cases hTransition with
  | raise =>
    have hSet : (abort.threads ++ [AbortPhase.raising]).set thread after =
        abort.threads.set thread after ++ [.raising] := List.set_append_left _ _ hLt
    simp only [Abort.moved, setPhase, hSet]
    exact .raise
  | @wait deadline =>
    have hSet : (abort.threads ++ [AbortPhase.arriving deadline]).set thread after =
        abort.threads.set thread after ++ [.arriving deadline] := List.set_append_left _ _ hLt
    simp only [Abort.moved, setPhase, hSet]
    exact .wait
  | flagSet hBefore =>
    have hComm := setPhase_moved_comm (ne_of_tests hBefore rfl hPhase hTests) abort .knocking
      after holder
    have hStep := Transition.flagSet (hKeeps hBefore rfl)
    rw [hComm] at hStep
    exact hStep
  | timedOut hBefore hPassed =>
    rw [← setPhase_moved_comm (ne_of_tests hBefore rfl hPhase hTests)]
    exact .timedOut (hKeeps hBefore rfl) hPassed
  | stirred hBefore =>
    rw [← setPhase_moved_comm (ne_of_tests hBefore rfl hPhase hTests)]
    exact .stirred (hKeeps hBefore rfl)
  | passed => exact .passed
  | knocked hBefore hFree | arrived hBefore hFree | resumed hBefore hFree =>
    exact (hTaken hFree).elim
  | notified hBefore | left hBefore => exact (hAlone hBefore rfl rfl).elim
  | tested hBefore | parked hBefore | concluded hBefore =>
    exact absurd hTester (tester?_ne_none hBefore rfl)

/-- Where a thread goes that tests the flag, and who has the mutex then, depends on nothing but what
it sees. -/
theorem exists_moved {phase : AbortPhase} (hTests : phase.tests = true) (thread : Nat)
    (seen : Bool) : ∃ (after : AbortPhase) (holder : Option Nat), ∀ abort : Abort,
      abort.threads[thread]? = some phase → abort.holder = some thread → abort.flag = seen →
      abort.act? thread = some (abort.moved thread after holder) := by
  cases phase with
  | testing deadline =>
    cases seen with
    | true =>
      refine ⟨.concluding, some thread, ?_⟩
      intro abort hPhase hHolder hFlag
      simp [act?, hPhase, hFlag, Abort.moved, setPhase, hHolder]
    | false =>
      refine ⟨.parked deadline, none, ?_⟩
      intro abort hPhase hHolder hFlag
      simp [act?, hPhase, hFlag, Abort.moved, giveMutex]
  | concluding =>
    refine ⟨.answered seen, none, ?_⟩
    intro abort hPhase hHolder hFlag
    simp [act?, hPhase, hFlag, Abort.moved, giveMutex]
  | _ => cases hTests

end Abort

namespace Watch

variable {watch next last : Watch} {event : AbortEvent} {events : List AbortEvent} {thread : Nat}

/-- The signal once the thread that has seen the flag has acted on it. -/
def settled (watch : Watch) : Abort :=
  match watch.seen?, watch.abort.holder with
  | some seen, some thread => ((watch.actOn? thread seen).getD watch).abort
  | _, _ => watch.abort

theorem settled_of_unseen (hUnseen : watch.seen? = none) : watch.settled = watch.abort := by
  rw [settled, hUnseen]

theorem settled_of_actOn? {seen : Bool} (hSeen : watch.seen? = some seen)
    (hHolder : watch.abort.holder = some thread) (hAct : watch.actOn? thread seen = some next) :
    watch.settled = next.abort := by
  rw [settled, hSeen, hHolder]
  dsimp only
  rw [hAct, Option.getD_some]

theorem settled_of_moved {seen : Bool} {after : AbortPhase} {holder : Option Nat}
    (hSeen : watch.seen? = some seen) (hHolder : watch.abort.holder = some thread)
    (hAct : Abort.act? { watch.abort with flag := seen } thread =
      some (Abort.moved { watch.abort with flag := seen } thread after holder)) :
    watch.settled = watch.abort.moved thread after holder := by
  have hActed : watch.actOn? thread seen =
      some { watch with abort := watch.abort.moved thread after holder, seen? := none } := by
    rw [actOn?, hAct]
    rfl
  exact settled_of_actOn? hSeen hHolder hActed

/-- Whoever is about to test the flag has the mutex. -/
theorem Sound.holder_of_tests (hSound : watch.Sound) {phase : AbortPhase}
    (hPhase : watch.abort.threads[thread]? = some phase) (hTests : phase.tests = true) :
    watch.abort.holder = some thread :=
  hSound.guarded.mutex thread phase hPhase (AbortPhase.hasMutex_of_tests hTests)

theorem Sound.settled_look (hSound : watch.Sound) (hUnseen : watch.seen? = none)
    {phase : AbortPhase} (hPhase : watch.abort.threads[thread]? = some phase)
    (hTests : phase.tests = true) :
    watch.settled.step? (.act thread) = some (watch.look thread).settled := by
  have hHolder := hSound.holder_of_tests hPhase hTests
  obtain ⟨after, holder, hMoved⟩ := Abort.exists_moved hTests thread watch.abort.flag
  have hAct := hMoved watch.abort hPhase hHolder rfl
  have hAfter : (watch.look thread).settled = watch.abort.moved thread after holder :=
    settled_of_moved rfl hHolder hAct
  rw [settled_of_unseen hUnseen, hAfter]
  exact hAct

theorem Sound.settled_untested (hSound : watch.Sound) {abort : Abort}
    (hTester : watch.abort.tester? event = none) (hStep : watch.abort.Transition event abort) :
    watch.settled.step? event = some { watch with abort := abort }.settled := by
  obtain hUnseen | ⟨seen, hSeen⟩ := Option.eq_none_or_eq_some watch.seen?
  · have hAfter : { watch with abort := abort }.settled = abort := settled_of_unseen hUnseen
    rw [settled_of_unseen hUnseen, hAfter]
    exact hStep.step?_eq
  · obtain ⟨thread, phase, hPhase, hTests, -⟩ := hSound.seen seen hSeen
    have hStays := hStep.testing_stays hTester hPhase hTests
    have hHolder := hSound.holder_of_tests hPhase hTests
    have hHolds := (hSound.untested hTester hStep).holder_of_tests hStays hTests
    obtain ⟨after, holder, hMoved⟩ := Abort.exists_moved hTests thread seen
    have hAfter : { watch with abort := abort }.settled = abort.moved thread after holder :=
      settled_of_moved hSeen hHolds (hMoved _ hStays hHolds rfl)
    rw [settled_of_moved hSeen hHolder (hMoved _ hPhase hHolder rfl), hAfter]
    exact (hStep.moved hSound.guarded hTester hPhase hTests after holder).step?_eq

/-- Every step is one of the signal, or a thread acts on what it has seen. -/
theorem Sound.settled_step (hSound : watch.Sound) (hStep : watch.step? event = some next) :
    next.settled = watch.settled ∨ watch.settled.step? event = some next.settled := by
  unfold step? at hStep
  split at hStep
  · next thread hTester hUnseen =>
    obtain ⟨rfl, phase, hPhase, hTests⟩ := Abort.tester?_eq_some hTester
    obtain rfl := Option.some.inj hStep
    exact Or.inr (hSound.settled_look hUnseen hPhase hTests)
  · next thread seen hTester hSeen =>
    obtain ⟨rfl, phase, hPhase, hTests⟩ := Abort.tester?_eq_some hTester
    have hHolder := hSound.holder_of_tests hPhase hTests
    have hBefore := settled_of_actOn? hSeen hHolder hStep
    obtain ⟨abort, -, rfl⟩ := Option.map_eq_some_iff.mp hStep
    exact Or.inl ((settled_of_unseen rfl).trans hBefore.symm)
  · next hTester =>
    obtain ⟨abort, hAbort, rfl⟩ := Option.map_eq_some_iff.mp hStep
    exact Or.inr (hSound.settled_untested hTester (Abort.transition_of_step? hAbort))

theorem Sound.settled_run (hSound : watch.Sound) (hRun : watch.run? events = some last) :
    ∃ kept, kept.Sublist events ∧ last.settled = watch.settled.run kept := by
  induction events generalizing watch with
  | nil =>
    obtain rfl := Option.some.inj hRun
    exact ⟨[], .slnil, rfl⟩
  | cons event later ih =>
    obtain ⟨next, hStep, hRest⟩ := Option.bind_eq_some_iff.mp hRun
    obtain ⟨kept, hKept, hLast⟩ := ih (hSound.step (transition_of_step? hStep)) hRest
    obtain hSame | hMoves := hSound.settled_step hStep
    · exact ⟨kept, hKept.cons event, hLast.trans (by rw [hSame])⟩
    · refine ⟨event :: kept, hKept.cons_cons event, ?_⟩
      rw [hLast, Abort.run, Abort.run, List.foldl_cons, hMoves, Option.getD_some]

/-! ## The other way -/

theorem step?_of_seen {seen : Bool} (hTester : watch.abort.tester? event = some thread)
    (hSeen : watch.seen? = some seen) : watch.step? event = watch.actOn? thread seen := by
  rw [step?, hTester, hSeen]

theorem exists_run?_of_step? {abort after : Abort} (hStep : abort.step? event = some after)
    (tests : List FlagTest) : ∃ (finer : List AbortEvent) (more : List FlagTest),
      ({ abort := abort, tests := tests } : Watch).run? finer =
        some { abort := after, tests := more } := by
  cases hTester : abort.tester? event with
  | none =>
    refine ⟨[event], tests, ?_⟩
    rw [run?, step?, hTester]
    dsimp only
    rw [hStep]
    rfl
  | some thread =>
    obtain ⟨rfl, phase, hPhase, hTests⟩ := Abort.tester?_eq_some hTester
    have hFlag : after.flag = abort.flag := by
      cases Abort.transition_of_step? hStep with
      | flagSet hRaising =>
        obtain rfl := Option.some.inj (hRaising.symm.trans hPhase)
        cases hTests
      | _ => rfl
    refine ⟨[.act thread, .act thread], tests ++ [⟨thread, abort.flag, abort.now⟩], ?_⟩
    have hLook : ({ abort := abort, tests := tests } : Watch).step? (.act thread) =
        some (look { abort := abort, tests := tests } thread) := by
      rw [step?, hTester]
    have hAct : (look { abort := abort, tests := tests } thread).step? (.act thread) =
        some { abort := after, tests := tests ++ [⟨thread, abort.flag, abort.now⟩] } := by
      refine (step?_of_seen hTester rfl).trans ?_
      refine Option.map_eq_some_iff.mpr ⟨after, hStep, ?_⟩
      simp only [look, ← hFlag]
    rw [run?, hLook, Option.bind_some, run?, hAct]
    rfl

theorem exists_run?_of_run (abort : Abort) (events : List AbortEvent) (tests : List FlagTest) :
    ∃ (finer : List AbortEvent) (more : List FlagTest),
      ({ abort := abort, tests := tests } : Watch).run? finer =
        some { abort := abort.run events, tests := more } := by
  induction events generalizing abort tests with
  | nil => exact ⟨[], tests, rfl⟩
  | cons event later ih =>
    rw [Abort.run, List.foldl_cons, ← Abort.run]
    cases hStep : abort.step? event with
    | none => exact ih abort tests
    | some after =>
      obtain ⟨first, between, hFirst⟩ := exists_run?_of_step? hStep tests
      obtain ⟨finer, more, hFiner⟩ := ih after between
      refine ⟨first ++ finer, more, ?_⟩
      rw [run?_append, hFirst, Option.bind_some, hFiner]
      rfl

/-- **A signal is what its watches settle to.**  The states that runs of `Abort.step?` lead to are
those that runs of a watch lead to once whoever has seen the flag has acted on it. -/
theorem exists_run_iff (abort : Abort) :
    (∃ events, ({} : Abort).run events = abort) ↔
      ∃ events last, ({} : Watch).run? events = some last ∧ last.settled = abort := by
  constructor
  · rintro ⟨events, rfl⟩
    obtain ⟨finer, more, hRun⟩ := exists_run?_of_run {} events []
    exact ⟨finer, _, hRun, settled_of_unseen rfl⟩
  · rintro ⟨events, last, hRun, rfl⟩
    obtain ⟨kept, -, hLast⟩ := sound_empty.settled_run hRun
    exact ⟨kept, hLast.symm⟩

end Watch

/-- Whoever has raised the signal has left nobody asleep. -/
theorem Abort.not_parked_of_raised {events : List AbortEvent} {raiser : Nat}
    (hRaised : (({} : Abort).run events).threads[raiser]? = some .raised)
    (sleeper deadline : Nat) :
    (({} : Abort).run events).threads[sleeper]? ≠ some (.parked deadline) := by
  obtain ⟨finer, more, hRun⟩ := Watch.exists_run?_of_run {} events []
  exact ((Watch.sound_empty.run hRun).woken ⟨raiser, .raised, hRaised, rfl⟩).2 sleeper deadline

end PacketLog
