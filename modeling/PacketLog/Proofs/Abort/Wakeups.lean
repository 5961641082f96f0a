import PacketLog.Proofs.Abort.Watch

/-!
# No wake-up is lost

`Watch.Serves` says for each phase of a waiting thread what its answer will rest on: the last test
found the flag set, or the thread is past a sleep that lasted until the deadline and its last test
found the flag unset.  Every step keeps it (`Waits.step`).  Together with `Watch.Sound`, that
nobody sleeps once the sleepers have been woken, this makes up `no_wakeup_lost`.
-/

namespace PacketLog

namespace Watch

variable {watch next last : Watch} {event : AbortEvent} {events : List AbortEvent} {thread : Nat}

theorem lastTest?_look_self (watch : Watch) (thread : Nat) :
    (watch.look thread).lastTest? thread =
      some ⟨thread, watch.abort.flag, watch.abort.now⟩ := by
  simp [lastTest?, look, List.filter_append]

theorem lastTest?_look_of_ne {other : Nat} (hOther : thread ≠ other) (watch : Watch) :
    (watch.look other).lastTest? thread = watch.lastTest? thread := by
  simp [lastTest?, look, List.filter_append, hOther.symm]

/-- The last test of a thread has found this: the flag is set, or it was not when the deadline had
passed. -/
def Found (watch : Watch) (thread deadline : Nat) (answer : Bool) : Prop :=
  ∃ test, watch.lastTest? thread = some test ∧ test.found = answer ∧
    if answer then watch.abort.flag = true else deadline ≤ test.instant

/-- Where a thread can be that waits until `deadline`, and what its answer rests on. -/
def Serves (watch : Watch) (thread deadline : Nat) : AbortPhase → Prop
  | .arriving latest => latest = deadline
  | .testing latest => latest = deadline
  | .parked latest => latest = deadline
  | .woken latest late => latest = deadline ∧ (late = true → deadline ≤ watch.abort.now)
  | .concluding => (watch.abort.flag = true ∨ deadline ≤ watch.abort.now) ∧
      ∀ seen, watch.seen? = some seen → watch.Found thread deadline seen
  | .answered answer => watch.Found thread deadline answer
  | _ => False

theorem Found.mono {deadline : Nat} {answer : Bool} (hFound : watch.Found thread deadline answer)
    (hFlag : watch.abort.flag = true → next.abort.flag = true)
    (hTests : next.lastTest? thread = watch.lastTest? thread) :
    next.Found thread deadline answer := by
  obtain ⟨test, hTest, hAnswer, hHolds⟩ := hFound
  refine ⟨test, hTests.trans hTest, hAnswer, ?_⟩
  cases answer with
  | true => exact hFlag hHolds
  | false => exact hHolds

theorem Serves.mono {deadline : Nat} {phase : AbortPhase}
    (hServes : watch.Serves thread deadline phase)
    (hFlag : watch.abort.flag = true → next.abort.flag = true)
    (hNow : watch.abort.now ≤ next.abort.now)
    (hTests : next.lastTest? thread = watch.lastTest? thread)
    (hSeen : phase = .concluding → ∀ seen, next.seen? = some seen → watch.seen? = some seen) :
    next.Serves thread deadline phase := by
  cases phase with
  | woken latest late => exact ⟨hServes.1, fun hLate => Nat.le_trans (hServes.2 hLate) hNow⟩
  | concluding =>
    refine ⟨hServes.1.imp hFlag fun hPassed => Nat.le_trans hPassed hNow, ?_⟩
    intro seen hNext
    exact (hServes.2 seen (hSeen rfl seen hNext)).mono hFlag hTests
  | answered answer => exact Found.mono hServes hFlag hTests
  | _ => exact hServes

def Waits (watch : Watch) (thread deadline : Nat) : Prop :=
  ∃ phase, watch.abort.threads[thread]? = some phase ∧ watch.Serves thread deadline phase

theorem Waits.looked {deadline other : Nat} {phase : AbortPhase} (hSound : watch.Sound)
    (hWaits : watch.Waits thread deadline) (hPhase : watch.abort.threads[other]? = some phase)
    (hTests : phase.tests = true) : (watch.look other).Waits thread deadline := by
  obtain ⟨found, hFound, hServes⟩ := hWaits
  refine ⟨found, hFound, ?_⟩
  by_cases hSame : thread = other
  · subst hSame
    obtain rfl := Option.some.inj (hFound.symm.trans hPhase)
    cases found with
    | testing latest => exact hServes
    | concluding =>
      refine ⟨hServes.1, ?_⟩
      intro seen hSeen
      obtain rfl := Option.some.inj hSeen
      refine ⟨_, lastTest?_look_self watch thread, rfl, ?_⟩
      cases hFlag : watch.abort.flag with
      | true => exact hFlag
      | false => exact hServes.1.resolve_left (by rw [hFlag]; decide)
    | _ => cases hTests
  · refine hServes.mono id (Nat.le_refl _) (lastTest?_look_of_ne hSame watch) ?_
    rintro rfl
    exact absurd (hSound.guarded.eq hFound rfl hPhase (AbortPhase.hasMutex_of_tests hTests)) hSame

theorem Waits.acted {deadline other : Nat} {before after : AbortPhase} {abort : Abort}
    (hWaits : watch.Waits thread deadline) (hBefore : watch.abort.threads[other]? = some before)
    (hThreads : abort.threads = watch.abort.threads.set other after)
    (hFlag : abort.flag = watch.abort.flag) (hNow : abort.now = watch.abort.now)
    (hAfter : thread = other → watch.Serves thread deadline before →
      { watch with abort := abort, seen? := none }.Serves thread deadline after) :
    { watch with abort := abort, seen? := none }.Waits thread deadline := by
  obtain ⟨phase, hPhase, hServes⟩ := hWaits
  by_cases hSame : thread = other
  · subst hSame
    obtain rfl := Option.some.inj (hBefore.symm.trans hPhase)
    obtain ⟨hLt, -⟩ := List.getElem?_eq_some_iff.mp hPhase
    refine ⟨after, ?_, hAfter rfl hServes⟩
    rw [hThreads]
    exact List.getElem?_set_self hLt
  · refine ⟨phase, ?_, hServes.mono (by simp [hFlag]) (by simp [hNow]) rfl nofun⟩
    rw [hThreads, List.getElem?_set_ne (Ne.symm hSame)]
    exact hPhase

theorem Waits.untested {deadline : Nat} {abort : Abort} (hSound : watch.Sound)
    (hWaits : watch.Waits thread deadline) (hTester : watch.abort.tester? event = none)
    (hStep : watch.abort.Transition event abort) :
    { watch with abort := abort }.Waits thread deadline := by
  obtain ⟨phase, hPhase, hServes⟩ := hWaits
  have hKeep (found : AbortPhase) (hHere : watch.Serves thread deadline found) :
      { watch with abort := abort }.Serves thread deadline found :=
    hHere.mono hStep.flag_mono hStep.now_le rfl fun _ _ hSeen => hSeen
  by_cases hTests : phase.tests = true
  · exact ⟨phase, hStep.testing_stays hTester hPhase hTests, hKeep phase hServes⟩
  · obtain ⟨found, hFound, hMoves⟩ := hStep.moves hPhase
    refine ⟨found, hFound, ?_⟩
    cases hMoves with
    | stays => exact hKeep phase hServes
    | arrived => exact hKeep (.testing _) hServes
    | woken => exact ⟨hServes, nofun⟩
    | timedOut hPassed => exact ⟨hServes, fun _ => hServes ▸ Nat.le_trans hPassed hStep.now_le⟩
    | resumed => exact hKeep (.testing _) hServes.1
    | gaveUp =>
      refine ⟨Or.inr (Nat.le_trans (hServes.2 rfl) hStep.now_le), ?_⟩
      -- The mutex was free, so that nobody had seen anything.
      intro seen hSeen
      obtain ⟨tester, before, hBefore, hIs, -⟩ := hSound.seen seen hSeen
      have hStays := hStep.testing_stays hTester hBefore hIs
      obtain rfl := (hSound.guarded.step hStep).eq hFound rfl hStays
        (AbortPhase.hasMutex_of_tests hIs)
      obtain rfl := Option.some.inj (hBefore.symm.trans hPhase)
      cases hIs
    | flagSet | knocked | notified | left => exact hServes.elim
    | tested | parked | concluded => exact absurd rfl hTests

theorem Waits.step {deadline : Nat} (hSound : watch.Sound) (hWaits : watch.Waits thread deadline)
    (hTransition : Transition watch event next) : next.Waits thread deadline := by
  cases hTransition with
  | looked hPhase hTests hUnseen => exact hWaits.looked hSound hPhase hTests
  | confirmed hPhase hSeen =>
    refine hWaits.acted hPhase rfl rfl rfl ?_
    intro _ _
    obtain ⟨-, -, -, -, hFlag⟩ := hSound.seen true hSeen
    exact ⟨Or.inl (hFlag rfl), nofun⟩
  | parked hPhase hSeen => exact hWaits.acted hPhase rfl rfl rfl fun _ hServes => hServes
  | answered hPhase hSeen =>
    refine hWaits.acted hPhase rfl rfl rfl ?_
    intro _ hServes
    exact Found.mono (hServes.2 _ hSeen) id rfl
  | untested hTester hStep => exact hWaits.untested hSound hTester hStep

/-! ## Any run -/

theorem Waits.run {deadline : Nat} (hSound : watch.Sound) (hWaits : watch.Waits thread deadline)
    (hRun : watch.run? events = some last) : last.Waits thread deadline := by
  induction events generalizing watch with
  | nil =>
    obtain rfl := Option.some.inj hRun
    exact hWaits
  | cons event later ih =>
    obtain ⟨next, hStep, hRest⟩ := Option.bind_eq_some_iff.mp hRun
    have hTransition := transition_of_step? hStep
    exact ih (hSound.step hTransition) (hWaits.step hSound hTransition) hRest

/-- Since the flag was set, every test has found it so. -/
theorem Transition.stays_set (hTransition : Transition watch event next)
    (hFlag : watch.abort.flag = true) :
    next.abort.flag = true ∧ ∃ more, next.tests = watch.tests ++ more ∧
      ∀ test ∈ more, test.found = true := by
  cases hTransition with
  | looked => exact ⟨hFlag, _, rfl, by simp [hFlag]⟩
  | untested hTester hStep => exact ⟨hStep.flag_mono hFlag, [], by simp, nofun⟩
  | _ => exact ⟨hFlag, [], by simp, nofun⟩

theorem run_stays_set (hFlag : watch.abort.flag = true) (hRun : watch.run? events = some last) :
    last.abort.flag = true ∧ ∃ more, last.tests = watch.tests ++ more ∧
      ∀ test ∈ more, test.found = true := by
  induction events generalizing watch with
  | nil =>
    obtain rfl := Option.some.inj hRun
    exact ⟨hFlag, [], by simp, nofun⟩
  | cons event later ih =>
    obtain ⟨next, hStep, hRest⟩ := Option.bind_eq_some_iff.mp hRun
    obtain ⟨hNext, first, hFirst, hAll⟩ := (transition_of_step? hStep).stays_set hFlag
    obtain ⟨hLast, more, hMore, hRest⟩ := ih hNext hRest
    refine ⟨hLast, first ++ more, by rw [hMore, hFirst, List.append_assoc], ?_⟩
    exact List.forall_mem_append.mpr ⟨hAll, hRest⟩

/-- **No wake-up is lost.**  Any number of threads raise the signal and wait for it, each in its
own time.  Whoever has raised it leaves nobody asleep that it has not woken.  Once the flag is set
it stays set, and so does every test find it.  A wait that answers that the signal is raised is
right, and one that answers that it is not found the flag unset in its last test, when its deadline
had passed. -/
theorem no_wakeup_lost (hRun : ({} : Watch).run? events = some last) :
    (∀ raiser sleeper deadline : Nat, last.abort.threads[raiser]? = some .raised →
      last.abort.threads[sleeper]? ≠ some (.parked deadline)) ∧
    (∀ earlier later middle, events = earlier ++ later →
      ({} : Watch).run? earlier = some middle → middle.abort.flag = true →
      last.abort.flag = true ∧
        ∃ more, last.tests = middle.tests ++ more ∧ ∀ test ∈ more, test.found = true) ∧
    ∀ earlier later middle deadline answer, events = earlier ++ .wait deadline :: later →
      ({} : Watch).run? earlier = some middle →
      last.abort.answer? middle.abort.threads.length = some answer →
      ∃ test, last.lastTest? middle.abort.threads.length = some test ∧ test.found = answer ∧
        if answer then last.abort.flag = true else deadline ≤ test.instant := by
  refine ⟨?_, ?_, ?_⟩
  · intro raiser sleeper deadline hRaised
    exact ((sound_empty.run hRun).woken ⟨raiser, .raised, hRaised, rfl⟩).2 sleeper deadline
  · intro earlier later middle hEvents hMiddle hFlag
    rw [hEvents, run?_append, hMiddle, Option.bind_some] at hRun
    exact run_stays_set hFlag hRun
  · intro earlier later middle deadline answer hEvents hMiddle hAnswer
    rw [hEvents, run?_append, hMiddle, Option.bind_some] at hRun
    have hSound := sound_empty.run hMiddle
    have hBegun : { middle with abort := middle.abort.withWait deadline }.Waits
        middle.abort.threads.length deadline :=
      ⟨.arriving deadline, List.getElem?_concat_length, rfl⟩
    have hStep : Transition middle (.wait deadline)
        { middle with abort := middle.abort.withWait deadline } := .untested rfl .wait
    obtain ⟨phase, hPhase, hServes⟩ := hBegun.run (hSound.step hStep) hRun
    rw [Abort.answer?, hPhase] at hAnswer
    cases phase with
    | answered given =>
      obtain rfl := Option.some.inj hAnswer
      exact hServes
    | _ => cases hAnswer

/-- Thread 0 gives up at once.  Thread 1 has tested the flag when thread 2 sets it, falls asleep all
the same, and is woken. -/
theorem no_wakeup_lost_of_late_sleeper :
    let earlier : List AbortEvent :=
      [.wait 0, .act 0, .act 0, .act 0, .timeout 0, .act 0, .act 0, .act 0, .wait 50, .act 1,
        .act 1, .raise, .act 2]
    let later : List AbortEvent :=
      [.act 1, .act 2, .act 2, .act 2, .act 1, .act 1, .act 1, .act 1, .act 1]
    ∃ middle last, ({} : Watch).run? earlier = some middle ∧
      middle.abort.threads = [.answered false, .testing 50, .knocking] ∧
      middle.abort.flag = true ∧ middle.seen? = some false ∧
      ({} : Watch).run? (earlier ++ later) = some last ∧
      last.abort.threads = [.answered false, .answered true, .raised] ∧
      (∀ sleeper deadline : Nat, last.abort.threads[sleeper]? ≠ some (.parked deadline)) ∧
      (∃ more, last.tests = middle.tests ++ more ∧ ∀ test ∈ more, test.found = true) ∧
      (∃ test, last.lastTest? 0 = some test ∧ test.found = false ∧ 0 ≤ test.instant) ∧
      ∃ test, last.lastTest? 1 = some test ∧ test.found = true ∧ last.abort.flag = true := by
  intro earlier later
  have hMiddle : (({} : Watch).run? earlier).map (fun middle =>
      (middle.abort.threads, middle.abort.flag, middle.seen?)) =
        some ([.answered false, .testing 50, .knocking], true, some false) := by
    decide +kernel
  have hLast : (({} : Watch).run? (earlier ++ later)).map (fun last => last.abort.threads) =
      some [.answered false, .answered true, .raised] := by
    decide +kernel
  obtain ⟨middle, hEarlier, hStands⟩ := Option.map_eq_some_iff.mp hMiddle
  obtain ⟨last, hRun, hEnds⟩ := Option.map_eq_some_iff.mp hLast
  obtain ⟨hThreads, hFlag, hSeen⟩ := by simpa only [Prod.mk.injEq] using hStands
  obtain ⟨hAwake, hStays, hAnswers⟩ := no_wakeup_lost hRun
  have hAnswer (thread : Nat) : last.abort.answer? thread =
      Abort.answer? { threads := [.answered false, .answered true, .raised] } thread := by
    rw [Abort.answer?, hEnds]
    rfl
  have hBetween : (({} : Watch).run? (earlier.take 8)).map (fun first => first.abort.threads) =
      some [.answered false] := by
    decide +kernel
  obtain ⟨first, hFirst, hAlone⟩ := Option.map_eq_some_iff.mp hBetween
  refine ⟨middle, last, hEarlier, hThreads, hFlag, hSeen, hRun, hEnds, ?_, ?_, ?_, ?_⟩
  · intro sleeper deadline
    exact hAwake 2 sleeper deadline (by rw [hEnds]; rfl)
  · exact (hStays earlier later middle rfl hEarlier hFlag).2
  · exact hAnswers [] (earlier.tail ++ later) {} 0 false rfl rfl (hAnswer 0)
  · have hWait := hAnswers (earlier.take 8) (earlier.drop 9 ++ later) first 50 true rfl hFirst
    rw [hAlone] at hWait
    exact hWait (hAnswer 1)

end Watch

end PacketLog
