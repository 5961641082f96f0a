import Mathlib.Data.List.Basic
import PacketLog.Abort

/-!
# Waits for the abort signal

`Abort.Transition` lists what one step of the threads at the signal can be, and `AbortPhase.Moves`
what it makes of one of them.  Three things follow for a thread that waits.  The flag is never
lowered.  A wait answers that the signal is raised only if it is, and that it is not only if its
deadline has passed (`Abort.Waits.step`).  And a thread that is awake when the flag is set does not
fall asleep any more (`Abort.Awake.step`): it tests the flag before it parks.
-/

namespace PacketLog

namespace Abort

variable {abort next last : Abort} {event : AbortEvent} {events : List AbortEvent} {thread : Nat}

inductive Transition (abort : Abort) : AbortEvent → Abort → Prop
  | raise : Transition abort .raise { abort with threads := abort.threads ++ [.raising] }
  | wait {deadline : Nat} :
      Transition abort (.wait deadline)
        { abort with threads := abort.threads ++ [.arriving deadline] }
  | flagSet {thread : Nat} (hPhase : abort.threads[thread]? = some .raising) :
      Transition abort (.act thread) { abort.setPhase thread .knocking with flag := true }
  | knocked {thread : Nat} (hPhase : abort.threads[thread]? = some .knocking)
      (hFree : abort.holder = none) :
      Transition abort (.act thread)
        { abort.setPhase thread .waking with holder := some thread }
  | notified {thread : Nat} (hPhase : abort.threads[thread]? = some .waking) :
      Transition abort (.act thread)
        ({ abort with threads := abort.threads.map AbortPhase.wake }.setPhase thread .leaving)
  | left {thread : Nat} (hPhase : abort.threads[thread]? = some .leaving) :
      Transition abort (.act thread) (abort.giveMutex thread .raised)
  | arrived {thread deadline : Nat} (hPhase : abort.threads[thread]? = some (.arriving deadline))
      (hFree : abort.holder = none) :
      Transition abort (.act thread)
        { abort.setPhase thread (.testing deadline) with holder := some thread }
  | tested {thread deadline : Nat} (hPhase : abort.threads[thread]? = some (.testing deadline))
      (hFlag : abort.flag = true) :
      Transition abort (.act thread) (abort.setPhase thread .concluding)
  | parked {thread deadline : Nat} (hPhase : abort.threads[thread]? = some (.testing deadline))
      (hFlag : abort.flag = false) :
      Transition abort (.act thread) (abort.giveMutex thread (.parked deadline))
  | resumed {thread deadline : Nat} {late : Bool}
      (hPhase : abort.threads[thread]? = some (.woken deadline late))
      (hFree : abort.holder = none) :
      Transition abort (.act thread)
        { abort.setPhase thread (if late then .concluding else .testing deadline) with
          holder := some thread }
  | concluded {thread : Nat} (hPhase : abort.threads[thread]? = some .concluding) :
      Transition abort (.act thread) (abort.giveMutex thread (.answered abort.flag))
  | timedOut {thread deadline : Nat} (hPhase : abort.threads[thread]? = some (.parked deadline))
      (hPassed : deadline ≤ abort.now) :
      Transition abort (.timeout thread) (abort.setPhase thread (.woken deadline true))
  | stirred {thread deadline : Nat} (hPhase : abort.threads[thread]? = some (.parked deadline)) :
      Transition abort (.stir thread) (abort.setPhase thread (.woken deadline false))
  | passed {duration : Nat} :
      Transition abort (.pass duration) { abort with now := abort.now + duration }

theorem takeMutex?_eq_some {phase : AbortPhase}
    (hTake : abort.takeMutex? thread phase = some next) :
    abort.holder = none ∧ next = { abort.setPhase thread phase with holder := some thread } := by
  obtain ⟨hFree, hNext⟩ := Option.ite_none_right_eq_some.mp hTake
  exact ⟨hFree, (Option.some.inj hNext).symm⟩

theorem transition_of_act? (hAct : abort.act? thread = some next) :
    Transition abort (.act thread) next := by
  unfold act? at hAct
  split at hAct
  · next hPhase =>
    obtain rfl := Option.some.inj hAct
    exact .flagSet hPhase
  · next hPhase =>
    obtain ⟨hFree, rfl⟩ := takeMutex?_eq_some hAct
    exact .knocked hPhase hFree
  · next hPhase =>
    obtain rfl := Option.some.inj hAct
    exact .notified hPhase
  · next hPhase =>
    obtain rfl := Option.some.inj hAct
    exact .left hPhase
  · next hPhase =>
    obtain ⟨hFree, rfl⟩ := takeMutex?_eq_some hAct
    exact .arrived hPhase hFree
  · next hPhase =>
    split at hAct
    · next hFlag =>
      obtain rfl := Option.some.inj hAct
      exact .tested hPhase hFlag
    · next hFlag =>
      obtain rfl := Option.some.inj hAct
      exact .parked hPhase (Bool.eq_false_iff.mpr hFlag)
  · next hPhase =>
    obtain ⟨hFree, rfl⟩ := takeMutex?_eq_some hAct
    exact .resumed hPhase hFree
  · next hPhase =>
    obtain rfl := Option.some.inj hAct
    exact .concluded hPhase
  all_goals cases hAct

theorem transition_of_step? (hStep : abort.step? event = some next) :
    Transition abort event next := by
  cases event with
  | raise =>
    obtain rfl := Option.some.inj hStep
    exact .raise
  | wait deadline =>
    obtain rfl := Option.some.inj hStep
    exact .wait
  | act thread => exact transition_of_act? hStep
  | timeout thread =>
    rw [step?] at hStep
    split at hStep
    · next hPhase =>
      obtain ⟨hPassed, hNext⟩ := Option.ite_none_right_eq_some.mp hStep
      obtain rfl := Option.some.inj hNext
      exact .timedOut hPhase hPassed
    · cases hStep
  | stir thread =>
    rw [step?] at hStep
    split at hStep
    · next hPhase =>
      obtain rfl := Option.some.inj hStep
      exact .stirred hPhase
    · cases hStep
  | pass duration =>
    obtain rfl := Option.some.inj hStep
    exact .passed

theorem Transition.flag_mono (hTransition : Transition abort event next)
    (hFlag : abort.flag = true) : next.flag = true := by
  cases hTransition <;> first | rfl | exact hFlag

theorem Transition.now_le (hTransition : Transition abort event next) : abort.now ≤ next.now := by
  cases hTransition with
  | passed => exact Nat.le_add_right _ _
  | _ => exact Nat.le_refl _

theorem Transition.length_le (hTransition : Transition abort event next) :
    abort.threads.length ≤ next.threads.length := by
  cases hTransition <;> simp [setPhase, giveMutex]

end Abort

/-! ## One thread -/

/-- What one step can make of a thread. -/
inductive AbortPhase.Moves (abort : Abort) : AbortPhase → AbortPhase → Prop
  | stays {phase : AbortPhase} : Moves abort phase phase
  | flagSet : Moves abort .raising .knocking
  | knocked : Moves abort .knocking .waking
  | notified : Moves abort .waking .leaving
  | left : Moves abort .leaving .raised
  | arrived {deadline : Nat} : Moves abort (.arriving deadline) (.testing deadline)
  | tested {deadline : Nat} (hFlag : abort.flag = true) :
      Moves abort (.testing deadline) .concluding
  | parked {deadline : Nat} (hFlag : abort.flag = false) :
      Moves abort (.testing deadline) (.parked deadline)
  | woken {deadline : Nat} : Moves abort (.parked deadline) (.woken deadline false)
  | timedOut {deadline : Nat} (hPassed : deadline ≤ abort.now) :
      Moves abort (.parked deadline) (.woken deadline true)
  | resumed {deadline : Nat} : Moves abort (.woken deadline false) (.testing deadline)
  | gaveUp {deadline : Nat} : Moves abort (.woken deadline true) .concluding
  | concluded : Moves abort .concluding (.answered abort.flag)

/-- On the way through a wait and not asleep, or with the answer that the signal is raised. -/
def AbortPhase.isAwake : AbortPhase → Bool
  | .arriving _ => true
  | .testing _ => true
  | .woken _ _ => true
  | .concluding => true
  | .answered answer => answer
  | _ => false

namespace Abort

variable {abort next last : Abort} {event : AbortEvent} {events : List AbortEvent} {thread : Nat}

theorem moves_of_set {other : Nat} {phase before after : AbortPhase}
    (hBefore : abort.threads[other]? = some before) (hMoves : AbortPhase.Moves abort before after)
    (hPhase : abort.threads[thread]? = some phase) :
    ∃ found, (abort.threads.set other after)[thread]? = some found ∧
      AbortPhase.Moves abort phase found := by
  by_cases hSame : other = thread
  · subst hSame
    obtain rfl := Option.some.inj (hBefore.symm.trans hPhase)
    obtain ⟨hLt, -⟩ := List.getElem?_eq_some_iff.mp hPhase
    exact ⟨after, List.getElem?_set_self hLt, hMoves⟩
  · exact ⟨phase, (List.getElem?_set_ne hSame).trans hPhase, .stays⟩

theorem Transition.moves (hTransition : Transition abort event next) {phase : AbortPhase}
    (hPhase : abort.threads[thread]? = some phase) :
    ∃ found, next.threads[thread]? = some found ∧ AbortPhase.Moves abort phase found := by
  cases hTransition with
  | raise | wait =>
    obtain ⟨hLt, -⟩ := List.getElem?_eq_some_iff.mp hPhase
    exact ⟨phase, (List.getElem?_append_left hLt).trans hPhase, .stays⟩
  | flagSet hActs => exact moves_of_set hActs .flagSet hPhase
  | knocked hActs hFree => exact moves_of_set hActs .knocked hPhase
  | @notified other hActs =>
    by_cases hSame : other = thread
    · subst hSame
      obtain rfl := Option.some.inj (hActs.symm.trans hPhase)
      obtain ⟨hLt, -⟩ := List.getElem?_eq_some_iff.mp hPhase
      exact ⟨.leaving, List.getElem?_set_self (by rwa [List.length_map]), .notified⟩
    · have hWakes : (abort.threads.map AbortPhase.wake)[thread]? = some phase.wake := by
        rw [List.getElem?_map, hPhase, Option.map_some]
      refine ⟨phase.wake, ?_, ?_⟩
      · exact (List.getElem?_set_ne hSame).trans hWakes
      · cases phase with
        | parked deadline => exact .woken
        | _ => exact .stays
  | left hActs => exact moves_of_set hActs .left hPhase
  | arrived hActs hFree => exact moves_of_set hActs .arrived hPhase
  | tested hActs hFlag => exact moves_of_set hActs (.tested hFlag) hPhase
  | parked hActs hFlag => exact moves_of_set hActs (.parked hFlag) hPhase
  | @resumed other deadline late hActs hFree =>
    cases late with
    | true => exact moves_of_set hActs .gaveUp hPhase
    | false => exact moves_of_set hActs .resumed hPhase
  | concluded hActs => exact moves_of_set hActs .concluded hPhase
  | timedOut hActs hPassed => exact moves_of_set hActs (.timedOut hPassed) hPhase
  | stirred hActs => exact moves_of_set hActs .woken hPhase
  | passed => exact ⟨phase, hPhase, .stays⟩

theorem Transition.of_new (hTransition : Transition abort event next)
    (hNone : abort.threads[thread]? = none) {phase : AbortPhase}
    (hPhase : next.threads[thread]? = some phase) :
    phase = .raising ∨ ∃ deadline, phase = .arriving deadline := by
  have hLength := List.getElem?_eq_none_iff.mp hNone
  have hOld (hSame : next.threads.length = abort.threads.length) : False := by
    rw [List.getElem?_eq_none (hSame ▸ hLength)] at hPhase
    cases hPhase
  have hNew (first : AbortPhase) (hThreads : next.threads = abort.threads ++ [first]) :
      phase = first := by
    rw [hThreads, List.getElem?_append_right hLength] at hPhase
    exact List.mem_singleton.mp (List.mem_of_getElem? hPhase)
  cases hTransition with
  | raise => exact Or.inl (hNew .raising rfl)
  | @wait deadline => exact Or.inr ⟨deadline, hNew (.arriving deadline) rfl⟩
  | passed => exact (hOld rfl).elim
  | notified => exact (hOld ((List.length_set ..).trans (List.length_map ..))).elim
  | _ => exact (hOld (List.length_set ..)).elim

/-! ## Waits -/

/-- Where a thread can be that waits until `deadline`, and what its answer says. -/
def Serves (abort : Abort) (deadline : Nat) : AbortPhase → Prop
  | .arriving latest => latest = deadline
  | .testing latest => latest = deadline
  | .parked latest => latest = deadline
  | .woken latest late => latest = deadline ∧ (late = true → deadline ≤ abort.now)
  | .concluding => abort.flag = true ∨ deadline ≤ abort.now
  | .answered true => abort.flag = true
  | .answered false => deadline ≤ abort.now
  | _ => False

theorem Serves.mono {deadline : Nat} {phase : AbortPhase} (hServes : abort.Serves deadline phase)
    (hFlag : abort.flag = true → next.flag = true) (hNow : abort.now ≤ next.now) :
    next.Serves deadline phase := by
  cases phase with
  | woken latest late => exact ⟨hServes.1, fun hLate => Nat.le_trans (hServes.2 hLate) hNow⟩
  | concluding => exact hServes.imp hFlag fun hPassed => Nat.le_trans hPassed hNow
  | answered answer =>
    cases answer with
    | true => exact hFlag hServes
    | false => exact Nat.le_trans hServes hNow
  | _ => exact hServes

theorem Serves.moves {deadline : Nat} {phase after : AbortPhase}
    (hServes : abort.Serves deadline phase) (hMoves : AbortPhase.Moves abort phase after) :
    abort.Serves deadline after := by
  cases hMoves with
  | stays | arrived | parked => exact hServes
  | tested hFlag => exact Or.inl hFlag
  | woken => exact ⟨hServes, nofun⟩
  | timedOut hPassed => exact ⟨hServes, fun _ => hServes ▸ hPassed⟩
  | resumed => exact hServes.1
  | gaveUp => exact Or.inr (hServes.2 rfl)
  | concluded =>
    cases hFlag : abort.flag with
    | true => exact hFlag
    | false => exact hServes.resolve_left (by rw [hFlag]; decide)
  | flagSet | knocked | notified | left => exact hServes

/-- The thread waits until `deadline`, or it has done so. -/
def Waits (abort : Abort) (thread deadline : Nat) : Prop :=
  ∃ phase, abort.threads[thread]? = some phase ∧ abort.Serves deadline phase

def withWait (abort : Abort) (deadline : Nat) : Abort :=
  { abort with threads := abort.threads ++ [.arriving deadline] }

theorem step?_wait (abort : Abort) (deadline : Nat) :
    abort.step? (.wait deadline) = some (abort.withWait deadline) := rfl

theorem waits_withWait (abort : Abort) (deadline : Nat) :
    (abort.withWait deadline).Waits abort.threads.length deadline :=
  ⟨.arriving deadline, List.getElem?_concat_length, rfl⟩

theorem Waits.step {deadline : Nat} (hWaits : abort.Waits thread deadline)
    (hTransition : Transition abort event next) : next.Waits thread deadline := by
  obtain ⟨phase, hPhase, hServes⟩ := hWaits
  obtain ⟨found, hFound, hMoves⟩ := hTransition.moves hPhase
  exact ⟨found, hFound, (hServes.moves hMoves).mono hTransition.flag_mono hTransition.now_le⟩

/-- A wait that says that the signal is not raised has lasted until its deadline. -/
theorem Waits.of_answer? {deadline : Nat} (hWaits : abort.Waits thread deadline) {answer : Bool}
    (hAnswer : abort.answer? thread = some answer) :
    if answer then abort.flag = true else deadline ≤ abort.now := by
  obtain ⟨phase, hPhase, hServes⟩ := hWaits
  rw [answer?, hPhase] at hAnswer
  cases phase with
  | answered given =>
    obtain rfl := Option.some.inj hAnswer
    cases given with
    | true => exact hServes
    | false => exact hServes
  | _ => cases hAnswer

/-! ## Once the flag is set -/

/-- The thread waits and is awake, or its wait has answered that the signal is raised. -/
def Awake (abort : Abort) (thread : Nat) : Prop :=
  ∃ phase, abort.threads[thread]? = some phase ∧ phase.isAwake = true

theorem awake_withWait (abort : Abort) (deadline : Nat) :
    (abort.withWait deadline).Awake abort.threads.length :=
  ⟨.arriving deadline, List.getElem?_concat_length, rfl⟩

/-- **Nobody falls asleep once the flag is set.** -/
theorem Awake.step (hAwake : abort.Awake thread) (hFlag : abort.flag = true)
    (hTransition : Transition abort event next) : next.Awake thread := by
  obtain ⟨phase, hPhase, hHere⟩ := hAwake
  obtain ⟨found, hFound, hMoves⟩ := hTransition.moves hPhase
  refine ⟨found, hFound, ?_⟩
  cases hMoves with
  | stays => exact hHere
  | parked hClear =>
    rw [hFlag] at hClear
    cases hClear
  | concluded => exact hFlag
  | arrived | tested | resumed | gaveUp => rfl
  | flagSet | knocked | notified | left | woken | timedOut => cases hHere

theorem parked_of_step {deadline : Nat} (hFlag : abort.flag = true)
    (hTransition : Transition abort event next)
    (hParked : next.threads[thread]? = some (.parked deadline)) :
    abort.threads[thread]? = some (.parked deadline) := by
  cases hPhase : abort.threads[thread]? with
  | none =>
    obtain hRaises | ⟨latest, hArrives⟩ := hTransition.of_new hPhase hParked
    · cases hRaises
    · cases hArrives
  | some phase =>
    obtain ⟨found, hFound, hMoves⟩ := hTransition.moves hPhase
    obtain rfl := Option.some.inj (hFound.symm.trans hParked)
    cases hMoves with
    | stays => rfl
    | parked hClear =>
      rw [hFlag] at hClear
      cases hClear

/-! ### A thread that moves alone -/

theorem run_acts_succ (hAct : abort.act? thread = some next) (more : Nat) :
    abort.run (.replicate (more + 1) (.act thread)) = next.run (.replicate more (.act thread)) := by
  rw [List.replicate_succ, run, run, List.foldl_cons, step?, hAct, Option.getD_some]

theorem answer?_run_of_answered {answer : Bool}
    (hPhase : abort.threads[thread]? = some (.answered answer)) (more : Nat) :
    (abort.run (.replicate more (.act thread))).answer? thread = some answer := by
  have hStays : abort.run (.replicate more (.act thread)) = abort := by
    induction more with
    | zero => rfl
    | succ more ih =>
      rw [List.replicate_succ, run, List.foldl_cons, step?, act?, hPhase, Option.getD_none]
      exact ih
  rw [hStays, answer?, hPhase]

theorem answer?_run_of_concluding (hPhase : abort.threads[thread]? = some .concluding)
    (more : Nat) :
    (abort.run (.replicate (more + 1) (.act thread))).answer? thread = some abort.flag := by
  have hAct : abort.act? thread = some (abort.giveMutex thread (.answered abort.flag)) := by
    rw [act?, hPhase]
  obtain ⟨hLt, -⟩ := List.getElem?_eq_some_iff.mp hPhase
  rw [run_acts_succ hAct]
  exact answer?_run_of_answered (List.getElem?_set_self hLt) more

theorem answer?_run_of_testing {deadline : Nat} (hFlag : abort.flag = true)
    (hPhase : abort.threads[thread]? = some (.testing deadline)) (more : Nat) :
    (abort.run (.replicate (more + 2) (.act thread))).answer? thread = some true := by
  have hAct : abort.act? thread = some (abort.setPhase thread .concluding) := by
    rw [act?, hPhase]
    exact if_pos hFlag
  obtain ⟨hLt, -⟩ := List.getElem?_eq_some_iff.mp hPhase
  rw [run_acts_succ hAct, answer?_run_of_concluding (List.getElem?_set_self hLt)]
  exact congrArg some hFlag

/-- With the mutex free, whoever is awake once the flag is set soon has its answer. -/
theorem Awake.answers (hAwake : abort.Awake thread) (hFlag : abort.flag = true)
    (hFree : abort.holder = none) : (abort.run (acts thread)).answer? thread = some true := by
  obtain ⟨phase, hPhase, hHere⟩ := hAwake
  obtain ⟨hLt, -⟩ := List.getElem?_eq_some_iff.mp hPhase
  cases phase with
  | arriving deadline =>
    have hAct : abort.act? thread =
        some { abort.setPhase thread (.testing deadline) with holder := some thread } := by
      rw [act?, hPhase]
      exact if_pos hFree
    rw [acts, run_acts_succ hAct]
    refine answer?_run_of_testing ?_ (List.getElem?_set_self hLt) 1
    exact hFlag
  | testing deadline =>
    rw [acts]
    exact answer?_run_of_testing hFlag hPhase 2
  | woken deadline late =>
    have hAct : abort.act? thread = some { abort.setPhase thread
        (if late then .concluding else .testing deadline) with holder := some thread } := by
      rw [act?, hPhase]
      exact if_pos hFree
    rw [acts, run_acts_succ hAct]
    cases late with
    | true =>
      rw [answer?_run_of_concluding (List.getElem?_set_self hLt)]
      exact congrArg some hFlag
    | false =>
      refine answer?_run_of_testing ?_ (List.getElem?_set_self hLt) 1
      exact hFlag
  | concluding =>
    rw [acts, answer?_run_of_concluding hPhase, hFlag]
  | answered answer =>
    rw [acts, answer?_run_of_answered hPhase]
    exact congrArg some hHere
  | _ => cases hHere

theorem Awake.of_answer? (hAwake : abort.Awake thread) {answer : Bool}
    (hAnswer : abort.answer? thread = some answer) : answer = true := by
  obtain ⟨phase, hPhase, hHere⟩ := hAwake
  rw [answer?, hPhase] at hAnswer
  cases phase with
  | answered given =>
    obtain rfl := Option.some.inj hAnswer
    exact hHere
  | _ => cases hAnswer

end Abort

end PacketLog
