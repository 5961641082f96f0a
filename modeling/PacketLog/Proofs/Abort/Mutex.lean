import PacketLog.Proofs.Abort.Waits

/-!
# Who has the mutex

The phase of a thread at the abort signal tells whether it has the mutex, and whether it has set the
flag and woken the sleepers.  `Abort.Guarded` says that this agrees with who holds the mutex and
with the flag, and `Guarded.step` that every step leaves it so; no two threads are therefore past
taking the mutex at once (`Guarded.eq`).  The step in which the first thread has woken the sleepers
leaves nobody asleep (`Transition.hasWoken`), and whoever is about to test the flag stays there
until it does (`Transition.testing_stays`).
-/

namespace PacketLog

namespace AbortPhase

/-- About to test the flag. -/
def tests : AbortPhase → Bool
  | testing _ => true
  | concluding => true
  | _ => false

def hasMutex : AbortPhase → Bool
  | waking => true
  | leaving => true
  | testing _ => true
  | concluding => true
  | _ => false

def hasSet : AbortPhase → Bool
  | knocking => true
  | waking => true
  | leaving => true
  | raised => true
  | _ => false

def hasWoken : AbortPhase → Bool
  | leaving => true
  | raised => true
  | _ => false

theorem hasMutex_of_tests {phase : AbortPhase} (hTests : phase.tests = true) :
    phase.hasMutex = true := by
  cases phase with
  | testing | concluding => rfl
  | _ => cases hTests

theorem hasSet_of_hasWoken {phase : AbortPhase} (hWoken : phase.hasWoken = true) :
    phase.hasSet = true := by
  cases phase with
  | leaving | raised => rfl
  | _ => cases hWoken

end AbortPhase

namespace Abort

/-- The thread that takes the step, if it has to look at the flag for it. -/
def tester? (abort : Abort) : AbortEvent → Option Nat
  | .act thread => if abort.threads[thread]?.any AbortPhase.tests then some thread else none
  | _ => none

variable {abort next : Abort} {event : AbortEvent} {thread other : Nat}
  {threads : List AbortPhase} {phase before after : AbortPhase}

theorem tester?_eq_some (hTester : abort.tester? event = some thread) :
    event = .act thread ∧ ∃ phase, abort.threads[thread]? = some phase ∧ phase.tests = true := by
  cases event with
  | act actor =>
    obtain ⟨hTests, hThread⟩ := Option.ite_none_right_eq_some.mp hTester
    obtain rfl := Option.some.inj hThread
    obtain ⟨phase, hPhase, hHere⟩ := (Option.any_eq_true _ _).mp hTests
    exact ⟨rfl, phase, hPhase, hHere⟩
  | _ => cases hTester

theorem tester?_of_tests (hPhase : abort.threads[thread]? = some phase)
    (hTests : phase.tests = true) : abort.tester? (.act thread) = some thread := by
  rw [tester?, hPhase, Option.any_some, hTests]
  rfl

theorem tester?_ne_none (hPhase : abort.threads[thread]? = some phase)
    (hTests : phase.tests = true) : abort.tester? (.act thread) ≠ none := by
  rw [tester?_of_tests hPhase hTests]
  exact nofun

/-! ## One thread of many -/

theorem of_set (hPhase : (threads.set other after)[thread]? = some phase) :
    thread = other ∧ phase = after ∨ thread ≠ other ∧ threads[thread]? = some phase := by
  by_cases hSame : thread = other
  · subst hSame
    obtain ⟨hLt, hGet⟩ := List.getElem?_eq_some_iff.mp hPhase
    rw [List.getElem_set_self] at hGet
    exact Or.inl ⟨rfl, hGet.symm⟩
  · rw [List.getElem?_set_ne (Ne.symm hSame)] at hPhase
    exact Or.inr ⟨hSame, hPhase⟩

theorem of_concat (hPhase : (threads ++ [after])[thread]? = some phase) :
    phase = after ∨ threads[thread]? = some phase := by
  by_cases hOld : thread < threads.length
  · rw [List.getElem?_append_left hOld] at hPhase
    exact Or.inr hPhase
  · rw [List.getElem?_append_right (by omega)] at hPhase
    exact Or.inl (List.mem_singleton.mp (List.mem_of_getElem? hPhase))

theorem of_wake (hPhase : (threads.map AbortPhase.wake)[thread]? = some phase) :
    ∃ before, threads[thread]? = some before ∧ before.wake = phase := by
  rw [List.getElem?_map] at hPhase
  exact Option.map_eq_some_iff.mp hPhase

/-! ## What the phases say -/

/-- Who is past taking the mutex has it, and who is past setting the flag has set it. -/
structure Guarded (abort : Abort) : Prop where
  mutex : ∀ (thread : Nat) (phase : AbortPhase), abort.threads[thread]? = some phase →
    phase.hasMutex = true → abort.holder = some thread
  flag : ∀ (thread : Nat) (phase : AbortPhase), abort.threads[thread]? = some phase →
    phase.hasSet = true → abort.flag = true

theorem Guarded.eq (hGuarded : abort.Guarded) (hBefore : abort.threads[thread]? = some before)
    (hMutex : before.hasMutex = true) (hOther : abort.threads[other]? = some after)
    (hToo : after.hasMutex = true) : thread = other :=
  Option.some.inj ((hGuarded.mutex _ _ hBefore hMutex).symm.trans (hGuarded.mutex _ _ hOther hToo))

theorem Guarded.set (hGuarded : abort.Guarded)
    (hThreads : next.threads = abort.threads.set thread after)
    (hFlag : abort.flag = true → next.flag = true)
    (hHolder : ∀ other, other ≠ thread → abort.holder = some other → next.holder = some other)
    (hMutex : after.hasMutex = true → next.holder = some thread)
    (hSet : after.hasSet = true → next.flag = true) : next.Guarded := by
  constructor
  · intro other phase hPhase hHas
    rw [hThreads] at hPhase
    obtain ⟨rfl, rfl⟩ | ⟨hOther, hOld⟩ := of_set hPhase
    · exact hMutex hHas
    · exact hHolder other hOther (hGuarded.mutex other phase hOld hHas)
  · intro other phase hPhase hHas
    rw [hThreads] at hPhase
    obtain ⟨rfl, rfl⟩ | ⟨hOther, hOld⟩ := of_set hPhase
    · exact hSet hHas
    · exact hFlag (hGuarded.flag other phase hOld hHas)

theorem Guarded.setPhase (hGuarded : abort.Guarded) (hBefore : abort.threads[thread]? = some before)
    (hMutex : after.hasMutex = true → before.hasMutex = true)
    (hSet : after.hasSet = true → before.hasSet = true) : (abort.setPhase thread after).Guarded :=
  hGuarded.set rfl id (fun _ _ hHolder => hHolder)
    (fun hHas => hGuarded.mutex _ _ hBefore (hMutex hHas))
    (fun hHas => hGuarded.flag _ _ hBefore (hSet hHas))

theorem Guarded.takeMutex (hGuarded : abort.Guarded)
    (hBefore : abort.threads[thread]? = some before) (hFree : abort.holder = none)
    (hSet : after.hasSet = true → before.hasSet = true) :
    { abort.setPhase thread after with holder := some thread }.Guarded := by
  refine hGuarded.set rfl id ?_ (fun _ => rfl) (fun hHas => hGuarded.flag _ _ hBefore (hSet hHas))
  intro other _ hHolder
  rw [hFree] at hHolder
  cases hHolder

theorem Guarded.giveMutex (hGuarded : abort.Guarded)
    (hBefore : abort.threads[thread]? = some before) (hHas : before.hasMutex = true)
    (hMutex : after.hasMutex = false) (hSet : after.hasSet = true → before.hasSet = true) :
    (abort.giveMutex thread after).Guarded := by
  refine hGuarded.set rfl id ?_ ?_ (fun hHas => hGuarded.flag _ _ hBefore (hSet hHas))
  · intro other hOther hHolder
    rw [hGuarded.mutex _ _ hBefore hHas] at hHolder
    exact absurd (Option.some.inj hHolder).symm hOther
  · intro hToo
    rw [hMutex] at hToo
    cases hToo

theorem Guarded.concat (hGuarded : abort.Guarded) (hMutex : after.hasMutex = false)
    (hSet : after.hasSet = false) : { abort with threads := abort.threads ++ [after] }.Guarded := by
  constructor
  · intro thread phase hPhase hHas
    obtain rfl | hOld := of_concat hPhase
    · rw [hMutex] at hHas
      cases hHas
    · exact hGuarded.mutex thread phase hOld hHas
  · intro thread phase hPhase hHas
    obtain rfl | hOld := of_concat hPhase
    · rw [hSet] at hHas
      cases hHas
    · exact hGuarded.flag thread phase hOld hHas

theorem Guarded.wake (hGuarded : abort.Guarded) :
    { abort with threads := abort.threads.map AbortPhase.wake }.Guarded := by
  constructor
  · intro thread phase hPhase hHas
    obtain ⟨before, hBefore, rfl⟩ := of_wake hPhase
    refine hGuarded.mutex thread before hBefore ?_
    cases before with
    | parked => cases hHas
    | _ => exact hHas
  · intro thread phase hPhase hHas
    obtain ⟨before, hBefore, rfl⟩ := of_wake hPhase
    refine hGuarded.flag thread before hBefore ?_
    cases before with
    | parked => cases hHas
    | _ => exact hHas

theorem Guarded.step (hGuarded : abort.Guarded) (hTransition : Transition abort event next) :
    next.Guarded := by
  cases hTransition with
  | raise | wait => exact hGuarded.concat rfl rfl
  | flagSet hPhase =>
    exact hGuarded.set rfl (fun _ => rfl) (fun _ _ hHolder => hHolder) nofun (fun _ => rfl)
  | knocked hPhase hFree => exact hGuarded.takeMutex hPhase hFree (fun _ => rfl)
  | @notified thread hPhase =>
    have hWaking : (abort.threads.map AbortPhase.wake)[thread]? = some .waking := by
      rw [List.getElem?_map, hPhase]
      rfl
    exact hGuarded.wake.setPhase hWaking (fun _ => rfl) (fun _ => rfl)
  | left hPhase => exact hGuarded.giveMutex hPhase rfl rfl (fun _ => rfl)
  | arrived hPhase hFree => exact hGuarded.takeMutex hPhase hFree nofun
  | tested hPhase hFlag => exact hGuarded.setPhase hPhase (fun _ => rfl) nofun
  | parked hPhase hFlag => exact hGuarded.giveMutex hPhase rfl rfl nofun
  | @resumed _ _ late hPhase hFree =>
    refine hGuarded.takeMutex hPhase hFree ?_
    cases late <;> exact nofun
  | concluded hPhase => exact hGuarded.giveMutex hPhase rfl rfl nofun
  | timedOut hPhase hPassed => exact hGuarded.setPhase hPhase nofun nofun
  | stirred hPhase => exact hGuarded.setPhase hPhase nofun nofun
  | passed => exact ⟨hGuarded.mutex, hGuarded.flag⟩

/-! ## Who has woken the sleepers -/

/-- A thread has woken the sleepers. -/
def HasWoken (abort : Abort) : Prop :=
  ∃ (thread : Nat) (phase : AbortPhase),
    abort.threads[thread]? = some phase ∧ phase.hasWoken = true

theorem Guarded.flag_of_hasWoken (hGuarded : abort.Guarded) (hWoken : abort.HasWoken) :
    abort.flag = true := by
  obtain ⟨waker, phase, hPhase, hHas⟩ := hWoken
  exact hGuarded.flag waker phase hPhase (AbortPhase.hasSet_of_hasWoken hHas)

theorem HasWoken.of_set (hThreads : next.threads = abort.threads.set thread after)
    (hBefore : abort.threads[thread]? = some before)
    (hAfter : after.hasWoken = true → before.hasWoken = true) (hWoken : next.HasWoken) :
    abort.HasWoken := by
  obtain ⟨other, phase, hPhase, hHas⟩ := hWoken
  rw [hThreads] at hPhase
  obtain ⟨rfl, rfl⟩ | ⟨-, hOld⟩ := Abort.of_set hPhase
  · exact ⟨other, before, hBefore, hAfter hHas⟩
  · exact ⟨other, phase, hOld, hHas⟩

theorem HasWoken.of_concat (hAfter : after.hasWoken = false)
    (hWoken : { abort with threads := abort.threads ++ [after] }.HasWoken) : abort.HasWoken := by
  obtain ⟨thread, phase, hPhase, hHas⟩ := hWoken
  obtain rfl | hOld := Abort.of_concat hPhase
  · rw [hAfter] at hHas
    cases hHas
  · exact ⟨thread, phase, hOld, hHas⟩

theorem Transition.hasWoken (hTransition : Transition abort event next) (hWoken : next.HasWoken) :
    abort.HasWoken ∨ ∃ waker : Nat, abort.threads[waker]? = some .waking ∧
      ∀ sleeper deadline : Nat, next.threads[sleeper]? ≠ some (.parked deadline) := by
  cases hTransition with
  | raise | wait => exact Or.inl (hWoken.of_concat rfl)
  | @notified waker hPhase =>
    refine Or.inr ⟨waker, hPhase, ?_⟩
    intro sleeper deadline hParked
    obtain ⟨-, hLeaving⟩ | ⟨-, hOld⟩ := of_set hParked
    · cases hLeaving
    · obtain ⟨before, -, hWake⟩ := of_wake hOld
      cases before <;> cases hWake
  | left hPhase => exact Or.inl (hWoken.of_set rfl hPhase (fun _ => rfl))
  | @resumed _ _ late hPhase hFree =>
    refine Or.inl (hWoken.of_set rfl hPhase ?_)
    cases late <;> exact nofun
  | passed => exact Or.inl hWoken
  | flagSet hPhase | knocked hPhase | arrived hPhase | tested hPhase | parked hPhase
  | concluded hPhase | timedOut hPhase | stirred hPhase =>
    refine Or.inl (hWoken.of_set rfl hPhase ?_)
    exact nofun

/-- Whoever is about to test the flag is not the one who does something else. -/
theorem ne_of_tests (hBefore : abort.threads[other]? = some before) (hNot : before.tests = false)
    (hPhase : abort.threads[thread]? = some phase) (hTests : phase.tests = true) :
    other ≠ thread := by
  rintro rfl
  obtain rfl := Option.some.inj (hBefore.symm.trans hPhase)
  rw [hNot] at hTests
  cases hTests

theorem Transition.testing_stays (hTransition : Transition abort event next)
    (hTester : abort.tester? event = none) (hPhase : abort.threads[thread]? = some phase)
    (hTests : phase.tests = true) : next.threads[thread]? = some phase := by
  have hOthers {other : Nat} {before : AbortPhase} (hBefore : abort.threads[other]? = some before)
      (hNot : before.tests = false) (after : AbortPhase) :
      (abort.threads.set other after)[thread]? = some phase := by
    rw [List.getElem?_set_ne (ne_of_tests hBefore hNot hPhase hTests)]
    exact hPhase
  cases hTransition with
  | raise | wait =>
    obtain ⟨hLt, -⟩ := List.getElem?_eq_some_iff.mp hPhase
    exact (List.getElem?_append_left hLt).trans hPhase
  | @notified other hBefore =>
    show ((abort.threads.map AbortPhase.wake).set other .leaving)[thread]? = some phase
    rw [List.getElem?_set_ne (ne_of_tests hBefore rfl hPhase hTests), List.getElem?_map, hPhase]
    cases phase with
    | parked => cases hTests
    | _ => rfl
  | tested hBefore | parked hBefore | concluded hBefore =>
    exact absurd hTester (tester?_ne_none hBefore rfl)
  | passed => exact hPhase
  | flagSet hBefore | knocked hBefore | left hBefore | arrived hBefore | resumed hBefore
  | timedOut hBefore | stirred hBefore => exact hOthers hBefore rfl _

end Abort

end PacketLog
