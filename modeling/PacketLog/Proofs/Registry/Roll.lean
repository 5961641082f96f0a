import Mathlib.Data.List.Sort
import PacketLog.Registry

/-!
# Workers are joined once

`Registry.reap` and `Registry.joinAll?` say what a reap and the final joining come to while no
thread ends in between.  In truth threads end at any time.  A reap takes the lock, looks at one
handle after another, puts back those that it found running, and joins the others without the lock,
when new workers may be registered already.  The final joining takes all handles out and waits for
them in order.

A roll is a registry in the course of such calls, with the handles that have left it.
`Roll.Transition` lists the steps.  `Roll.Sound` says how the books balance: every handle is held or
has been removed by a reap, and those that are held stand in the order of their registration.
-/

namespace PacketLog

/-- The handle once the thread of worker `id` has come to the state `thread`. -/
def WorkerHandle.settled (handle : WorkerHandle) (id : Nat) (thread : ThreadState) : WorkerHandle :=
  if handle.id = id then { handle with thread := thread } else handle

inductive RollPhase
  | idle
  /-- A reap has the lock.  It has found these ended and these running, and has yet to look at the
  others. -/
  | sorting (ended running others : List WorkerHandle)
  /-- A reap joins those that it has found ended. -/
  | reaping (ended : List WorkerHandle)
  /-- The final joining waits for these, and has those summaries. -/
  | joining (handles : List WorkerHandle) (summaries : List WorkerSummary)
  | finished (summaries : List WorkerSummary)
deriving DecidableEq

inductive RollEvent
  /-- A worker is to be registered, whose thread is spawned or not. -/
  | registered (spawned : Except IoFailure Unit) (room : Bool)
  /-- The thread of worker `id` ends, with a summary or without. -/
  | threadEnded (id : Nat) (thread : ThreadState)
  | reapCalled
  /-- The reap looks at the next handle. -/
  | seen
  /-- The reap gives the lock back. -/
  | released
  /-- The next handle is joined. -/
  | joined
  /-- The final joining begins. -/
  | joinCalled
  /-- The reap or the final joining returns. -/
  | returned

structure Roll where
  registry : Registry := {}
  phase : RollPhase := .idle
  /-- The numbers of the workers that were registered. -/
  registered : List Nat := []
  /-- Those that were joined by a reap. -/
  reaped : List WorkerHandle := []
  /-- Those that were joined in the end. -/
  joined : List WorkerHandle := []
deriving DecidableEq

namespace RollPhase

/-- The handles that a reap has found ended and has not joined yet. -/
def ended : RollPhase → List WorkerHandle
  | sorting ended _ _ => ended
  | reaping ended => ended
  | _ => []

/-- The other handles that are out of the registry and have not been joined. -/
def awaited : RollPhase → List WorkerHandle
  | sorting _ running others => running ++ others
  | joining handles _ => handles
  | _ => []

def settled (phase : RollPhase) (id : Nat) (thread : ThreadState) : RollPhase :=
  match phase with
  | sorting ended running others =>
    sorting ended (running.map (·.settled id thread)) (others.map (·.settled id thread))
  | joining handles summaries => joining (handles.map (·.settled id thread)) summaries
  | phase => phase

end RollPhase

namespace Roll

/-- Those whose threads may still run. -/
def pending (roll : Roll) : List WorkerHandle := roll.registry.handles ++ roll.phase.awaited

/-- Those that a reap has removed. -/
def removed (roll : Roll) : List WorkerHandle := roll.reaped ++ roll.phase.ended

/-- Those that no reap has removed. -/
def held (roll : Roll) : List WorkerHandle := roll.joined ++ roll.pending

def withHandles (roll : Roll) (handles : List WorkerHandle) : Roll :=
  { roll with registry := { roll.registry with handles := handles } }

def onRegistered (roll : Roll) (spawned : Except IoFailure Unit) (room : Bool) : Roll :=
  let (answer, registry) := roll.registry.register (spawned.map fun _ => .running) room
  { roll with
    registry := registry
    registered :=
      match answer with
      | .ok id => roll.registered ++ [id]
      | .error _ => roll.registered }

def step? (roll : Roll) (event : RollEvent) : Option Roll :=
  match roll.phase, event with
  | _, .threadEnded id thread =>
    if (∃ handle ∈ roll.pending, handle.id = id ∧ handle.thread = .running) ∧ thread ≠ .running then
      some
        { roll with
          registry := roll.registry.setThread id thread
          phase := roll.phase.settled id thread }
    else none
  | .idle, .registered spawned room => some (roll.onRegistered spawned room)
  | .reaping _, .registered spawned room => some (roll.onRegistered spawned room)
  | .idle, .reapCalled =>
    some { roll.withHandles [] with phase := .sorting [] [] roll.registry.handles }
  | .sorting ended running (handle :: others), .seen =>
    if handle.isFinished then
      some { roll with phase := .sorting (ended ++ [handle]) running others }
    else some { roll with phase := .sorting ended (running ++ [handle]) others }
  | .sorting ended running [], .released =>
    some { roll.withHandles running with phase := .reaping ended }
  | .reaping (handle :: ended), .joined =>
    if handle.isFinished then
      some { roll with phase := .reaping ended, reaped := roll.reaped ++ [handle] }
    else none
  | .reaping [], .returned => some { roll with phase := .idle }
  | .idle, .joinCalled =>
    some { roll.withHandles [] with phase := .joining roll.registry.handles [] }
  | .joining (handle :: handles) summaries, .joined =>
    if handle.isFinished then
      some
        { roll with
          phase := .joining handles (summaries ++ handle.summary?.toList)
          joined := roll.joined ++ [handle] }
    else none
  | .joining [] summaries, .returned => some { roll with phase := .finished summaries }
  | _, _ => none

def run? (roll : Roll) : List RollEvent → Option Roll
  | [] => some roll
  | event :: later => (roll.step? event).bind fun next => next.run? later

end Roll

/-! ## What one step can be -/

/-- The lock is free, and the final joining has not begun. -/
def RollPhase.isOpen : RollPhase → Bool
  | idle => true
  | reaping _ => true
  | _ => false

namespace Roll

variable {roll next last : Roll} {event : RollEvent} {events : List RollEvent}

inductive Transition (roll : Roll) : RollEvent → Roll → Prop
  | threadEnded {id : Nat} {thread : ThreadState} (hEnded : thread ≠ .running) :
      Transition roll (.threadEnded id thread)
        { roll with
          registry := roll.registry.setThread id thread
          phase := roll.phase.settled id thread }
  | registered {spawned : Except IoFailure Unit} {room : Bool} (hOpen : roll.phase.isOpen = true) :
      Transition roll (.registered spawned room) (roll.onRegistered spawned room)
  | reapCalled (hPhase : roll.phase = .idle) :
      Transition roll .reapCalled
        { roll.withHandles [] with phase := .sorting [] [] roll.registry.handles }
  | seenEnded {ended running others : List WorkerHandle} {handle : WorkerHandle}
      (hPhase : roll.phase = .sorting ended running (handle :: others))
      (hEnded : handle.isFinished = true) :
      Transition roll .seen { roll with phase := .sorting (ended ++ [handle]) running others }
  | seenRunning {ended running others : List WorkerHandle} {handle : WorkerHandle}
      (hPhase : roll.phase = .sorting ended running (handle :: others))
      (hRuns : handle.isFinished = false) :
      Transition roll .seen { roll with phase := .sorting ended (running ++ [handle]) others }
  | released {ended running : List WorkerHandle} (hPhase : roll.phase = .sorting ended running []) :
      Transition roll .released { roll.withHandles running with phase := .reaping ended }
  | reaped {handle : WorkerHandle} {ended : List WorkerHandle}
      (hPhase : roll.phase = .reaping (handle :: ended)) :
      Transition roll .joined
        { roll with phase := .reaping ended, reaped := roll.reaped ++ [handle] }
  | reapReturned (hPhase : roll.phase = .reaping []) :
      Transition roll .returned { roll with phase := .idle }
  | joinCalled (hPhase : roll.phase = .idle) :
      Transition roll .joinCalled
        { roll.withHandles [] with phase := .joining roll.registry.handles [] }
  | joined {handle : WorkerHandle} {handles : List WorkerHandle} {summaries : List WorkerSummary}
      (hPhase : roll.phase = .joining (handle :: handles) summaries)
      (hEnded : handle.isFinished = true) :
      Transition roll .joined
        { roll with
          phase := .joining handles (summaries ++ handle.summary?.toList)
          joined := roll.joined ++ [handle] }
  | joinReturned {summaries : List WorkerSummary} (hPhase : roll.phase = .joining [] summaries) :
      Transition roll .returned { roll with phase := .finished summaries }

theorem transition_of_step? (hStep : roll.step? event = some next) :
    Transition roll event next := by
  unfold step? at hStep
  split at hStep
  · obtain ⟨⟨-, hEnded⟩, hNext⟩ := Option.ite_none_right_eq_some.mp hStep
    obtain rfl := Option.some.inj hNext
    exact .threadEnded hEnded
  · next hPhase =>
    obtain rfl := Option.some.inj hStep
    exact .registered (hPhase ▸ rfl)
  · next hPhase =>
    obtain rfl := Option.some.inj hStep
    exact .registered (hPhase ▸ rfl)
  · next hPhase =>
    obtain rfl := Option.some.inj hStep
    exact .reapCalled hPhase
  · next hPhase =>
    split at hStep
    · next hEnded =>
      obtain rfl := Option.some.inj hStep
      exact .seenEnded hPhase hEnded
    · next hRuns =>
      obtain rfl := Option.some.inj hStep
      exact .seenRunning hPhase (Bool.eq_false_iff.mpr hRuns)
  · next hPhase =>
    obtain rfl := Option.some.inj hStep
    exact .released hPhase
  · next hPhase =>
    obtain ⟨-, hNext⟩ := Option.ite_none_right_eq_some.mp hStep
    obtain rfl := Option.some.inj hNext
    exact .reaped hPhase
  · next hPhase =>
    obtain rfl := Option.some.inj hStep
    exact .reapReturned hPhase
  · next hPhase =>
    obtain rfl := Option.some.inj hStep
    exact .joinCalled hPhase
  · next hPhase =>
    obtain ⟨hEnded, hNext⟩ := Option.ite_none_right_eq_some.mp hStep
    obtain rfl := Option.some.inj hNext
    exact .joined hPhase hEnded
  · next hPhase =>
    obtain rfl := Option.some.inj hStep
    exact .joinReturned hPhase
  · cases hStep

end Roll

/-! ## The books -/

namespace WorkerHandle

@[simp]
theorem settled_id (handle : WorkerHandle) (id : Nat) (thread : ThreadState) :
    (handle.settled id thread).id = handle.id := by
  rw [settled]
  split <;> rfl

theorem map_id_settled (handles : List WorkerHandle) (id : Nat) (thread : ThreadState) :
    (handles.map (·.settled id thread)).map WorkerHandle.id = handles.map WorkerHandle.id := by
  simp

/-- A thread that is seen to have ended had ended before, or ends just now. -/
theorem settled_eq_or (handle : WorkerHandle) (id : Nat) (thread : ThreadState) :
    handle.settled id thread = handle ∨
      handle.settled id thread = { id := id, thread := thread } := by
  rw [settled]
  split
  · next hId =>
    subst hId
    exact Or.inr rfl
  · exact Or.inl rfl

end WorkerHandle

theorem Registry.setThread_handles (registry : Registry) (id : Nat) (thread : ThreadState) :
    (registry.setThread id thread).handles = registry.handles.map (·.settled id thread) := rfl

@[simp]
theorem RollPhase.ended_settled (phase : RollPhase) (id : Nat) (thread : ThreadState) :
    (phase.settled id thread).ended = phase.ended := by
  cases phase <;> rfl

@[simp]
theorem RollPhase.awaited_settled (phase : RollPhase) (id : Nat) (thread : ThreadState) :
    (phase.settled id thread).awaited = phase.awaited.map (·.settled id thread) := by
  cases phase <;> simp [settled, awaited]

namespace Roll

variable {roll next last : Roll} {event : RollEvent} {events : List RollEvent}

/-- What a call that has begun has left in the registry, and what it has collected. -/
def Tidy (roll : Roll) : RollPhase → Prop
  | .idle => roll.joined = []
  | .sorting _ _ _ => roll.joined = [] ∧ roll.registry.handles = []
  | .reaping _ => roll.joined = []
  | .joining _ summaries =>
    roll.registry.handles = [] ∧ summaries = roll.joined.filterMap WorkerHandle.summary?
  | .finished summaries =>
    roll.registry.handles = [] ∧ summaries = roll.joined.filterMap WorkerHandle.summary?

theorem Tidy.settled (hTidy : roll.Tidy roll.phase) (id : Nat) (thread : ThreadState) :
    { roll with
      registry := roll.registry.setThread id thread
      phase := roll.phase.settled id thread }.Tidy (roll.phase.settled id thread) := by
  cases hPhase : roll.phase with
  | idle | reaping =>
    rw [hPhase] at hTidy
    exact hTidy
  | sorting =>
    rw [hPhase] at hTidy
    refine ⟨hTidy.1, ?_⟩
    rw [Registry.setThread_handles, hTidy.2, List.map_nil]
  | joining | finished =>
    rw [hPhase] at hTidy
    refine ⟨?_, hTidy.2⟩
    rw [Registry.setThread_handles, hTidy.1, List.map_nil]

/-- The books balance. -/
structure Sound (roll : Roll) : Prop where
  increasing : roll.registered.Pairwise (· < ·)
  most : ∀ id ∈ roll.registered, id ≤ roll.registry.lastId
  perm : ((roll.removed ++ roll.held).map WorkerHandle.id).Perm roll.registered
  ordered : (roll.held.map WorkerHandle.id).Pairwise (· < ·)
  ended : ∀ handle ∈ roll.removed ++ roll.joined, handle.isFinished = true
  tidy : roll.Tidy roll.phase

theorem sound_new : Sound {} :=
  ⟨.nil, by simp, by simp [removed, held, pending, RollPhase.ended, RollPhase.awaited],
    .nil, by simp [removed, RollPhase.ended], rfl⟩

theorem Sound.of_isOpen (hSound : roll.Sound) (hOpen : roll.phase.isOpen = true) :
    roll.phase.awaited = [] ∧ roll.joined = [] := by
  have hTidy := hSound.tidy
  cases hPhase : roll.phase with
  | idle | reaping =>
    rw [hPhase] at hTidy
    exact ⟨rfl, hTidy⟩
  | _ =>
    rw [hPhase] at hOpen
    cases hOpen

theorem tidy_of_isOpen (hOpen : roll.phase.isOpen = true) (hJoined : next.joined = []) :
    next.Tidy roll.phase := by
  cases hPhase : roll.phase with
  | idle | reaping => exact hJoined
  | _ =>
    rw [hPhase] at hOpen
    cases hOpen

theorem Sound.keep (hSound : roll.Sound) (hRegistered : next.registered = roll.registered)
    (hLast : roll.registry.lastId ≤ next.registry.lastId)
    (hRemoved : next.removed = roll.removed)
    (hHeld : next.held.map WorkerHandle.id = roll.held.map WorkerHandle.id)
    (hJoined : ∀ handle ∈ next.joined, handle ∈ roll.joined ∨ handle.isFinished = true)
    (hTidy : next.Tidy next.phase) : next.Sound where
  increasing := hRegistered ▸ hSound.increasing
  most := by
    intro id hMem
    rw [hRegistered] at hMem
    exact (hSound.most id hMem).trans hLast
  perm := by
    rw [hRegistered, hRemoved, List.map_append, hHeld, ← List.map_append]
    exact hSound.perm
  ordered := hHeld ▸ hSound.ordered
  ended := by
    intro handle hMem
    rw [hRemoved] at hMem
    rcases List.mem_append.mp hMem with hGone | hNext
    · exact hSound.ended handle (List.mem_append_left _ hGone)
    · rcases hJoined handle hNext with hBefore | hEnded
      · exact hSound.ended handle (List.mem_append_right _ hBefore)
      · exact hEnded
  tidy := hTidy

theorem Sound.seenEnded (hSound : roll.Sound) {ended running others : List WorkerHandle}
    {handle : WorkerHandle} (hPhase : roll.phase = .sorting ended running (handle :: others))
    (hEnded : handle.isFinished = true) :
    { roll with phase := .sorting (ended ++ [handle]) running others }.Sound where
  increasing := hSound.increasing
  most := hSound.most
  perm := by
    refine (List.Perm.map _ ?_).trans hSound.perm
    rw [List.perm_iff_count]
    intro other
    simp only [removed, held, pending, hPhase, RollPhase.ended, RollPhase.awaited,
      List.count_append, List.count_cons, List.count_nil]
    omega
  ordered := by
    refine hSound.ordered.sublist (List.Sublist.map _ ?_)
    simp [held, pending, hPhase, RollPhase.awaited]
  ended := by
    intro other hMem
    by_cases hSame : other = handle
    · exact hSame ▸ hEnded
    · refine hSound.ended other ?_
      simpa [removed, hPhase, RollPhase.ended, hSame] using hMem
  tidy := by
    have hTidy := hSound.tidy
    rw [hPhase] at hTidy
    exact hTidy

/-- A worker is registered under the next number, or nothing changes but the last number. -/
theorem onRegistered_cases (roll : Roll) (spawned : Except IoFailure Unit) (room : Bool) :
    (spawned = .ok () ∧ room = true ∧
      (roll.registry.register (spawned.map fun _ => .running) room).1 =
        .ok (roll.registry.lastId + 1) ∧
      roll.onRegistered spawned room =
        { roll with
          registry :=
            { lastId := roll.registry.lastId + 1
              handles := roll.registry.handles ++
                [{ id := roll.registry.lastId + 1, thread := .running }] }
          registered := roll.registered ++ [roll.registry.lastId + 1] }) ∨
    ∃ error lastId, roll.registry.lastId ≤ lastId ∧
      (roll.registry.register (spawned.map fun _ => .running) room).1 = .error error ∧
      roll.onRegistered spawned room =
        { roll with registry := { roll.registry with lastId := lastId } } := by
  cases room with
  | false => exact Or.inr ⟨_, _, le_rfl, rfl, rfl⟩
  | true =>
    cases spawned with
    | error failure => exact Or.inr ⟨_, _, Nat.le_succ _, rfl, rfl⟩
    | ok => exact Or.inl ⟨rfl, rfl, rfl, rfl⟩

theorem Sound.registered (hSound : roll.Sound) (hOpen : roll.phase.isOpen = true)
    (spawned : Except IoFailure Unit) (room : Bool) : (roll.onRegistered spawned room).Sound := by
  obtain ⟨hAwaited, hJoined⟩ := hSound.of_isOpen hOpen
  obtain ⟨-, -, -, hEq⟩ | ⟨error, lastId, hLast, -, hEq⟩ := roll.onRegistered_cases spawned room
  · have hNew : ∀ id ∈ roll.registered, id < roll.registry.lastId + 1 := by
      intro id hMem
      exact Nat.lt_succ_of_le (hSound.most id hMem)
    rw [hEq]
    have hHeld : roll.held = roll.registry.handles := by simp [held, pending, hAwaited, hJoined]
    exact
      { increasing := by
          rw [List.pairwise_append]
          exact ⟨hSound.increasing, List.pairwise_singleton _ _, by simpa using hNew⟩
        most := by
          intro id hMem
          rcases List.mem_append.mp hMem with hBefore | hNow
          · exact (hNew id hBefore).le
          · exact (List.mem_singleton.mp hNow).le
        perm := by
          have hPerm := hSound.perm.append_right [roll.registry.lastId + 1]
          simpa [removed, held, pending, hAwaited, hJoined] using hPerm
        ordered := by
          have hOrdered := hSound.ordered
          rw [hHeld] at hOrdered
          simp only [held, pending, hAwaited, hJoined, List.nil_append, List.append_nil,
            List.map_append, List.map_cons, List.map_nil]
          rw [List.pairwise_append]
          refine ⟨hOrdered, List.pairwise_singleton _ _, ?_⟩
          intro id hMem other hOther
          rw [List.mem_singleton.mp hOther]
          refine hNew id (hSound.perm.mem_iff.mp ?_)
          rw [List.map_append, hHeld]
          exact List.mem_append_right _ hMem
        ended := hSound.ended
        tidy := tidy_of_isOpen hOpen hJoined }
  · rw [hEq]
    exact hSound.keep rfl hLast rfl rfl (fun _ => Or.inl) (tidy_of_isOpen hOpen hJoined)

theorem Sound.step (hSound : roll.Sound) (hTransition : Transition roll event next) :
    next.Sound := by
  have hTidy := hSound.tidy
  cases hTransition with
  | @threadEnded id thread hState =>
    refine hSound.keep rfl le_rfl ?_ ?_ (fun _ => Or.inl) ?_
    · simp [removed]
    · simp only [held, pending, Registry.setThread_handles, RollPhase.awaited_settled,
        List.map_append, WorkerHandle.map_id_settled]
    · exact hTidy.settled id thread
  | registered hOpen => exact hSound.registered hOpen _ _
  | reapCalled hPhase =>
    rw [hPhase] at hTidy
    refine hSound.keep rfl le_rfl ?_ ?_ (fun _ => Or.inl) ⟨hTidy, rfl⟩
    · simp [removed, hPhase, withHandles, RollPhase.ended]
    · simp [held, pending, hPhase, withHandles, RollPhase.awaited]
  | seenEnded hPhase hEnded => exact hSound.seenEnded hPhase hEnded
  | seenRunning hPhase hRuns =>
    rw [hPhase] at hTidy
    refine hSound.keep rfl le_rfl ?_ ?_ (fun _ => Or.inl) hTidy
    · simp [removed, hPhase, RollPhase.ended]
    · simp [held, pending, hPhase, RollPhase.awaited]
  | released hPhase =>
    rw [hPhase] at hTidy
    obtain ⟨hJoined, hHandles⟩ := hTidy
    refine hSound.keep rfl le_rfl ?_ ?_ (fun _ => Or.inl) hJoined
    · simp [removed, hPhase, withHandles, RollPhase.ended]
    · simp [held, pending, hPhase, hHandles, withHandles, RollPhase.awaited]
  | reaped hPhase =>
    rw [hPhase] at hTidy
    refine hSound.keep rfl le_rfl ?_ ?_ (fun _ => Or.inl) hTidy
    · simp [removed, hPhase, RollPhase.ended]
    · simp [held, pending, hPhase, RollPhase.awaited]
  | reapReturned hPhase =>
    rw [hPhase] at hTidy
    refine hSound.keep rfl le_rfl ?_ ?_ (fun _ => Or.inl) hTidy
    · simp [removed, hPhase, RollPhase.ended]
    · simp [held, pending, hPhase, RollPhase.awaited]
  | joinCalled hPhase =>
    rw [hPhase] at hTidy
    have hJoined : roll.joined = [] := hTidy
    refine hSound.keep rfl le_rfl ?_ ?_ (fun _ => Or.inl) ⟨rfl, ?_⟩
    · simp [removed, hPhase, withHandles, RollPhase.ended]
    · simp [held, pending, hPhase, withHandles, RollPhase.awaited]
    · simp [withHandles, hJoined]
  | joined hPhase hEnded =>
    rw [hPhase] at hTidy
    obtain ⟨hHandles, hSummaries⟩ := hTidy
    refine hSound.keep rfl le_rfl ?_ ?_ ?_ ⟨hHandles, ?_⟩
    · simp [removed, hPhase, RollPhase.ended]
    · simp [held, pending, hPhase, hHandles, RollPhase.awaited]
    · intro handle hMem
      rcases List.mem_append.mp hMem with hBefore | hNow
      · exact Or.inl hBefore
      · rw [List.mem_singleton.mp hNow]
        exact Or.inr hEnded
    · rw [hSummaries, List.filterMap_append]
      cases hSummary : WorkerHandle.summary? _ <;> simp [hSummary]
  | joinReturned hPhase =>
    rw [hPhase] at hTidy
    refine hSound.keep rfl le_rfl ?_ ?_ (fun _ => Or.inl) hTidy
    · simp [removed, hPhase, RollPhase.ended]
    · simp [held, pending, hPhase, RollPhase.awaited]

theorem Sound.run (hSound : roll.Sound) (hRun : roll.run? events = some last) : last.Sound := by
  induction events generalizing roll with
  | nil =>
    obtain rfl := Option.some.inj hRun
    exact hSound
  | cons event later ih =>
    obtain ⟨next, hStep, hRest⟩ := Option.bind_eq_some_iff.mp hRun
    exact ih (hSound.step (transition_of_step? hStep)) hRest

theorem Sound.registered_nodup (hSound : roll.Sound) : roll.registered.Nodup :=
  hSound.increasing.imp fun hLt => Nat.ne_of_lt hLt

theorem Sound.held_ids (hSound : roll.Sound) : roll.held.map WorkerHandle.id =
    roll.registered.filter fun id => id ∉ roll.removed.map WorkerHandle.id := by
  have hNodup := hSound.perm.nodup_iff.mpr hSound.registered_nodup
  rw [List.map_append, List.nodup_append] at hNodup
  obtain ⟨-, hHeld, hApart⟩ := hNodup
  have hPerm : (roll.held.map WorkerHandle.id).Perm
      (roll.registered.filter fun id => id ∉ roll.removed.map WorkerHandle.id) := by
    refine (List.perm_ext_iff_of_nodup hHeld (hSound.registered_nodup.filter _)).mpr fun id => ?_
    rw [List.mem_filter, decide_eq_true_iff, ← hSound.perm.mem_iff, List.map_append,
      List.mem_append]
    constructor
    · intro hMem
      exact ⟨Or.inr hMem, fun hGone => hApart id hGone id hMem rfl⟩
    · rintro ⟨hGone | hMem, hNot⟩
      · exact absurd hGone hNot
      · exact hMem
  refine hPerm.eq_of_pairwise ?_ hSound.ordered (hSound.increasing.filter _)
  intro id other _ _ hLt hGt
  exact absurd hGt hLt.asymm

/-- A handle whose thread is seen to have ended was so before, or its thread ends just now. -/
theorem Transition.threadEnded_of_mem (hTransition : Transition roll event next)
    {handle : WorkerHandle} (hMem : handle ∈ next.removed ++ next.held)
    (hEnded : handle.isFinished = true) :
    handle ∈ roll.removed ++ roll.held ∨ event = .threadEnded handle.id handle.thread := by
  cases hTransition with
  | @threadEnded id thread hState =>
    have hSettled (before : List WorkerHandle)
        (hHandle : handle ∈ before.map (·.settled id thread)) : handle ∈ before ∨
          RollEvent.threadEnded id thread = .threadEnded handle.id handle.thread := by
      obtain ⟨other, hOther, rfl⟩ := List.mem_map.mp hHandle
      rcases other.settled_eq_or id thread with hSame | hEnds
      · rw [hSame]
        exact Or.inl hOther
      · rw [hEnds]
        exact Or.inr rfl
    simp only [removed, held, pending, RollPhase.ended_settled, RollPhase.awaited_settled,
      Registry.setThread_handles, List.mem_append] at hMem ⊢
    rcases hMem with (hReaped | hGone) | hJoined | hHandle | hHandle
    · exact Or.inl (Or.inl (Or.inl hReaped))
    · exact Or.inl (Or.inl (Or.inr hGone))
    · exact Or.inl (Or.inr (Or.inl hJoined))
    · exact (hSettled _ hHandle).imp_left fun hBefore => Or.inr (Or.inr (Or.inl hBefore))
    · exact (hSettled _ hHandle).imp_left fun hBefore => Or.inr (Or.inr (Or.inr hBefore))
  | @registered spawned room hOpen =>
    obtain ⟨-, -, -, hEq⟩ | ⟨error, lastId, -, -, hEq⟩ := roll.onRegistered_cases spawned room
    · -- The thread of a new worker runs.
      have hOld : handle ≠ { id := roll.registry.lastId + 1, thread := .running } := by
        rintro rfl
        cases hEnded
      rw [hEq] at hMem
      simp only [removed, held, pending, List.mem_append, List.mem_singleton, hOld] at hMem ⊢
      tauto
    · rw [hEq] at hMem
      exact Or.inl hMem
  | reapCalled hPhase | seenEnded hPhase | seenRunning hPhase | released hPhase | reaped hPhase
  | reapReturned hPhase | joinCalled hPhase | joined hPhase | joinReturned hPhase =>
    left
    simp only [removed, held, pending, hPhase, withHandles, RollPhase.ended, RollPhase.awaited,
      List.mem_append, List.mem_cons, List.not_mem_nil] at hMem ⊢
    tauto

theorem threadEnded_mem (hRun : roll.run? events = some last) {handle : WorkerHandle}
    (hMem : handle ∈ last.removed ++ last.held) (hEnded : handle.isFinished = true) :
    handle ∈ roll.removed ++ roll.held ∨ .threadEnded handle.id handle.thread ∈ events := by
  induction events generalizing roll with
  | nil =>
    obtain rfl := Option.some.inj hRun
    exact Or.inl hMem
  | cons event later ih =>
    obtain ⟨next, hStep, hRest⟩ := Option.bind_eq_some_iff.mp hRun
    rcases ih hRest with hNext | hLater
    · rcases (transition_of_step? hStep).threadEnded_of_mem hNext hEnded with hBefore | rfl
      · exact Or.inl hBefore
      · exact Or.inr List.mem_cons_self
    · exact Or.inr (List.mem_cons_of_mem _ hLater)

/-! ## Calls during which no thread ends -/

theorem run?_append (roll : Roll) (earlier later : List RollEvent) :
    roll.run? (earlier ++ later) = (roll.run? earlier).bind fun middle => middle.run? later := by
  induction earlier generalizing roll with
  | nil => rfl
  | cons event earlier ih => simp only [List.cons_append, run?, ih, Option.bind_assoc]

theorem run?_cons {later : List RollEvent} (hStep : roll.step? event = some next) :
    roll.run? (event :: later) = next.run? later := by
  rw [run?, hStep, Option.bind_some]

theorem run?_seen {ended running others : List WorkerHandle}
    (hPhase : roll.phase = .sorting ended running others) :
    roll.run? (.replicate others.length .seen) =
      some
        { roll with
          phase := .sorting (ended ++ others.filter WorkerHandle.isFinished)
            (running ++ others.filter fun handle => !handle.isFinished) [] } := by
  induction others generalizing roll ended running with
  | nil => simp [run?, ← hPhase]
  | cons handle others ih =>
    rw [List.length_cons, List.replicate_succ]
    cases hEnded : handle.isFinished with
    | true =>
      have hStep : roll.step? .seen =
          some { roll with phase := .sorting (ended ++ [handle]) running others } := by
        simp [step?, hPhase, hEnded]
      rw [run?_cons hStep, ih rfl]
      simp [hEnded]
    | false =>
      have hStep : roll.step? .seen =
          some { roll with phase := .sorting ended (running ++ [handle]) others } := by
        simp [step?, hPhase, hEnded]
      rw [run?_cons hStep, ih rfl]
      simp [hEnded]

theorem run?_reaping {ended : List WorkerHandle} (hPhase : roll.phase = .reaping ended)
    (hEnded : ended.all WorkerHandle.isFinished = true) :
    roll.run? (.replicate ended.length .joined) =
      some { roll with phase := .reaping [], reaped := roll.reaped ++ ended } := by
  induction ended generalizing roll with
  | nil => simp [run?, ← hPhase]
  | cons handle ended ih =>
    obtain ⟨hHandle, hLater⟩ := Bool.and_eq_true_iff.mp hEnded
    have hStep : roll.step? .joined =
        some { roll with phase := .reaping ended, reaped := roll.reaped ++ [handle] } := by
      simp [step?, hPhase, hHandle]
    rw [List.length_cons, List.replicate_succ, run?_cons hStep, ih rfl hLater]
    simp

theorem run?_joining {handles : List WorkerHandle} {summaries : List WorkerSummary}
    (hPhase : roll.phase = .joining handles summaries)
    (hEnded : handles.all WorkerHandle.isFinished = true) :
    roll.run? (.replicate handles.length .joined ++ [.returned]) =
      some
        { roll with
          phase := .finished (summaries ++ handles.filterMap WorkerHandle.summary?)
          joined := roll.joined ++ handles } := by
  induction handles generalizing roll summaries with
  | nil => simp [run?, step?, hPhase]
  | cons handle handles ih =>
    obtain ⟨hHandle, hLater⟩ := Bool.and_eq_true_iff.mp hEnded
    have hStep : roll.step? .joined =
        some
          { roll with
            phase := .joining handles (summaries ++ handle.summary?.toList)
            joined := roll.joined ++ [handle] } := by
      simp [step?, hPhase, hHandle]
    rw [List.length_cons, List.replicate_succ, List.cons_append, run?_cons hStep, ih rfl hLater]
    cases hSummary : handle.summary? <;> simp [hSummary]

def reapSteps (seen joined : Nat) : List RollEvent :=
  .reapCalled :: (List.replicate seen .seen ++ .released ::
    (List.replicate joined .joined ++ [.returned]))

def joinSteps (joined : Nat) : List RollEvent :=
  .joinCalled :: (List.replicate joined .joined ++ [.returned])

/-- A reap during which no thread ends. -/
theorem run?_reap (hPhase : roll.phase = .idle) :
    roll.run? (reapSteps roll.registry.length roll.registry.reap.1) =
      some
        { roll with
          registry := roll.registry.reap.2
          reaped := roll.reaped ++ roll.registry.handles.filter WorkerHandle.isFinished } := by
  have hCalled : roll.step? .reapCalled =
      some { roll.withHandles [] with phase := .sorting [] [] roll.registry.handles } := by
    simp [step?, hPhase]
  have hEnded : (roll.registry.handles.filter WorkerHandle.isFinished).all
      WorkerHandle.isFinished = true := by simp
  rw [reapSteps, run?_cons hCalled, run?_append, Registry.length, run?_seen rfl, Option.bind_some,
    run?_cons rfl, run?_append, Registry.reap, List.nil_append, run?_reaping rfl hEnded]
  simp [run?, step?, withHandles, hPhase]

/-- The final joining, when all threads have ended. -/
theorem run?_joinAll (hPhase : roll.phase = .idle) {summaries : List WorkerSummary}
    {registry : Registry} (hJoin : roll.registry.joinAll? = some (summaries, registry)) :
    roll.run? (joinSteps roll.registry.length) =
      some
        { roll with
          registry := registry
          phase := .finished summaries
          joined := roll.joined ++ roll.registry.handles } := by
  obtain ⟨hEnded, hAnswer⟩ := Option.ite_none_right_eq_some.mp hJoin
  obtain ⟨rfl, rfl⟩ := Prod.mk.inj (Option.some.inj hAnswer)
  have hCalled : roll.step? .joinCalled =
      some { roll.withHandles [] with phase := .joining roll.registry.handles [] } := by
    simp [step?, hPhase]
  rw [joinSteps, run?_cons hCalled, Registry.length, run?_joining rfl hEnded]
  rfl

/-! ## Any run -/

/-- **Every worker is joined once.**  A registry starts empty; workers are registered or not, reaps
come and go, and in the end all are joined, while threads end at any time.  Then numbers are given
in increasing order, the handles stand in that order, and each registered worker has one handle: a
reap has removed it, or it is held.  It is joined only once its thread has ended, as it ended.
While the lock is free the registry has as many handles as were registered and not removed.  A
worker that could not be registered changes nothing but the last number.

When the final joining has returned, all have been joined, and the registry is empty.  Those that no
reap had removed were joined in the order of their registration, and the answer is what they
reported, apart from those whose threads broke off.  It does return once those threads have ended.

If no thread ends in between, a reap and the final joining come to `Registry.reap` and
`Registry.joinAll?`, which has an answer once all threads have ended. -/
theorem joined_once (hRun : Roll.run? {} events = some roll) :
    roll.registered.Pairwise (· < ·) ∧
    (roll.held.map WorkerHandle.id).Pairwise (· < ·) ∧
    ((roll.removed ++ roll.held).map WorkerHandle.id).Perm roll.registered ∧
    (∀ handle ∈ roll.removed ++ roll.joined,
      handle.isFinished = true ∧ .threadEnded handle.id handle.thread ∈ events) ∧
    (roll.phase.isOpen = true → roll.held = roll.registry.handles ∧
      roll.registry.length + roll.removed.length = roll.registered.length) ∧
    (∀ spawned room error next, roll.step? (.registered spawned room) = some next →
      (roll.registry.register (spawned.map fun _ => .running) room).1 = .error error →
      next = { roll with registry := { roll.registry with lastId := next.registry.lastId } }) ∧
    (∀ summaries, roll.phase = .finished summaries → roll.registry.handles = [] ∧
      ((roll.reaped ++ roll.joined).map WorkerHandle.id).Perm roll.registered ∧
      roll.joined.map WorkerHandle.id =
        roll.registered.filter (fun id => id ∉ roll.reaped.map WorkerHandle.id) ∧
      summaries = roll.joined.filterMap WorkerHandle.summary?) ∧
    (∀ handles summaries, roll.phase = .joining handles summaries →
      handles.all WorkerHandle.isFinished = true →
      ∃ last, roll.run? (.replicate handles.length .joined ++ [.returned]) = some last ∧
        ∃ all, last.phase = .finished all) ∧
    (roll.phase = .idle → ∃ last,
      roll.run? (reapSteps roll.registry.length roll.registry.reap.1) = some last ∧
        last.phase = .idle ∧ last.registry = roll.registry.reap.2) ∧
    (roll.registry.joinAll?.isSome = true ↔
      ∀ handle ∈ roll.registry.handles, handle.thread ≠ .running) ∧
    ∀ summaries registry, roll.phase = .idle →
      roll.registry.joinAll? = some (summaries, registry) → ∃ last,
        roll.run? (joinSteps roll.registry.length) = some last ∧ last.phase = .finished summaries ∧
          last.registry = registry := by
  have hSound : roll.Sound := sound_new.run hRun
  have hTidy := hSound.tidy
  refine ⟨hSound.increasing, hSound.ordered, hSound.perm, ?_, ?_, ?_, ?_, ?_, ?_,
    roll.registry.isSome_joinAll?_iff, ?_⟩
  · intro handle hMem
    have hEnded := hSound.ended handle hMem
    have hHandle : handle ∈ roll.removed ++ roll.held := by
      rw [held, ← List.append_assoc]
      exact List.mem_append_left _ hMem
    refine ⟨hEnded, (threadEnded_mem hRun hHandle hEnded).resolve_left ?_⟩
    simp [removed, held, pending, RollPhase.ended, RollPhase.awaited]
  · intro hOpen
    obtain ⟨hAwaited, hJoined⟩ := hSound.of_isOpen hOpen
    have hHeld : roll.held = roll.registry.handles := by
      simp [held, pending, hAwaited, hJoined]
    have hLength := hSound.perm.length_eq
    rw [List.length_map, List.length_append, hHeld] at hLength
    refine ⟨hHeld, ?_⟩
    rw [Registry.length, ← hLength, Nat.add_comm]
  · intro spawned room error next hStep hError
    cases transition_of_step? hStep with
    | registered hOpen =>
      obtain ⟨-, -, hOk, -⟩ | ⟨_, lastId, -, -, hEq⟩ := roll.onRegistered_cases spawned room
      · rw [hOk] at hError
        cases hError
      · rw [hEq]
  · intro summaries hPhase
    rw [hPhase] at hTidy
    obtain ⟨hHandles, hSummaries⟩ := hTidy
    have hHeld : roll.held = roll.joined := by
      simp [held, pending, hHandles, hPhase, RollPhase.awaited]
    have hRemoved : roll.removed = roll.reaped := by simp [removed, hPhase, RollPhase.ended]
    have hPerm := hSound.perm
    have hIds := hSound.held_ids
    rw [hRemoved, hHeld] at hPerm hIds
    exact ⟨hHandles, hPerm, hIds, hSummaries⟩
  · intro handles summaries hPhase hEnded
    exact ⟨_, run?_joining hPhase hEnded, _, rfl⟩
  · intro hPhase
    exact ⟨_, run?_reap hPhase, hPhase, rfl⟩
  · intro summaries registry hPhase hJoin
    exact ⟨_, run?_joinAll hPhase hJoin, rfl, rfl⟩

/-- Two workers end while a reap looks at their handles, when it has passed the first.  A spawn has
failed before, and a third worker comes while the second is joined, and breaks off. -/
theorem joined_once_of_three :
    let summary (id : Nat) : WorkerSummary := { id := id, packets := id, exit := .peerClosed }
    let failure : IoFailure := ⟨.wouldBlock, "Resource temporarily unavailable (os error 11)"⟩
    let events : List RollEvent :=
      [.registered (.ok ()) true, .registered (.ok ()) true, .registered (.error failure) true,
        .reapCalled, .seen, .threadEnded 1 (.ended (summary 1)),
        .threadEnded 2 (.ended (summary 2)), .seen, .released, .registered (.ok ()) true, .joined,
        .returned, .joinCalled, .joined, .threadEnded 4 .broken, .joined, .returned]
    ∃ roll, Roll.run? {} events = some roll ∧ roll.registered = [1, 2, 4] ∧
      roll.reaped = [{ id := 2, thread := .ended (summary 2) }] ∧
      roll.phase = .finished [summary 1] ∧ roll.registry.handles = [] ∧
      roll.joined.map WorkerHandle.id = [1, 4] := by
  intro summary failure events
  obtain ⟨roll, hRun, hRegistered, hReaped, hPhase⟩ : ∃ roll, Roll.run? {} events = some roll ∧
      roll.registered = [1, 2, 4] ∧
      roll.reaped = [{ id := 2, thread := .ended (summary 2) }] ∧
      roll.phase = .finished [summary 1] := ⟨_, rfl, rfl, rfl, rfl⟩
  obtain ⟨-, -, -, -, -, -, hOver, -⟩ := joined_once hRun
  obtain ⟨hEmpty, -, hJoined, -⟩ := hOver _ hPhase
  rw [hRegistered, hReaped] at hJoined
  exact ⟨roll, hRun, hRegistered, hReaped, hPhase, hEmpty, hJoined⟩

end Roll

end PacketLog
