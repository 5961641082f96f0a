import PacketLog.Proofs.FileStore.Appends
import PacketLog.Proofs.Registry.Roll
import PacketLog.Proofs.Stamper.Records

/-!
# Counters stay words

What is counted one by one, packets, records and the numbers of workers, takes a step for each, so
that a run of fewer than `Word.bound` steps never passes the last word.  The length of a store
grows by no more than the bytes offered.
-/

namespace PacketLog

/-! ## Counts -/

section Count

variable {σ ε : Type} {step? : σ → ε → Option σ} {run? : σ → List ε → Option σ}

/-- What no step raises by more than one is raised by no more than the number of steps. -/
theorem count_le_of_run (count : σ → Nat) (hNil : ∀ state, run? state [] = some state)
    (hCons : ∀ state event later,
      run? state (event :: later) = (step? state event).bind fun next => run? next later)
    (hStep : ∀ state event next, step? state event = some next → count next ≤ count state + 1)
    {state last : σ} {events : List ε} (hRun : run? state events = some last) :
    count last ≤ count state + events.length := by
  induction events generalizing state with
  | nil =>
    rw [hNil] at hRun
    obtain rfl := Option.some.inj hRun
    exact Nat.le_refl _
  | cons event later ih =>
    rw [hCons] at hRun
    obtain ⟨next, hNext, hLater⟩ := Option.bind_eq_some_iff.mp hRun
    have hOne := hStep state event next hNext
    have hRest := ih hLater
    rw [List.length_cons]
    omega

end Count

theorem Worker.packets_le_of_step {worker next : Worker} {event : WorkerEvent}
    (hStep : worker.step? event = some next) : next.packets ≤ worker.packets + 1 := by
  cases transition_of_step? hStep with
  | committed => exact Nat.le_refl _
  | _ => exact Nat.le_succ _

theorem Worker.packets_lt_bound {worker last : Worker} {events : List WorkerEvent}
    (hRun : worker.run? events = some last)
    (hShort : worker.packets + events.length < Word.bound) : last.packets < Word.bound := by
  have hLe := count_le_of_run packets (fun _ => rfl) (fun _ _ _ => rfl)
    (fun _ _ _ => packets_le_of_step) hRun
  exact Nat.lt_of_le_of_lt hLe hShort

theorem Stamper.Transition.appended_le {stamper next : Stamper} {event : StamperEvent}
    (hTransition : Transition stamper event next) : next.appended ≤ stamper.appended + 1 := by
  cases hTransition with
  | committed | overflowed => exact Nat.le_refl _
  | _ => exact Nat.le_succ _

theorem Recorder.appended_le_of_step {recorder next : Recorder} {event : RecorderEvent}
    (hStep : recorder.step? event = some next) :
    next.stamper.appended ≤ recorder.stamper.appended + 1 := by
  cases transition_of_step? hStep with
  | elsewhere | signalled | missed | waited => exact Nat.le_succ _
  | moved _ hMoved => exact hMoved.appended_le
  | returned _ _ _ _ hReturned =>
    rw [fallAsleep_stamper]
    exact hReturned.appended_le

theorem Recorder.appended_lt_bound {recorder last : Recorder} {events : List RecorderEvent}
    (hRun : recorder.run? events = some last)
    (hShort : recorder.stamper.appended + events.length < Word.bound) :
    last.stamper.appended < Word.bound := by
  have hLe := count_le_of_run (fun recorder : Recorder => recorder.stamper.appended)
    (fun _ => rfl) (fun _ _ _ => rfl) (fun _ _ _ => appended_le_of_step) hRun
  exact Nat.lt_of_le_of_lt hLe hShort

theorem Registry.lastId_le_register (registry : Registry) (spawn : Except IoFailure ThreadState)
    (room : Bool) : (registry.register spawn room).2.lastId ≤ registry.lastId + 1 := by
  cases room with
  | false => exact Nat.le_succ _
  | true => cases spawn <;> exact Nat.le_refl _

theorem Roll.lastId_le_of_step {roll next : Roll} {event : RollEvent}
    (hStep : roll.step? event = some next) :
    next.registry.lastId ≤ roll.registry.lastId + 1 := by
  cases transition_of_step? hStep with
  | registered => exact roll.registry.lastId_le_register _ _
  | _ => exact Nat.le_succ _

theorem Roll.lastId_lt_bound {roll last : Roll} {events : List RollEvent}
    (hRun : roll.run? events = some last)
    (hShort : roll.registry.lastId + events.length < Word.bound) :
    last.registry.lastId < Word.bound := by
  have hLe := count_le_of_run (fun roll : Roll => roll.registry.lastId)
    (fun _ => rfl) (fun _ _ _ => rfl) (fun _ _ _ => lastId_le_of_step) hRun
  exact Nat.lt_of_le_of_lt hLe hShort

/-! ## Lengths -/

namespace FileStore

theorem length_flatten_takenIn_le (calls : List (Bytes × List WriteAnswer)) :
    (takenIn calls).flatten.length ≤ (calls.map fun call => call.1.length).sum := by
  rw [List.length_flatten, takenIn, List.map_map]
  exact List.sum_le_sum fun call _ => (taken_isPrefix call.1 call.2).length_le

theorem length_lt_bound {store after : FileStore} {files filesAfter : FileSystem}
    {calls : List (Bytes × List WriteAnswer)} {records : List (Bytes × Outcome Unit)}
    (hAppends : store.appendAll files calls = (records, after, filesAfter))
    (hShort : store.length + (calls.map fun call => call.1.length).sum < Word.bound) :
    after.length < Word.bound := by
  rw [(extends_appendAll hAppends).1.length_eq]
  exact Nat.lt_of_le_of_lt (Nat.add_le_add_left (length_flatten_takenIn_le calls) _) hShort

end FileStore

end PacketLog
