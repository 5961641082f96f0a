import Mathlib.Algebra.Order.BigOperators.Group.List
import Mathlib.Algebra.Order.Ring.Nat
import PacketLog.Proofs.Stamper.Steps

/-!
# The pace of the appender

A `Pacer` is the appender with a clock, in turns of its loop that nothing ends: the abort signal is
not raised and every record is committed.  A `Lap` says how long the work of a turn takes and how
late the sleep after it ends.  The deadline of the sleep is one interval after the record was begun,
and the next record is begun when the sleep is over (`Pacer.turn?_ready`).  So the work of a turn
does not count, but the delays add up: a record that is begun late makes all later ones late
(`Pacer.begun_run`).
-/

namespace PacketLog

structure Lap where
  /-- From the beginning of the record until it is committed. -/
  work : Nat
  /-- From the deadline, or the end of the work if that is later, until the sleep is over. -/
  delay : Nat
  /-- What the record shows. -/
  moment : Moment

structure Pacer where
  stamper : Stamper
  now : Nat
  /-- When the records were begun, the oldest first. -/
  begun : List Nat := []

namespace Stamper

def deadline? (stamper : Stamper) : Option Nat :=
  match stamper.phase with
  | .sleeping deadline => some deadline
  | _ => none

end Stamper

namespace Pacer

/-- An appender about to look at the abort signal, with so many records behind it. -/
def ready (interval appended now : Nat) (begun : List Nat) : Pacer :=
  { stamper := { interval := interval, appended := appended }, now := now, begun := begun }

/-- The steps of one turn, each at its instant. -/
def turn? (pacer : Pacer) (lap : Lap) : Option Pacer := do
  let cleared ← pacer.stamper.step? (.looked false)
  let begun ← cleared.step? (.begun pacer.now lap.moment)
  let asleep ← begun.step? (.committed (.ok ()))
  let deadline ← asleep.deadline?
  let now := max deadline (pacer.now + lap.work) + lap.delay
  let woken ← asleep.step? (.woken now false)
  return { stamper := woken, now := now, begun := pacer.begun ++ [pacer.now] }

def run? (pacer : Pacer) : List Lap → Option Pacer
  | [] => some pacer
  | lap :: later => (pacer.turn? lap).bind fun next => next.run? later

/-- When the records of these turns are begun, the first of them now. -/
def beginnings (interval now : Nat) : List Lap → List Nat
  | [] => []
  | lap :: later => now :: beginnings interval (now + interval + lap.delay) later

variable {lap : Lap} {laps : List Lap} {interval appended now : Nat} {begun : List Nat}

/-! ## One turn -/

/-- The next turn begins when the sleep is over, however late that is. -/
theorem turn?_ready {deadline : Nat} {text : String}
    (hShown : Timestamp.record lap.moment = .ok text)
    (hLater : Clock.later? now interval = some deadline) :
    (ready interval appended now begun).turn? lap =
      some (ready interval (appended + 1) (max deadline (now + lap.work) + lap.delay)
        (begun ++ [now])) := by
  have hPassed : deadline ≤ max deadline (now + lap.work) + lap.delay :=
    Nat.le_add_right_of_le (Nat.le_max_left ..)
  simp [turn?, ready, Stamper.step?, Stamper.goTo, Stamper.onBegun, Stamper.onCommitted,
    Stamper.sleep, Stamper.deadline?, hShown, hLater, hPassed]

/-! ## Any number of turns -/

theorem length_beginnings (interval now : Nat) (laps : List Lap) :
    (beginnings interval now laps).length = laps.length := by
  induction laps generalizing now with
  | nil => rfl
  | cons lap later ih => rw [beginnings, List.length_cons, List.length_cons, ih]

theorem getElem?_beginnings (interval now : Nat) {k : Nat} (hLt : k < laps.length) :
    (beginnings interval now laps)[k]? =
      some (now + k * interval + ((laps.take k).map Lap.delay).sum) := by
  induction laps generalizing now k with
  | nil => cases hLt
  | cons lap later ih =>
    cases k with
    | zero => simp [beginnings]
    | succ k =>
      rw [beginnings, List.getElem?_cons_succ, ih _ (Nat.lt_of_succ_lt_succ hLt)]
      simp only [List.take_succ_cons, List.map_cons, List.sum_cons, Nat.succ_mul]
      congr 1
      omega

/-- The work of a turn does not count, as it is over before the next deadline. -/
theorem run?_ready (hWork : ∀ lap ∈ laps, lap.work < interval)
    (hShown : ∀ lap ∈ laps, ∃ text, Timestamp.record lap.moment = .ok text)
    (hBound : now + laps.length * interval + (laps.map Lap.delay).sum < Clock.bound) :
    (ready interval appended now begun).run? laps =
      some (ready interval (appended + laps.length)
        (now + laps.length * interval + (laps.map Lap.delay).sum)
        (begun ++ beginnings interval now laps)) := by
  induction laps generalizing appended now begun with
  | nil => simp [run?, beginnings]
  | cons lap later ih =>
    obtain ⟨hFirst, hRest⟩ := List.forall_mem_cons.mp hWork
    obtain ⟨⟨text, hText⟩, hTexts⟩ := List.forall_mem_cons.mp hShown
    rw [List.length_cons, List.map_cons, List.sum_cons, Nat.succ_mul] at hBound ⊢
    have hLater : Clock.later? now interval = some (now + interval) := if_pos (by omega)
    have hMax : max (now + interval) (now + lap.work) = now + interval := by omega
    rw [run?, turn?_ready hText hLater, Option.bind_some, hMax, ih hRest hTexts (by omega),
      beginnings, List.append_assoc, List.singleton_append]
    congr 2 <;> omega

/-- **A late record makes all later ones late.**  The appender begins every record one interval
and the delay of its sleep after the one before it, however long the work between them takes, so
the `k`-th record is as late as all delays before it together. -/
theorem begun_run (interval t0 late : Nat) (laps : List Lap)
    (hWork : ∀ lap ∈ laps, lap.work < interval) (hLate : ∀ lap ∈ laps, lap.delay ≤ late)
    (hShown : ∀ lap ∈ laps, ∃ text, Timestamp.record lap.moment = .ok text)
    (hBound : t0 + laps.length * interval + (laps.map Lap.delay).sum < Clock.bound) :
    ∃ last, (ready interval 0 t0 []).run? laps = some last ∧
      last.stamper.appended = laps.length ∧ last.begun.length = laps.length ∧
      ∀ k < laps.length, ∃ lateness, last.begun[k]? = some (t0 + k * interval + lateness) ∧
        lateness = ((laps.take k).map Lap.delay).sum ∧ lateness ≤ k * late := by
  refine ⟨_, run?_ready hWork hShown hBound, Nat.zero_add _, length_beginnings .., ?_⟩
  intro k hLt
  refine ⟨_, getElem?_beginnings interval t0 hLt, rfl, ?_⟩
  have hEach : ∀ delay ∈ (laps.take k).map Lap.delay, delay ≤ late := by
    intro delay hMem
    obtain ⟨lap, hLap, rfl⟩ := List.mem_map.mp hMem
    exact hLate lap (List.mem_of_mem_take hLap)
  have hSum := List.sum_le_card_nsmul _ late hEach
  rwa [List.length_map, List.length_take_of_le hLt.le, Nat.nsmul_eq_mul] at hSum

/-- A delay of one second and a delay of two, by the third record three seconds. -/
theorem begun_run_of_two_delays :
    let interval := Clock.ofSeconds Stamper.defaultSeconds
    let lap (seconds : Nat) : Lap :=
      { work := Clock.ofMillis 1, delay := Clock.ofSeconds seconds, moment := { unix := 0 } }
    let laps := [lap 1, lap 2, lap 0]
    (∀ lap ∈ laps, lap.work < interval) ∧ (∀ lap ∈ laps, lap.delay ≤ Clock.ofSeconds 2) ∧
    ∃ last, (ready interval 0 0 []).run? laps = some last ∧ last.stamper.appended = 3 ∧
      last.begun[2]? = some (Clock.ofSeconds 23) := by
  intro interval lap laps
  have hWork : ∀ lap ∈ laps, lap.work < interval := by decide
  have hLate : ∀ lap ∈ laps, lap.delay ≤ Clock.ofSeconds 2 := by decide
  have hRecord : Timestamp.record { unix := 0 } =
      .ok "timestamp:Thu, 01 Jan 1970 00:00:00 +0000\n" := by decide +kernel
  have hShown : ∀ lap ∈ laps, ∃ text, Timestamp.record lap.moment = .ok text := by
    simp only [laps, lap, List.forall_mem_cons]
    exact ⟨⟨_, hRecord⟩, ⟨_, hRecord⟩, ⟨_, hRecord⟩, nofun⟩
  have hBound : 0 + laps.length * interval + (laps.map Lap.delay).sum < Clock.bound := by
    decide +kernel
  obtain ⟨last, hRun, hCount, -, hBegun⟩ := begun_run interval 0 _ laps hWork hLate hShown hBound
  obtain ⟨lateness, hThird, rfl, -⟩ := hBegun 2 (by decide)
  exact ⟨hWork, hLate, last, hRun, hCount, hThird.trans (by decide +kernel)⟩

/-- With every sleep a second late the third record is two seconds late.  With no instant one
interval later there is no second record: the thread breaks off behind the first. -/
theorem delays_add_up :
    let moment : Moment := { unix := 0 }
    let lap : Lap := { work := Clock.ofMillis 1, delay := Clock.ofSeconds 1, moment := moment }
    let interval := Clock.ofSeconds Stamper.defaultSeconds
    let longest := Clock.ofSeconds 18446744073709551615
    lap.work < interval ∧ lap.work < longest ∧
    (∃ last begun, (ready interval 0 0 []).run? [lap, lap, lap] = some last ∧
      last.begun[2]? = some begun ∧ 0 + 2 * interval + lap.delay < begun) ∧
    (ready longest 0 0 []).run? [lap] = none ∧
    ∃ last, (({ interval := longest } : Stamper).step? (.looked false)).bind (fun cleared =>
      (cleared.step? (.begun 0 moment)).bind fun begun => begun.step? (.committed (.ok ()))) =
        some last ∧ last.phase = .broken := by
  intro moment lap interval longest
  have hThird : ((ready interval 0 0 []).run? [lap, lap, lap]).map (fun last => last.begun[2]?) =
      some (some (Clock.ofSeconds 22)) := by
    decide +kernel
  obtain ⟨last, hRun, hBegun⟩ := Option.map_eq_some_iff.mp hThird
  have hNone : ((ready longest 0 0 []).run? [lap]).isNone = true := by decide +kernel
  have hBroken : ((({ interval := longest } : Stamper).step? (.looked false)).bind fun cleared =>
      (cleared.step? (.begun 0 moment)).bind fun begun =>
        begun.step? (.committed (.ok ()))).map Stamper.phase = some .broken := by
    decide +kernel
  refine ⟨by decide, by decide, ⟨last, _, hRun, hBegun, by decide +kernel⟩, ?_, ?_⟩
  · exact Option.isNone_iff_eq_none.mp hNone
  · exact Option.map_eq_some_iff.mp hBroken

end Pacer

end PacketLog
