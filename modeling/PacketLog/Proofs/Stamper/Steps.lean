import PacketLog.Stamper

/-!
# What one step of the appender can be

`Transition` lists the steps of the appender, each with the phase and the event that allow it and
with the appender it leads to.
-/

namespace PacketLog.Stamper

variable {stamper next : Stamper} {event : StamperEvent}

def record? (stamper : Stamper) : Option Entry :=
  match stamper.phase with
  | .committing _ record => some record
  | _ => none

inductive Transition (stamper : Stamper) : StamperEvent → Stamper → Prop
  | aborted (hPhase : stamper.phase = .checking) :
      Transition stamper (.looked true) (stamper.goTo .stopped)
  | cleared (hPhase : stamper.phase = .checking) :
      Transition stamper (.looked false) (stamper.goTo .starting)
  | begun {now : Nat} {moment : Moment} {text : String} (hPhase : stamper.phase = .starting)
      (hRecord : Timestamp.record moment = .ok text) :
      Transition stamper (.begun now moment)
        (stamper.goTo (.committing now (Timestamp.entry text)))
  | unformattable {now : Nat} {moment : Moment} {error : Error} (hPhase : stamper.phase = .starting)
      (hRecord : Timestamp.record moment = .error error) :
      Transition stamper (.begun now moment) (stamper.goTo .stopped)
  | committed {started deadline : Nat} {record : Entry}
      (hPhase : stamper.phase = .committing started record)
      (hLater : Clock.later? started stamper.interval = some deadline) :
      Transition stamper (.committed (.ok ()))
        { stamper with appended := stamper.appended + 1, phase := .sleeping deadline }
  /-- There is no instant one interval after the beginning of the record. -/
  | overflowed {started : Nat} {record : Entry}
      (hPhase : stamper.phase = .committing started record)
      (hLater : Clock.later? started stamper.interval = none) :
      Transition stamper (.committed (.ok ()))
        { stamper with appended := stamper.appended + 1, phase := .broken }
  | commitFailed {started : Nat} {record : Entry} {error : Error}
      (hPhase : stamper.phase = .committing started record) :
      Transition stamper (.committed (.error error)) (stamper.goTo .stopped)
  | crashed {started : Nat} {record : Entry}
      (hPhase : stamper.phase = .committing started record) :
      Transition stamper (.committed .crash) (stamper.goTo .broken)
  | woken {deadline now : Nat} (hPhase : stamper.phase = .sleeping deadline) :
      Transition stamper (.woken now true) (stamper.goTo .stopped)
  | due {deadline now : Nat} (hPhase : stamper.phase = .sleeping deadline)
      (hPassed : deadline ≤ now) : Transition stamper (.woken now false) (stamper.goTo .checking)

theorem transition_of_step? (hStep : stamper.step? event = some next) :
    Transition stamper event next := by
  unfold step? at hStep
  split at hStep
  · next aborted hPhase =>
    obtain rfl := Option.some.inj hStep
    cases aborted with
    | true => exact .aborted hPhase
    | false => exact .cleared hPhase
  · next now moment hPhase =>
    obtain rfl := Option.some.inj hStep
    rw [onBegun]
    cases hRecord : Timestamp.record moment with
    | ok text => exact .begun hPhase hRecord
    | error error => exact .unformattable hPhase hRecord
  · next started record outcome hPhase =>
    cases outcome with
    | ok value =>
      obtain rfl := Option.some.inj hStep
      rw [sleep]
      dsimp only
      cases hLater : Clock.later? started stamper.interval with
      | some deadline => exact .committed hPhase hLater
      | none => exact .overflowed hPhase hLater
    | error error =>
      obtain rfl := Option.some.inj hStep
      exact .commitFailed hPhase
    | crash =>
      obtain rfl := Option.some.inj hStep
      exact .crashed hPhase
    | waiting => cases hStep
  · next deadline now aborted hPhase =>
    cases aborted with
    | true =>
      obtain rfl := Option.some.inj hStep
      exact .woken hPhase
    | false =>
      obtain ⟨hPassed, hNext⟩ := Option.ite_none_right_eq_some.mp hStep
      obtain rfl := Option.some.inj hNext
      exact .due hPhase hPassed
  · cases hStep

theorem Transition.interval_eq (hTransition : Transition stamper event next) :
    next.interval = stamper.interval := by
  cases hTransition <;> rfl

theorem Transition.live (hTransition : Transition stamper event next) :
    stamper.phase ≠ .stopped := by
  intro hStopped
  cases hTransition <;> simp_all

/-- What the appender can come to away from the store. -/
theorem Transition.away (hTransition : Transition stamper event next)
    (hAway : ∀ outcome, event ≠ .committed outcome) :
    next.appended = stamper.appended ∧ next.phase ≠ .broken ∧
      (∀ deadline, next.phase ≠ .sleeping deadline) ∧
      ∀ started record, next.phase = .committing started record →
        ∃ moment, event = .begun started moment := by
  cases hTransition with
  | committed | overflowed | commitFailed | crashed => exact absurd rfl (hAway _)
  | begun hPhase hRecord =>
    refine ⟨rfl, nofun, nofun, ?_⟩
    intro started record hNext
    obtain ⟨rfl, -⟩ := StamperPhase.committing.inj hNext
    exact ⟨_, rfl⟩
  | _ => exact ⟨rfl, nofun, nofun, nofun⟩

end PacketLog.Stamper
