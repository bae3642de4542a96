import SfcProxy.Proofs.Tool.Machine
import SfcProxy.Tool.Supervision

/-!
# Bringing a program to its end

Whoever waits lets time pass, but never beyond the limit that was set. A program that has to be
stopped does not run any longer behind that, whatever it does with the signals it gets: it ends of
its own accord, when it is asked to, or because it is killed. Only a program that took longer than
it was given is asked.

## Main results

* `passes_waitUntil`, `now_waitUntil_le`: what happens while someone waits
* `fate_stop`: a stopped program has ended
* `now_le_of_not_asked`: a program that was not asked to end was gone in time
-/

namespace SfcProxy.Tool.Machine

variable {m m' : Machine}

/-! ## Waiting -/

theorem passes_now (m : Machine) (time : Nat) : m.Passes { m with now := time } :=
  .ofMembers rfl (List.prefix_refl _) (List.prefix_refl _) (Nat.le_refl _)

theorem passes_waitFrom (met : Machine → Bool) (limit : Option Nat) (m : Machine) (budget : Nat) :
    m.Passes (m.waitFrom met limit budget) := by
  induction budget generalizing m with
  | zero => exact .refl m
  | succ budget ih =>
    have settled := (works_settle m).toPasses
    rw [waitFrom]
    split
    next => exact settled
    next =>
      split
      next time _ =>
        have woken := settled.trans (passes_now m.settle time)
        split
        next => exact woken.trans (ih _)
        next => exact settled.trans (passes_now m.settle _)
      next => exact settled.trans (passes_now m.settle _)

/-- What happens while someone waits, whatever is waited for. -/
theorem passes_waitUntil (met : Machine → Bool) (limit : Option Nat) (m : Machine) :
    m.Passes (m.waitUntil met limit) :=
  passes_waitFrom met limit m wakeLimit

theorem now_waitFrom_le (met : Machine → Bool) {limit : Nat} (m : Machine) (h : m.now ≤ limit)
    (budget : Nat) : (m.waitFrom met (some limit) budget).now ≤ limit := by
  induction budget generalizing m with
  | zero => exact h
  | succ budget ih =>
    rw [waitFrom]
    split
    next => exact (works_settle m).now ▸ h
    next =>
      split
      next time _ =>
        split
        next hintime =>
          apply ih
          simpa using hintime
        next => exact Nat.le_refl _
      next => exact Nat.le_refl _

/-- Nobody waits longer than was said. -/
theorem now_waitUntil_le (met : Machine → Bool) {limit : Nat} (m : Machine) (h : m.now ≤ limit) :
    (m.waitUntil met (some limit)).now ≤ limit :=
  now_waitFrom_le met m h wakeLimit

/-! ## Ending -/

theorem passes_closeInput (m : Machine) : m.Passes m.closeInput :=
  .ofMembers rfl (List.prefix_refl _) (List.prefix_refl _) (Nat.le_refl _)

theorem passes_notify (m : Machine) (signal : Nat) : m.Passes (m.notify signal) := by
  unfold notify
  split
  next => exact .refl m
  next => exact (works_deliver m first signal).toPasses

/-- The program has ended, or somebody has taken notice of its ending. -/
theorem fate_ne_running_of_ending? (h : m.ending?.isSome) : m.fate first ≠ .running := by
  intro running
  obtain ⟨p, found, alive⟩ := fate_eq_running_iff.mp running
  rw [ending?, found] at h
  simp [alive] at h

/-- No program survives being killed, whatever it does with other signals. -/
theorem fate_notify_kill (m : Machine) : (m.notify Signal.kill).fate first ≠ .running := by
  by_cases h : m.ending?.isSome
  · rw [notify, if_pos h]
    exact fate_ne_running_of_ending? h
  · rw [notify, if_neg h]
    cases found : m.members.get? first with
    | none =>
      rw [deliver, found, fate, found]
      exact Fate.noConfusion
    | some p =>
      have alive : p.ending = none := by
        rw [ending?, found] at h
        exact Option.not_isSome_iff_eq_none.mp h
      have killed : m.deliver first Signal.kill = m.finish first (.killed Signal.kill) := by
        simp [deliver, found, alive, Signal.kill, Signal.effect]
      rw [killed]
      apply fate_ne_running_of_ending?
      simp only [finish, found, ending?, sweep, setMember, Numbered.get?_put_self]
      rfl

/-- How stopping a program can go: it is gone in time, it ends when it is asked to, or it is
killed. -/
inductive Stopping (timeout : Nat) (m : Machine) : Stopped → Prop
  | gone {waited : Machine} (passes : m.Passes waited) (intime : waited.now ≤ m.now + timeout)
      (gone : waited.isGone) : Stopping timeout m ⟨waited, false⟩
  | ended {asked : Machine} (passes : m.Passes asked) (ended : asked.ending?.isSome) :
      Stopping timeout m ⟨asked, true⟩
  | killed {asked : Machine} (passes : m.Passes asked) :
      Stopping timeout m ⟨(asked.notify Signal.kill).waitUntil isGone none, true⟩

theorem stopping_stop (timeout : Nat) (m : Machine) : Stopping timeout m (m.stop timeout) := by
  have passes := (passes_closeInput m).trans
    (passes_waitUntil isGone (some (m.now + timeout)) m.closeInput)
  have intime := now_waitUntil_le isGone m.closeInput (Nat.le_add_right m.now timeout)
  unfold stop
  generalize m.closeInput.waitUntil isGone (some (m.now + timeout)) = waited at passes intime ⊢
  dsimp only
  split
  next gone => exact .gone passes intime gone
  next =>
    split
    next ended => exact .ended passes ended
    next =>
      have asked := (passes.trans (passes_notify waited Signal.terminate)).trans
        (passes_waitUntil isGone (some (waited.now + timeout)) _)
      split
      next ended => exact .ended asked ended
      next => exact .killed asked

/-- **A stopped program has ended.** It may pay attention to no signal and never close its streams,
and still does not run behind that. -/
theorem fate_stop (timeout : Nat) {m : Machine} (known : first < m.fresh) :
    (m.stop timeout).machine.fate first ≠ .running := by
  have stopping := stopping_stop timeout m
  generalize m.stop timeout = stopped at stopping ⊢
  cases stopping with
  | gone _ _ gone =>
    simp only [isGone, Bool.and_eq_true] at gone
    exact fate_ne_running_of_ending? gone.1.1
  | ended _ ended => exact fate_ne_running_of_ending? ended
  | @killed asked passes =>
    have hfresh : first < (asked.notify Signal.kill).fresh :=
      Nat.lt_of_lt_of_le known (passes.trans (passes_notify asked _)).fresh
    exact ((passes_waitUntil isGone none _).fate first hfresh).ne_running (fate_notify_kill asked)

/-- What a program has written is not lost when it is stopped. -/
theorem passes_stop (timeout : Nat) (m : Machine) : m.Passes (m.stop timeout).machine := by
  have stopping := stopping_stop timeout m
  generalize m.stop timeout = stopped at stopping ⊢
  cases stopping with
  | gone passes _ _ => exact passes
  | ended passes _ => exact passes
  | killed passes =>
    exact (passes.trans (passes_notify _ _)).trans (passes_waitUntil isGone none _)

/-- A program that was not asked to end was gone in time, and so was everything it had started that
held its streams. -/
theorem now_le_of_not_asked (timeout : Nat) {m : Machine} (unasked : (m.stop timeout).asked = false) :
    (m.stop timeout).machine.isGone ∧ (m.stop timeout).machine.now ≤ m.now + timeout := by
  have stopping := stopping_stop timeout m
  generalize m.stop timeout = stopped at stopping unasked ⊢
  cases stopping with
  | gone _ intime gone => exact ⟨gone, intime⟩
  | ended => cases unasked
  | killed => cases unasked

end SfcProxy.Tool.Machine
