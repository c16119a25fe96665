import PolledAta.Proofs.Clock

/-!
# Timers that go on

A wait ends if a reading shows its deadline to have passed before the wait has lost its patience. This is so for every
deadline on a clock that moves.
-/

namespace PolledAta

/-! ## Readings to come -/

namespace Timer

variable {κ : Type} [Timer κ]

/-- The timer once it has been read so many more times. -/
def after : κ → Nat → κ
  | timer, 0 => timer
  | timer, readings + 1 => after (reading timer).2 readings

/-- What the timer shows after so many more readings. -/
def shown (timer : κ) (readings : Nat) : UInt32 := (reading (after timer readings)).1

/-- Whenever a deadline is set, a later reading shows it to have passed, and no wait loses its patience until then. -/
def Lively (timer : κ) : Prop :=
  ∀ readings (duration : UInt32), duration.toNat < 2 ^ 31 → ∃ wait < patience κ,
    Deadline.passedAt ⟨shown timer readings + duration⟩ (shown timer (readings + (wait + 1))) = true

theorem after_after (timer : κ) (m n : Nat) : after (after timer m) n = after timer (m + n) := by
  induction m generalizing timer with
  | zero => rw [Nat.zero_add, after]
  | succ m ih => rw [Nat.add_right_comm, after, after, ih]

theorem shown_after (timer : κ) (m n : Nat) : shown (after timer m) n = shown timer (m + n) := by
  rw [shown, shown, after_after]

/-- It is enough to look at deadlines that are set now. -/
theorem lively_of_forall {timer : κ} (h : ∀ readings (duration : UInt32), duration.toNat < 2 ^ 31 →
    ∃ wait < patience κ, Deadline.passedAt ⟨shown (after timer readings) 0 + duration⟩
      (shown (after timer readings) (wait + 1)) = true) : Lively timer := by
  intro readings duration hd
  obtain ⟨wait, hwait, hpassed⟩ := h readings duration hd
  rw [shown_after, shown_after] at hpassed
  exact ⟨wait, hwait, hpassed⟩

theorem Lively.after {timer : κ} (h : Lively timer) (readings : Nat) : Lively (after timer readings) := by
  apply lively_of_forall
  intro later duration hd
  obtain ⟨wait, hwait, hpassed⟩ := h (readings + later) duration hd
  simp only [after_after, shown_after, Nat.add_zero]
  exact ⟨wait, hwait, hpassed⟩

end Timer

/-! ## Clocks -/

namespace Clock

theorem timer_after (clock : Clock) (readings : Nat) : Timer.after clock readings = clock.after readings := by
  induction readings generalizing clock with
  | zero => rw [Timer.after, after_zero]
  | succ readings ih => exact (ih _).trans (after_reading clock readings)

theorem timer_shown (clock : Clock) (readings : Nat) : Timer.shown clock readings = (clock.after readings).now := by
  rw [Timer.shown, timer_after]
  rfl

theorem Moving.lively {clock : Clock} (h : clock.Moving) : Timer.Lively clock := by
  apply Timer.lively_of_forall
  intro readings duration hd
  have hm : (clock.after readings).Moving := h.of_step_eq rfl
  have hpatience : duration.toNat / (clock.after readings).step.toNat < period :=
    Nat.lt_of_le_of_lt (Nat.div_le_self ..) (Nat.lt_trans hd (by decide))
  refine ⟨_, hpatience, ?_⟩
  rw [timer_after, timer_shown, timer_shown, after_zero]
  exact hm.passes hd

end Clock

end PolledAta
