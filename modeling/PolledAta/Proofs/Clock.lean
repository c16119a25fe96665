import Mathlib.Data.Nat.Bitwise
import PolledAta.Clock

/-!
# Deadlines on a counter that wraps

A deadline is set a duration after one reading and looked at after later readings. As long as no reading lies more than
half the counter past the deadline, it counts as passed exactly when more ticks than the duration have gone by.
-/

namespace PolledAta

theorem and_signBit_ne_zero (x : UInt32) : x &&& signBit ≠ 0 ↔ 2 ^ 31 ≤ x.toNat := by
  have hx : x.toNat < 2 ^ 32 := x.toNat_lt
  have hbit : x.toNat.testBit 31 = decide (2 ^ 31 ≤ x.toNat) := by
    rw [Nat.testBit_eq_decide_div_mod_eq]
    exact decide_eq_decide.mpr (by omega)
  have hand : (x &&& signBit).toNat = (decide (2 ^ 31 ≤ x.toNat)).toNat * 2 ^ 31 := by
    rw [← hbit, UInt32.toNat_and]
    exact Nat.and_two_pow x.toNat 31
  rw [ne_eq, ← UInt32.toNat_inj, hand]
  cases hle : decide (2 ^ 31 ≤ x.toNat) with
  | false => exact iff_of_false (by simp) (of_decide_eq_false hle)
  | true => exact iff_of_true (by simp) (of_decide_eq_true hle)

/-! ## Durations -/

namespace Deadline

theorem duration_lt (ticks : UInt32) : (duration ticks).toNat < 2 ^ 31 := by
  unfold duration
  split
  · decide
  · split
    · decide
    · rename_i hsign
      exact Nat.lt_of_not_le fun hle => hsign ((and_signBit_ne_zero ticks).mpr hle)

/-- A number of milliseconds never makes more ticks than a deadline can tell. -/
theorem toNat_ticks_lt (rate : TimerRate) (ms : UInt32) : (rate.ticks ms).toNat < 2 ^ 31 := by
  have hmax : maxDuration.toNat = 2 ^ 31 - 1 := rfl
  rw [TimerRate.ticks, UInt32.toNat_ofNat', hmax]
  omega

theorem tooLong_ticks (rate : TimerRate) (ms : UInt32) : tooLong (rate.ticks ms) = false := by
  rw [tooLong, bne_eq_false_iff_eq]
  exact Decidable.byContradiction fun hsign =>
    absurd ((and_signBit_ne_zero _).mp hsign) (Nat.not_le.mpr (toNat_ticks_lt rate ms))

theorem toNat_duration_ticks (rate : TimerRate) (ms : UInt32) :
    (duration (rate.ticks ms)).toNat = max 1 (rate.ticks ms).toNat := by
  unfold duration
  split
  · rename_i hzero
    rw [hzero]
    rfl
  · rename_i hne
    have hpos : (rate.ticks ms).toNat ≠ 0 := fun h0 => hne (UInt32.toNat_inj.mp h0)
    rw [if_neg fun hsign => absurd ((and_signBit_ne_zero _).mp hsign) (Nat.not_le.mpr (toNat_ticks_lt rate ms))]
    omega

/-- The `elapsed` ticks since the reading that set the deadline decide, wherever the counter wraps. -/
theorem passedAt_iff {start duration elapsed : UInt32} (hd : duration.toNat < 2 ^ 31) :
    Deadline.passedAt ⟨start + duration⟩ (start + elapsed) = true ↔
      duration.toNat < elapsed.toNat ∧ elapsed.toNat ≤ duration.toNat + 2 ^ 31 := by
  have hs : start.toNat < 2 ^ 32 := start.toNat_lt
  have he : elapsed.toNat < 2 ^ 32 := elapsed.toNat_lt
  unfold passedAt
  rw [bne_iff_ne, and_signBit_ne_zero, UInt32.toNat_sub, UInt32.toNat_add, UInt32.toNat_add]
  omega

end Deadline

/-! ## Readings -/

namespace Clock

/-- The clock once it has been read so many more times. -/
def after (clock : Clock) (readings : Nat) : Clock :=
  clock.advance (UInt32.ofNat readings * clock.step)

@[simp]
theorem after_zero (clock : Clock) : clock.after 0 = clock := by
  simp [after, advance]

theorem after_after (clock : Clock) (m n : Nat) : (clock.after m).after n = clock.after (m + n) := by
  simp [after, advance, UInt32.ofNat_add, UInt32.add_mul, UInt32.add_assoc]

theorem snd_reading (clock : Clock) : clock.reading.2 = clock.after 1 := by simp [reading, after]

@[simp]
theorem after_reading (clock : Clock) (readings : Nat) :
    clock.reading.2.after readings = clock.after (readings + 1) := by
  rw [snd_reading, after_after, Nat.add_comm]

/-- A reading moves the clock on, and by no more than half the counter. -/
structure Moving (clock : Clock) : Prop where
  one_le_step : 1 ≤ clock.step.toNat
  step_le : clock.step.toNat ≤ 2 ^ 31

theorem Moving.of_step_eq {clock other : Clock} (h : clock.Moving) (hs : other.step = clock.step) :
    other.Moving := by
  obtain ⟨h₁, h₂⟩ := h
  exact ⟨hs ▸ h₁, hs ▸ h₂⟩

theorem passedAt_after (clock : Clock) {duration : UInt32} {readings : Nat}
    (hd : duration.toNat < 2 ^ 31) (hr : readings * clock.step.toNat ≤ duration.toNat + 2 ^ 31) :
    Deadline.passedAt ⟨clock.now + duration⟩ (clock.after readings).now = true ↔
      duration.toNat < readings * clock.step.toNat := by
  have helapsed : (UInt32.ofNat readings * clock.step).toNat = readings * clock.step.toNat := by
    rw [UInt32.toNat_mul, UInt32.toNat_ofNat', Nat.mod_mul_mod, Nat.mod_eq_of_lt (by omega)]
  rw [show (clock.after readings).now = clock.now + UInt32.ofNat readings * clock.step from rfl,
    Deadline.passedAt_iff hd, helapsed]
  exact and_iff_left hr

/-- How far the readings have come, as long as they have not come round once. -/
theorem toNat_after_sub (clock : Clock) {readings : Nat} (hr : readings * clock.step.toNat < 2 ^ 32) :
    ((clock.after readings).now - clock.now).toNat = readings * clock.step.toNat := by
  have helapsed : (clock.after readings).now - clock.now = UInt32.ofNat readings * clock.step := by
    rw [after, advance, UInt32.add_comm, UInt32.add_sub_cancel]
  rw [helapsed, UInt32.toNat_mul, UInt32.toNat_ofNat', Nat.mod_mul_mod, Nat.mod_eq_of_lt hr]

/-- Of as many readings as fit into a number of ticks and one more, only the last one comes after them. -/
theorem Moving.lt_mul_iff {clock : Clock} (h : clock.Moving) {ticks readings : Nat}
    (hr : readings ≤ ticks / clock.step.toNat + 1) :
    ticks < readings * clock.step.toNat ↔ readings = ticks / clock.step.toNat + 1 := by
  rw [← Nat.div_lt_iff_lt_mul h.one_le_step]
  omega

/-- A moving clock shows every deadline to have passed, after as many readings as fit into the duration and one more. -/
theorem Moving.passes {clock : Clock} (h : clock.Moving) {duration : UInt32}
    (hd : duration.toNat < 2 ^ 31) :
    Deadline.passedAt ⟨clock.now + duration⟩
      (clock.after (duration.toNat / clock.step.toNat + 1)).now = true := by
  have hle := h.step_le
  have hdiv : duration.toNat / clock.step.toNat * clock.step.toNat ≤ duration.toNat :=
    Nat.div_mul_le_self ..
  rw [passedAt_after clock hd (by rw [Nat.add_mul]; omega), h.lt_mul_iff (Nat.le_refl _)]

end Clock

end PolledAta
