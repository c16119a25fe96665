import Mathlib.Algebra.BigOperators.Intervals
import Mathlib.Algebra.Order.BigOperators.Group.Finset
import PolledAta.Proofs.Timers
import PolledAta.Rom.FrameCounter

/-!
# A counter of interrupts goes on

However irregularly the interrupts come, there is one in every gap. So for every deadline there is a first reading with
more interrupts behind it than the deadline allows, and not so many more that the deadline would have gone round.
-/

namespace PolledAta.Rom.FrameCounter

variable {gap : Nat}

/-- The interrupts that come while the counter is read so many more times. -/
def elapsed (counter : FrameCounter gap) (readings : Nat) : Nat := ∑ i ∈ Finset.range readings, counter.frames i

theorem timer_shown (counter : FrameCounter gap) (readings : Nat) :
    Timer.shown counter readings = counter.ticks + UInt32.ofNat (counter.elapsed readings) := by
  induction readings generalizing counter with
  | zero => simp [Timer.shown, Timer.after, Timer.reading, reading, elapsed]
  | succ readings ih =>
      have hnext : Timer.shown counter (readings + 1) = Timer.shown counter.reading.2 readings := rfl
      rw [hnext, ih, elapsed, elapsed, Finset.sum_range_succ']
      simp [reading, UInt32.ofNat_add, UInt32.add_assoc, UInt32.add_comm]

/-- There is an interrupt in every gap. -/
theorem le_elapsed (counter : FrameCounter gap) (count : Nat) : count ≤ counter.elapsed (gap * count) := by
  induction count with
  | zero => exact Nat.zero_le _
  | succ count ih =>
      obtain ⟨wait, hwait, hpos⟩ := counter.regular (gap * count)
      have hgap : counter.frames (gap * count + wait) ≤ ∑ i ∈ Finset.range gap, counter.frames (gap * count + i) :=
        Finset.single_le_sum (f := fun i => counter.frames (gap * count + i)) (fun _ _ => Nat.zero_le _)
          (Finset.mem_range.mpr hwait)
      rw [elapsed] at ih ⊢
      rw [Nat.mul_succ, Finset.sum_range_add]
      omega

/-- Some reading is the first to show more than a number of interrupts. -/
theorem exists_crossing (counter : FrameCounter gap) (ticks : Nat) :
    ∃ wait < gap * (ticks + 1), counter.elapsed wait ≤ ticks ∧ ticks < counter.elapsed (wait + 1) := by
  have hex : ∃ readings, ticks < counter.elapsed readings := ⟨_, counter.le_elapsed (ticks + 1)⟩
  have hfirst : ticks < counter.elapsed (Nat.find hex) := Nat.find_spec hex
  have hlast : Nat.find hex ≤ gap * (ticks + 1) := Nat.find_min' hex (counter.le_elapsed (ticks + 1))
  cases hfound : Nat.find hex with
  | zero =>
      rw [hfound] at hfirst
      simp [elapsed] at hfirst
  | succ wait =>
      rw [hfound] at hfirst hlast
      exact ⟨wait, hlast, Nat.not_lt.mp (Nat.find_min hex (by omega)), hfirst⟩

theorem lively (counter : FrameCounter gap) : Timer.Lively counter := by
  apply Timer.lively_of_forall
  intro readings duration hd
  generalize Timer.after counter readings = counter
  obtain ⟨wait, hwait, hbefore, hafter⟩ := counter.exists_crossing duration.toNat
  have hslow := counter.slow wait
  have hsum : counter.elapsed (wait + 1) = counter.elapsed wait + counter.frames wait := Finset.sum_range_succ ..
  have hnat : (UInt32.ofNat (counter.elapsed (wait + 1))).toNat = counter.elapsed (wait + 1) := by
    rw [UInt32.toNat_ofNat', Nat.mod_eq_of_lt (by omega)]
  refine ⟨wait, ?_, ?_⟩
  · exact hwait.trans_le (Nat.mul_comm gap _ ▸ Nat.mul_le_mul_right gap hd)
  · have hnow : Timer.shown counter 0 = counter.ticks := rfl
    rw [hnow, timer_shown, Deadline.passedAt_iff hd, hnat]
    omega

end PolledAta.Rom.FrameCounter
