import PolledAta.Clock

/-!
The tick counter of the board. Frame interrupts move it on while the program is at work, whenever they come; the program
only reads it.
-/

namespace PolledAta.Rom

/-- A counter with an interrupt in every `gap` consecutive readings, and never so many between two readings that a
deadline could go round unseen. -/
structure FrameCounter (gap : Nat) where
  rate : TimerRate
  ticks : UInt32
  /-- How many interrupts come between one reading from now on and the next. -/
  frames : Nat → Nat
  regular : ∀ reading, ∃ wait < gap, 0 < frames (reading + wait)
  slow : ∀ reading, frames reading ≤ 0x80000000

namespace FrameCounter

variable {gap : Nat}

/-- The value shown, and the counter as it is for the next reader. -/
def reading (counter : FrameCounter gap) : UInt32 × FrameCounter gap :=
  (counter.ticks,
    { counter with
      ticks := counter.ticks + UInt32.ofNat (counter.frames 0)
      frames := fun reading => counter.frames (reading + 1)
      regular := fun reading => by simpa only [Nat.add_right_comm] using counter.regular (reading + 1)
      slow := fun reading => counter.slow (reading + 1) })

instance : Timer (FrameCounter gap) where
  rate := rate
  reading := reading
  patience := 0x80000000 * gap

/-- One interrupt for each reading. -/
def everyReading (rate : TimerRate) : FrameCounter 1 where
  rate
  ticks := 0
  frames _ := 1
  regular _ := ⟨0, Nat.one_pos, Nat.one_pos⟩
  slow _ := by decide

end FrameCounter

end PolledAta.Rom
