/-!
A 32-bit tick counter that wraps, and deadlines on it.
-/

namespace PolledAta

inductive TimerRate where
  | hz50
  | hz200
  deriving DecidableEq

/-- The longest duration that a deadline can tell from a moment already past. -/
def maxDuration : UInt32 := 0x7fffffff

def signBit : UInt32 := 0x80000000

namespace TimerRate

def hz : TimerRate → Nat
  | .hz50 => 50
  | .hz200 => 200

def ticks (rate : TimerRate) (ms : UInt32) : UInt32 :=
  UInt32.ofNat (min ((ms.toNat * rate.hz + 999) / 1000) maxDuration.toNat)

end TimerRate

/-- A counter of ticks that programs read. What moves it is its own affair. -/
class Timer (κ : Type) where
  rate : κ → TimerRate
  /-- The value shown, and the counter as it is for the next reader. -/
  reading : κ → UInt32 × κ
  /-- After so many readings every deadline has been seen to pass, unless the counter stands still. -/
  patience : Nat

/-- A counter that moves on by `step` each time it is read. -/
structure Clock where
  rate : TimerRate
  now : UInt32
  step : UInt32
  deriving DecidableEq

namespace Clock

def advance (clock : Clock) (ticks : UInt32) : Clock := { clock with now := clock.now + ticks }

/-- The value shown, and the clock as it is for the next reader. -/
def reading (clock : Clock) : UInt32 × Clock := (clock.now, clock.advance clock.step)

/-- A clock has shown every value it will ever show after this many readings. -/
def period : Nat := 0x100000000

instance : Timer Clock where
  rate := rate
  reading := reading
  patience := period

end Clock

structure Deadline where
  tick : UInt32
  deriving DecidableEq

namespace Deadline

/-- The duration meant by a request of `ticks`: at least one tick, and never more than half the counter. -/
def duration (ticks : UInt32) : UInt32 :=
  if ticks = 0 then 1
  else if ticks &&& signBit ≠ 0 then maxDuration
  else ticks

/-- A request that `duration` cuts short. -/
def tooLong (ticks : UInt32) : Bool := ticks &&& signBit != 0

/-- The sign of the wrapped difference decides, so it does not matter where the counter wraps. -/
def passedAt (deadline : Deadline) (now : UInt32) : Bool := (deadline.tick - now) &&& signBit != 0

end Deadline

end PolledAta
