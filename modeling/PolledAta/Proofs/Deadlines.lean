import PolledAta.Proofs.Session
import PolledAta.Proofs.Timers
import PolledAta.Wait

/-!
# Deadlines on any timer

A deadline allows the ticks that were asked for, at least one and never as many as half the counter. A look that comes
later sees it passed exactly in the half of the counter that follows these ticks. So no look sees it passed early, and
looks that are close enough together see it passed with the first one that comes too late.
-/

namespace PolledAta

namespace Deadline

/-- The ticks that a deadline allows when `ticks` are asked for. -/
def allowance (ticks : UInt32) : Nat :=
  if ticks = 0 then 1
  else if 2 ^ 31 ≤ ticks.toNat then 0x7fffffff
  else ticks.toNat

theorem toNat_duration (ticks : UInt32) : (duration ticks).toNat = allowance ticks := by
  simp only [duration, allowance, and_signBit_ne_zero]
  split
  · rfl
  · split <;> rfl

theorem allowance_lt (ticks : UInt32) : allowance ticks < 2 ^ 31 := by
  rw [← toNat_duration]
  exact duration_lt ticks

theorem tooLong_eq (ticks : UInt32) : tooLong ticks = decide (2 ^ 31 ≤ ticks.toNat) :=
  Bool.eq_iff_iff.mpr (by rw [tooLong, bne_iff_ne, and_signBit_ne_zero, decide_eq_true_iff])

/-- A number of milliseconds is at most raised to one tick. -/
theorem allowance_ticks (rate : TimerRate) (ms : UInt32) : allowance (rate.ticks ms) = max 1 (rate.ticks ms).toNat := by
  rw [← toNat_duration, toNat_duration_ticks]

/-- A deadline that was set when the counter showed `start`, and a look at it after `elapsed` ticks. -/
theorem passedAt_eq (start ticks elapsed : UInt32) :
    passedAt ⟨start + duration ticks⟩ (start + elapsed) =
      decide (allowance ticks < elapsed.toNat ∧ elapsed.toNat ≤ allowance ticks + 2 ^ 31) := by
  rw [Bool.eq_iff_iff, passedAt_iff (duration_lt ticks), toNat_duration, decide_eq_true_iff]

/-! ## Looks one after the other -/

/-- Looks at a counter that come `elapsed` ticks after the reading `start`, the first one at once, and never more than
half the counter after the one before. -/
structure Looks (start : UInt32) (shown : Nat → UInt32) (elapsed : Nat → Nat) : Prop where
  elapsed_zero : elapsed 0 = 0
  shown_eq : ∀ i, shown i = start + UInt32.ofNat (elapsed i)
  gap_le : ∀ i, elapsed (i + 1) ≤ elapsed i + 2 ^ 31

namespace Looks

variable {start ticks : UInt32} {shown : Nat → UInt32} {elapsed : Nat → Nat} {i : Nat}

theorem passedAt_eq (h : Looks start shown elapsed) (hi : elapsed i < 2 ^ 32) :
    passedAt ⟨start + duration ticks⟩ (shown i) =
      decide (allowance ticks < elapsed i ∧ elapsed i ≤ allowance ticks + 2 ^ 31) := by
  rw [h.shown_eq, Deadline.passedAt_eq, UInt32.toNat_ofNat', Nat.mod_eq_of_lt hi]

theorem not_passed (h : Looks start shown elapsed) (hi : elapsed i ≤ allowance ticks) :
    passedAt ⟨start + duration ticks⟩ (shown i) = false := by
  have hlt := allowance_lt ticks
  rw [h.passedAt_eq (by omega)]
  exact decide_eq_false (by omega)

/-- The look before the first one that comes too late was in time, so the first one is not half the counter too late. -/
theorem passed_of_first (h : Looks start shown elapsed) (late : allowance ticks < elapsed i)
    (first : ∀ j < i, elapsed j ≤ allowance ticks) : passedAt ⟨start + duration ticks⟩ (shown i) = true := by
  have hlt := allowance_lt ticks
  cases i with
  | zero => simp [h.elapsed_zero] at late
  | succ j =>
      have hbefore := first j (Nat.lt_succ_self j)
      have hgap := h.gap_le j
      rw [h.passedAt_eq (by omega)]
      exact decide_eq_true ⟨late, by omega⟩

end Looks

end Deadline

/-! ## Sessions in which only time passes -/

section

variable {δ κ : Type}

/-- A record has been logged. -/
def Session.told (s : Session δ κ) (level : Log.Level) (text : String) : Session δ κ where
  device := s.device
  clock := s.clock
  history := s.history.push (.log ⟨level, text⟩)

variable [Timer κ]

/-- What a timer shows in so many readings. -/
def Timer.shows (timer : κ) (readings : Nat) : List UInt32 := (List.range readings).map (Timer.shown timer)

theorem Timer.shows_append (timer : κ) (m n : Nat) :
    Timer.shows timer m ++ Timer.shows (Timer.after timer m) n = Timer.shows timer (m + n) := by
  simp [Timer.shows, List.range_add, Timer.shown_after]

namespace Session

/-- The timer has been read so many times. -/
def lookedFor (s : Session δ κ) (readings : Nat) : Session δ κ where
  device := s.device
  clock := Timer.after s.clock readings
  history := s.history ++ ((Timer.shows s.clock readings).map Event.reading).toArray

variable (s : Session δ κ)

theorem lookedFor_lookedFor (m n : Nat) : (s.lookedFor m).lookedFor n = s.lookedFor (m + n) := by
  simp [lookedFor, Timer.after_after, ← Timer.shows_append]

theorem shown_lookedFor (m n : Nat) : Timer.shown (s.lookedFor m).clock n = Timer.shown s.clock (m + n) :=
  Timer.shown_after ..

theorem toList_history_lookedFor (readings : Nat) :
    (s.lookedFor readings).history.toList = s.history.toList ++ (Timer.shows s.clock readings).map Event.reading := by
  simp [lookedFor]

end Session

end

/-! ## Setting a deadline, and looking at it -/

namespace BusM

variable {δ κ : Type} [Timer κ] {s : Session δ κ}

theorem log_told (s : Session δ κ) (level : Log.Level) (text : String) :
    log level text s = .ok ((), s.told level text) := rfl

theorem readClock_lookedFor (s : Session δ κ) : readClock s = .ok (Timer.shown s.clock 0, s.lookedFor 1) := by
  have hhistory : s.history ++ ((Timer.shows s.clock 1).map Event.reading).toArray =
      s.history.push (.reading (Timer.shown s.clock 0)) := by
    simp [Timer.shows]
  rw [Session.lookedFor, hhistory]
  rfl

theorem expired_lookedFor (s : Session δ κ) (deadline : Deadline) :
    expired deadline s = .ok (deadline.passedAt (Timer.shown s.clock 0), s.lookedFor 1) :=
  Program.bind_of_ok (readClock_lookedFor s)

theorem deadline_lookedFor (s : Session δ κ) (ticks : UInt32) :
    deadline ticks s = .ok (⟨Timer.shown s.clock 0 + Deadline.duration ticks⟩,
      (if 2 ^ 31 ≤ ticks.toNat then s.told .warn ("bad timer duration " ++ toString ticks.toNat)
        else s).lookedFor 1) := by
  rw [deadline, Deadline.tooLong_eq]
  by_cases hlong : 2 ^ 31 ≤ ticks.toNat
  · rw [decide_eq_true hlong, if_pos rfl, if_pos hlong, Program.bind_of_ok (log_told ..)]
    exact Program.bind_of_ok (readClock_lookedFor _)
  · rw [decide_eq_false hlong, if_neg Bool.false_ne_true, if_neg hlong]
    exact Program.bind_of_ok (readClock_lookedFor s)

/-- A look at the deadline answers whether it is passed, and does nothing else. -/
def Sees (s : Session δ κ) (deadline : Deadline) (passed : Bool) : Prop :=
  expired deadline s = .ok (passed, s.lookedFor 1)

theorem sees_of_passedAt {deadline : Deadline} {passed : Bool}
    (h : deadline.passedAt (Timer.shown s.clock 0) = passed) : Sees s deadline passed :=
  h ▸ expired_lookedFor s deadline

/-- A deadline is made from one reading of the timer, and just a request for half the counter or more gets a warning
before. A look at it when the counter has gone on by `elapsed` ticks sees it passed exactly in the half of the counter
that follows the ticks it allows. So of looks that are at most half the counter apart none sees it passed while these
ticks last, and the first one that comes after them does. -/
theorem deadline_is_exact (s : Session δ κ) (ticks : UInt32) :
    ∃ deadline, BusM.deadline ticks s = .ok (deadline,
        (if 2 ^ 31 ≤ ticks.toNat then s.told .warn ("bad timer duration " ++ toString ticks.toNat)
          else s).lookedFor 1) ∧
      (∀ (later : Session δ κ) (elapsed : UInt32), Timer.shown later.clock 0 = Timer.shown s.clock 0 + elapsed →
        Sees later deadline (decide (Deadline.allowance ticks < elapsed.toNat ∧
          elapsed.toNat ≤ Deadline.allowance ticks + 2 ^ 31))) ∧
      ∀ (polls : Nat → Session δ κ) (elapsed : Nat → Nat),
        Deadline.Looks (Timer.shown s.clock 0) (fun i => Timer.shown (polls i).clock 0) elapsed →
          (∀ i, elapsed i ≤ Deadline.allowance ticks → Sees (polls i) deadline false) ∧
          ∀ i, Deadline.allowance ticks < elapsed i → (∀ j < i, elapsed j ≤ Deadline.allowance ticks) →
            Sees (polls i) deadline true := by
  refine ⟨_, deadline_lookedFor s ticks, ?look, ?looks⟩
  case look =>
    intro later elapsed hshown
    refine sees_of_passedAt ?_
    rw [hshown]
    exact Deadline.passedAt_eq ..
  case looks =>
    intro polls elapsed hlooks
    exact ⟨fun i hi => sees_of_passedAt (hlooks.not_passed hi),
      fun i late first => sees_of_passedAt (hlooks.passed_of_first late first)⟩

/-- Looks that are sixteen ticks apart, while the counter goes round. -/
def sampleLook (i : Nat) : Session Unit where
  device := ()
  clock := (⟨.hz200, 0xfffffff0, 16⟩ : Clock).after i
  history := #[]

/-- After 32 ticks a deadline of 32 ticks is not passed yet, and the next look sees it passed. -/
theorem sample_deadline_is_exact :
    Deadline.Looks 0xfffffff0 (fun i => Timer.shown (sampleLook i).clock 0) (16 * ·) ∧
      ∃ deadline, BusM.deadline 32 (sampleLook 0) = .ok (deadline, (sampleLook 0).lookedFor 1) ∧
        Sees (sampleLook 2) deadline false ∧ Sees (sampleLook 3) deadline true := by
  have hlooks : Deadline.Looks 0xfffffff0 (fun i => Timer.shown (sampleLook i).clock 0) (16 * ·) := by
    refine ⟨rfl, fun i => ?_, fun i => by omega⟩
    simp only [sampleLook, Clock.timer_shown, Clock.after, Clock.advance, UInt32.mul_comm]
    simp
  obtain ⟨deadline, hrun, _, hpolls⟩ := deadline_is_exact (sampleLook 0) 32
  obtain ⟨early, late⟩ := hpolls sampleLook (16 * ·) hlooks
  exact ⟨hlooks, deadline, hrun, early 2 (by decide), late 3 (by decide) (by decide)⟩

end BusM

end PolledAta
