import Mathlib.Order.Bounds.Basic
import PolledAta.Bank.Playback
import PolledAta.Proofs.Deadlines
import PolledAta.Proofs.Readings

/-!
# Delays

Milliseconds are rounded up to whole ticks. A delay makes a deadline from one reading of the timer and then looks at it
until it has passed, so more ticks go by than were asked for; on a clock with a regular step no more than one step too
many. A reset holds its line, and lets the drives settle, for such delays.
-/

namespace PolledAta

/-! ## Milliseconds as ticks -/

namespace TimerRate

variable (rate : TimerRate) (ms : UInt32)

theorem hz_le : rate.hz ≤ 200 := by cases rate <;> decide

/-- No number of milliseconds is too long to be counted in ticks. -/
theorem div_lt_maxDuration : (ms.toNat * rate.hz + 999) / 1000 < maxDuration.toNat := by
  have hms := ms.toNat_lt
  have hmul : ms.toNat * rate.hz ≤ ms.toNat * 200 := Nat.mul_le_mul_left _ rate.hz_le
  have hmax : maxDuration.toNat = 2147483647 := rfl
  omega

theorem toNat_ticks : (rate.ticks ms).toNat = (ms.toNat * rate.hz + 999) / 1000 := by
  have hlt := rate.div_lt_maxDuration ms
  have hmax := maxDuration.toNat_lt
  rw [ticks, Nat.min_eq_left hlt.le, UInt32.toNat_ofNat', Nat.mod_eq_of_lt (by omega)]

theorem ticks_lt : rate.ticks ms < maxDuration := by
  rw [UInt32.lt_iff_toNat_lt, toNat_ticks]
  exact rate.div_lt_maxDuration ms

/-- As few ticks as make up the time. -/
theorem isLeast_ticks : IsLeast {t : Nat | ms.toNat * rate.hz ≤ t * 1000} (rate.ticks ms).toNat := by
  rw [toNat_ticks]
  constructor
  · rw [Set.mem_ofPred_eq]
    omega
  · intro t (ht : ms.toNat * rate.hz ≤ t * 1000)
    omega

variable {rate} {a b : UInt32}

theorem ticks_mono (h : a ≤ b) : rate.ticks a ≤ rate.ticks b := by
  have hmul : a.toNat * rate.hz ≤ b.toNat * rate.hz := Nat.mul_le_mul_right _ (UInt32.le_iff_toNat_le.mp h)
  rw [UInt32.le_iff_toNat_le, toNat_ticks, toNat_ticks]
  omega

/-- Two delays are never shorter than one for both times together. -/
theorem ticks_add_le (h : a.toNat + b.toNat < 2 ^ 32) :
    (rate.ticks (a + b)).toNat ≤ (rate.ticks a).toNat + (rate.ticks b).toNat := by
  rw [toNat_ticks, toNat_ticks, toNat_ticks, UInt32.toNat_add, Nat.mod_eq_of_lt h, Nat.add_mul]
  omega

end TimerRate

/-! ## Waiting for a deadline -/

namespace BusM

variable {δ κ : Type} [Timer κ] {s : Session δ κ} {ms : UInt32}

/-- Waiting ends with the first look that sees the deadline passed. -/
theorem spin_lookedFor {deadline : Deadline} {k limit : Nat}
    (passed : deadline.passedAt (Timer.shown s.clock k) = true)
    (early : ∀ i < k, deadline.passedAt (Timer.shown s.clock i) = false) (hk : k < limit) :
    spin deadline limit s = .ok ((), s.lookedFor (k + 1)) := by
  induction limit generalizing s k with
  | zero => cases hk
  | succ limit ih =>
      rw [spin, Program.bind_of_ok (expired_lookedFor s deadline)]
      cases k with
      | zero =>
          rw [passed]
          rfl
      | succ k =>
          -- the other looks are looks from the session that follows this one
          have hnext (i : Nat) : Timer.shown (s.lookedFor 1).clock i = Timer.shown s.clock (i + 1) := by
            rw [s.shown_lookedFor, Nat.add_comm]
          rw [early 0 (Nat.succ_pos k), if_neg Bool.false_ne_true,
            ih (hnext k ▸ passed) (fun i hi => by rw [hnext, early (i + 1) (Nat.succ_lt_succ hi)])
              (Nat.lt_of_succ_lt_succ hk), s.lookedFor_lookedFor, Nat.add_comm 1]

theorem deadlineMs_lookedFor (s : Session δ κ) (ms : UInt32) :
    deadlineMs ms s =
      .ok (⟨Timer.shown s.clock 0 + Deadline.duration ((Timer.rate s.clock).ticks ms)⟩, s.lookedFor 1) := by
  have hshort : ((Host.rate s.clock).ticks ms).toNat < 2 ^ 31 := Deadline.toNat_ticks_lt (Timer.rate s.clock) ms
  rw [deadlineMs, Program.bind_of_ok rfl, deadline_lookedFor, if_neg (Nat.not_le.mpr hshort)]
  rfl

/-- A delay ends with the first reading that comes after the ticks it allows, if the readings come close enough together
and the timer has not been given up before. -/
theorem delayMs_lookedFor {elapsed : Nat → Nat} {k : Nat}
    (looks : Deadline.Looks (Timer.shown s.clock 0) (Timer.shown s.clock) elapsed)
    (late : Deadline.allowance ((Timer.rate s.clock).ticks ms) < elapsed k)
    (first : ∀ j < k, elapsed j ≤ Deadline.allowance ((Timer.rate s.clock).ticks ms)) (hk : k ≤ Timer.patience κ) :
    delayMs ms s = .ok ((), s.lookedFor (k + 1)) := by
  cases k with
  | zero => simp [looks.elapsed_zero] at late
  | succ k =>
      rw [delayMs, Program.bind_of_ok (deadlineMs_lookedFor s ms), waitUntil, Nat.add_comm (k + 1),
        ← s.lookedFor_lookedFor]
      refine spin_lookedFor ?_ (fun i hi => ?_) hk
      · rw [s.shown_lookedFor, Nat.add_comm]
        exact looks.passed_of_first late first
      · rw [s.shown_lookedFor, Nat.add_comm]
        exact looks.not_passed (first (i + 1) (Nat.succ_lt_succ hi))

end BusM

/-! ## Clocks with a regular step -/

/-- More than `ticks` ticks pass from the first of these readings to the last one, and at most `slack` more. -/
def Outlasts (readings : List UInt32) (ticks slack : Nat) : Prop :=
  ∃ first between last, readings = first :: (between ++ [last]) ∧ ticks < (last - first).toNat ∧
    (last - first).toNat ≤ ticks + slack

namespace Clock

variable {clock : Clock} {ticks : Nat}

theorem Moving.looks (h : clock.Moving) :
    Deadline.Looks (Timer.shown clock 0) (Timer.shown clock) (· * clock.step.toNat) where
  elapsed_zero := Nat.zero_mul _
  shown_eq i := by simp [timer_shown, after, advance, UInt32.ofNat_mul]
  gap_le i := by
    have hstep := h.step_le
    rw [Nat.add_mul]
    omega

/-- As many readings as fit into the ticks, one more, and the first one. -/
theorem Moving.outlasts (h : clock.Moving) (ht : ticks < 2 ^ 31) :
    Outlasts (Timer.shows clock (ticks / clock.step.toNat + 2)) ticks clock.step.toNat := by
  have hstep := h.step_le
  have hmul : (ticks / clock.step.toNat + 1) * clock.step.toNat =
      ticks / clock.step.toNat * clock.step.toNat + clock.step.toNat := Nat.succ_mul ..
  have hdiv : ticks / clock.step.toNat * clock.step.toNat ≤ ticks := Nat.div_mul_le_self ..
  have hlate : ticks < (ticks / clock.step.toNat + 1) * clock.step.toNat := (h.lt_mul_iff (Nat.le_refl _)).mpr rfl
  refine ⟨Timer.shown clock 0, (List.range (ticks / clock.step.toNat)).map fun i => Timer.shown clock (i + 1),
    Timer.shown clock (ticks / clock.step.toNat + 1), ?_, ?_⟩
  · rw [Timer.shows, List.range_succ, List.range_succ_eq_map]
    simp
  · rw [timer_shown, timer_shown, after_zero, toNat_after_sub clock (by omega)]
    omega

theorem samePace_timer_after (clock : Clock) (readings : Nat) : clock.SamePace (Timer.after clock readings) := by
  rw [timer_after]
  exact ⟨rfl, rfl⟩

theorem SamePace.outlasts {other : Clock} (h : clock.SamePace other) (hm : clock.Moving) (ms : UInt32) :
    Outlasts (Timer.shows other (clock.waitLimit ms)) (max 1 (clock.rate.ticks ms).toNat) clock.step.toNat := by
  have hlt := Deadline.allowance_lt (clock.rate.ticks ms)
  rw [Deadline.allowance_ticks] at hlt
  have houtlasts := (h.moving hm).outlasts hlt
  rwa [h.step] at houtlasts

end Clock

namespace BusM

variable {δ : Type} {s : Session δ} {clock : Clock}

theorem delayMs_of_moving (hp : clock.SamePace s.clock) (hm : clock.Moving) (ms : UInt32) :
    delayMs ms s = .ok ((), s.lookedFor (clock.waitLimit ms)) := by
  have hallowed : Deadline.allowance ((Timer.rate s.clock).ticks ms) = max 1 (s.clock.rate.ticks ms).toNat :=
    Deadline.allowance_ticks ..
  have hlt := Deadline.allowance_lt ((Timer.rate s.clock).ticks ms)
  have hdiv := Nat.div_le_self (max 1 (s.clock.rate.ticks ms).toNat) s.clock.step.toNat
  have hmoving := hp.moving hm
  rw [← hp.waitLimit_eq ms]
  refine delayMs_lookedFor hmoving.looks ?_ (fun j hj => ?_) ?_
  · rw [hallowed, hmoving.lt_mul_iff (Nat.le_refl _)]
  · rw [hallowed, ← Nat.not_lt, hmoving.lt_mul_iff hj.le]
    exact hj.ne
  · show _ ≤ Clock.period
    rw [Clock.period]
    omega

variable [Bank δ]

/-- All that happens in a reset that holds the line for the readings `hold` and then lets the drives settle. -/
def resetEvents (base : UInt16) (hold settle : List UInt32) : List Event :=
  .log ⟨.info, "IDE reset controller at 0x" ++ Text.hexNat base.toNat⟩ :: .cycle (.write .device 0xe0) ::
    .cycle (.write .control 0x06) :: hold.map .reading ++ .cycle (.write .control 0x02) :: settle.map .reading

/-- A view that leaves out the readings sees none of the delays. -/
theorem filterMap_resetEvents {β : Type} {view : Event → Option β} (hview : ∀ now, view (.reading now) = none)
    (base : UInt16) (hold settle : List UInt32) :
    (resetEvents base hold settle).filterMap view = (resetEvents base [] []).filterMap view := by
  have hnone (readings : List UInt32) : (readings.map Event.reading).filterMap view = [] := by
    rw [List.filterMap_map]
    exact List.filterMap_eq_nil_iff.mpr fun now _ => hview now
  simp only [resetEvents, List.filterMap_append, List.filterMap_cons, hnone, List.map_nil, List.filterMap_nil]

theorem reset_of_moving (hm : s.clock.Moving) (base : UInt16) (settings : Settings) :
    ∃ hold settle t, reset base settings s = .ok ((), t) ∧
      t.history.toList = s.history.toList ++ resetEvents base hold settle ∧
      Outlasts hold (max 1 (s.clock.rate.ticks settings.resetHoldMs).toNat) s.clock.step.toNat ∧
      Outlasts settle (max 1 (s.clock.rate.ticks settings.resetSettleMs).toNat) s.clock.step.toNat := by
  let asserted := ((s.told .info ("IDE reset controller at 0x" ++ Text.hexNat base.toNat)).wrote .device
    DriveSlot.master.selectBase).wrote .control (Control.softReset ||| Control.interruptsOff)
  let released := (asserted.lookedFor (s.clock.waitLimit settings.resetHoldMs)).wrote .control Control.interruptsOff
  have hasserted : s.clock.SamePace asserted.clock := .refl _
  have hreleased : s.clock.SamePace released.clock := Clock.samePace_timer_after ..
  refine ⟨_, _, released.lookedFor (s.clock.waitLimit settings.resetSettleMs), ?_, ?_,
    hasserted.outlasts hm settings.resetHoldMs, hreleased.outlasts hm settings.resetSettleMs⟩
  · have hhold : delayMs settings.resetHoldMs asserted = .ok ((), asserted.lookedFor _) :=
      delayMs_of_moving hasserted hm _
    have hsettle : delayMs settings.resetSettleMs released = .ok ((), released.lookedFor _) :=
      delayMs_of_moving hreleased hm _
    calc reset base settings s
      _ = (delayMs settings.resetHoldMs >>= fun _ => _) asserted := by
        rw [reset, Program.bind_of_ok (log_told ..), Program.bind_of_ok (write_eq ..), Program.bind_of_ok (write_eq ..)]
      _ = delayMs settings.resetSettleMs released := by
        rw [Program.bind_of_ok hhold]
        exact Program.bind_of_ok (write_eq ..)
      _ = _ := hsettle
  · simp only [Session.toList_history_lookedFor, released, asserted, Session.wrote, Session.told, Array.toList_push,
      List.append_assoc, List.cons_append, List.nil_append]
    rfl

end BusM

/-- At either rate milliseconds make the fewest ticks that are no shorter, which is always fewer than a deadline can
tell; more milliseconds make no fewer ticks, and taking them in two parts makes no fewer either. A delay lasts at least
one tick. On a clock that moves it takes two readings more than there are whole steps in its ticks, and the last of them
comes later than these ticks by no more than one step. So a reset writes the device and twice the control register, with
a delay after each of the last two writes, and logs nothing but that it resets. -/
theorem delays_outlast_their_ticks (rate : TimerRate) :
    (∀ ms, IsLeast {t : Nat | ms.toNat * rate.hz ≤ t * 1000} (rate.ticks ms).toNat ∧ rate.ticks ms < maxDuration) ∧
    (∀ a b, a ≤ b → rate.ticks a ≤ rate.ticks b) ∧
    (∀ a b, a.toNat + b.toNat < 2 ^ 32 →
      (rate.ticks (a + b)).toNat ≤ (rate.ticks a).toNat + (rate.ticks b).toNat) ∧
    ∀ {δ : Type} [Bank δ] (s : Session δ), s.clock.rate = rate → s.clock.Moving →
      (∀ ms, ∃ readings : Nat, readings = max 1 (rate.ticks ms).toNat / s.clock.step.toNat + 2 ∧
        BusM.delayMs ms s = .ok ((), s.lookedFor readings) ∧
        Outlasts (Timer.shows s.clock readings) (max 1 (rate.ticks ms).toNat) s.clock.step.toNat) ∧
      ∀ base settings, ∃ hold settle t, BusM.reset base settings s = .ok ((), t) ∧
        t.history.toList = s.history.toList ++ BusM.resetEvents base hold settle ∧
        t.cycles = s.cycles ++ [.write .device 0xe0, .write .control 0x06, .write .control 0x02] ∧
        t.records = s.records ++ [⟨.info, "IDE reset controller at 0x" ++ Text.hexNat base.toNat⟩] ∧
        Outlasts hold (max 1 (rate.ticks settings.resetHoldMs).toNat) s.clock.step.toNat ∧
        Outlasts settle (max 1 (rate.ticks settings.resetSettleMs).toNat) s.clock.step.toNat := by
  refine ⟨fun ms => ⟨rate.isLeast_ticks ms, rate.ticks_lt ms⟩, fun _ _ => TimerRate.ticks_mono,
    fun _ _ => TimerRate.ticks_add_le, ?_⟩
  rintro δ _ s rfl hm
  refine ⟨fun ms => ⟨_, rfl, BusM.delayMs_of_moving (.refl _) hm ms, (Clock.SamePace.refl _).outlasts hm ms⟩, ?_⟩
  intro base settings
  obtain ⟨hold, settle, t, hrun, hhistory, hheld, hsettled⟩ := BusM.reset_of_moving hm base settings
  refine ⟨hold, settle, t, hrun, hhistory, ?_, ?_, hheld, hsettled⟩
  · rw [Session.cycles, hhistory, List.filterMap_append, BusM.filterMap_resetEvents fun _ => rfl]
    rfl
  · rw [Session.records, hhistory, List.filterMap_append, BusM.filterMap_resetEvents fun _ => rfl]
    rfl

/-- A channel on which nothing answers, with a clock that goes round during the first delay. -/
def sampleReset : Session Playback where
  device := ⟨[], []⟩
  clock := ⟨.hz50, 0xffffffff, 3⟩
  history := #[]

/-- At 50 ticks in a second 100 milliseconds are five ticks, for which three readings are enough. -/
theorem sample_delays : sampleReset.clock.Moving ∧
    BusM.delayMs 100 sampleReset = .ok ((), sampleReset.lookedFor 3) ∧
    Outlasts (Timer.shows sampleReset.clock 3) 5 3 ∧
    ∃ hold settle t, BusM.reset 0x1f0 .standard sampleReset = .ok ((), t) ∧ Outlasts hold 5 3 ∧
      Outlasts settle 3 3 := by
  have hm : sampleReset.clock.Moving := ⟨by decide, by decide⟩
  obtain ⟨_, _, _, hsession⟩ := delays_outlast_their_ticks .hz50
  obtain ⟨hdelay, hreset⟩ := hsession sampleReset rfl hm
  obtain ⟨readings, hreadings, hrun, houtlasts⟩ := hdelay 100
  obtain ⟨hold, settle, t, hrun', _, _, _, hheld, hsettled⟩ := hreset 0x1f0 .standard
  obtain rfl : readings = 3 := hreadings
  exact ⟨hm, hrun, houtlasts, hold, settle, t, hrun', hheld, hsettled⟩

end PolledAta
