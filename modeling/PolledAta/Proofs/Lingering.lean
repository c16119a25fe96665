import PolledAta.Proofs.Timers
import PolledAta.Proofs.Wait

/-!
# Time that passes

A delay leaves its channel alone, and so does a wait for a device that shows one status all the time. How often they
read the timer and sample the device depends on the timer, but what they answer and what they log does not.
-/

namespace PolledAta

variable {δ κ : Type}

/-! ## What lasts -/

/-- Samples and readings do not last. -/
def Event.lasting? : Event → Option Event
  | .cycle (.read ..) | .reading _ => none
  | event => some event

namespace Session

def lasting (session : Session δ κ) : List Event := session.history.toList.filterMap Event.lasting?

theorem lasting_push (device : δ) (clock : κ) (history : Array Event) (event : Event) :
    lasting ⟨device, clock, history.push event⟩ = lasting ⟨device, clock, history⟩ ++ event.lasting?.toList := by
  rw [lasting, lasting, Array.toList_push, List.filterMap_append]
  cases hlasting : event.lasting? <;> simp [hlasting]

variable [Timer κ] {before between after : Session δ κ} {first second : List Event} {m n : Nat}

/-- The timer has been read so many times, and all else that has happened without a change of the device and that
lasts is in `events`. -/
structure Lingers (before after : Session δ κ) (events : List Event) (readings : Nat) : Prop where
  device : after.device = before.device
  clock : after.clock = Timer.after before.clock readings
  lasting : after.lasting = before.lasting ++ events

theorem Lingers.trans (h : before.Lingers between first m) (h' : between.Lingers after second n) :
    before.Lingers after (first ++ second) (m + n) where
  device := h'.device.trans h.device
  clock := by rw [h'.clock, h.clock, Timer.after_after]
  lasting := by rw [h'.lasting, h.lasting, List.append_assoc]

theorem Lingers.shown (h : before.Lingers after first m) (readings : Nat) :
    Timer.shown after.clock readings = Timer.shown before.clock (m + readings) := by
  rw [h.clock, Timer.shown_after]

theorem Lingers.lively (h : before.Lingers after first m) (lively : Timer.Lively before.clock) :
    Timer.Lively after.clock := by
  rw [h.clock]
  exact lively.after m

end Session

namespace BusM

variable [Timer κ] (s : Session δ κ)

theorem log_lingers (level : Log.Level) (text : String) :
    ∃ t, log level text s = .ok ((), t) ∧ s.Lingers t [.log ⟨level, text⟩] 0 :=
  ⟨_, rfl, rfl, rfl, Session.lasting_push ..⟩

/-! ## Delays -/

theorem readClock_lingers : ∃ t, readClock s = .ok (Timer.shown s.clock 0, t) ∧ s.Lingers t [] 1 :=
  ⟨_, rfl, rfl, rfl, Session.lasting_push ..⟩

theorem deadlineMs_lingers (ms : UInt32) :
    ∃ t, deadlineMs ms s = .ok (⟨Timer.shown s.clock 0 + Deadline.duration ((Timer.rate s.clock).ticks ms)⟩, t) ∧
      s.Lingers t [] 1 := by
  obtain ⟨t, hread, hlingers⟩ := readClock_lingers s
  refine ⟨t, ?_, hlingers⟩
  rw [deadlineMs, Program.bind_of_ok rfl, deadline, Deadline.tooLong_ticks]
  exact Program.bind_of_ok hread

theorem expired_lingers (deadline : Deadline) :
    ∃ t, expired deadline s = .ok (deadline.passedAt (Timer.shown s.clock 0), t) ∧ s.Lingers t [] 1 := by
  obtain ⟨t, hread, hlingers⟩ := readClock_lingers s
  exact ⟨t, Program.bind_of_ok hread, hlingers⟩

theorem spin_lingers {deadline : Deadline} {wait readings : Nat} {s : Session δ κ}
    (hp : deadline.passedAt (Timer.shown s.clock wait) = true) (hw : wait < readings) :
    ∃ t n, spin deadline readings s = .ok ((), t) ∧ s.Lingers t [] n := by
  induction readings generalizing wait s with
  | zero => cases hw
  | succ readings ih =>
      obtain ⟨t, hexpired, hlingers⟩ := expired_lingers s deadline
      rw [spin, Program.bind_of_ok hexpired]
      cases hpassed : deadline.passedAt (Timer.shown s.clock 0) with
      | true => exact ⟨t, 1, rfl, hlingers⟩
      | false =>
          -- the reading that shows the deadline to have passed is a later one
          cases wait with
          | zero => rw [hpassed] at hp; cases hp
          | succ wait =>
              rw [Nat.add_comm, ← hlingers.shown] at hp
              obtain ⟨u, n, hspin, hlingers'⟩ := ih hp (Nat.lt_of_succ_lt_succ hw)
              exact ⟨u, _, hspin, hlingers.trans hlingers'⟩

theorem delayMs_lingers (ms : UInt32) (lively : Timer.Lively s.clock) :
    ∃ t n, delayMs ms s = .ok ((), t) ∧ s.Lingers t [] n := by
  obtain ⟨u, hdeadline, hlingers⟩ := deadlineMs_lingers s ms
  obtain ⟨wait, hwait, hpassed⟩ := lively 0 _ (Deadline.duration_lt ((Timer.rate s.clock).ticks ms))
  rw [Nat.zero_add, Nat.add_comm wait, ← hlingers.shown] at hpassed
  obtain ⟨t, n, hspin, hlingers'⟩ := spin_lingers hpassed hwait
  exact ⟨t, _, (Program.bind_of_ok hdeadline).trans hspin, hlingers.trans hlingers'⟩

/-- A clock that moves ends every delay. -/
theorem delayMs_ends (s : Session δ) (ms : UInt32) (hm : s.clock.Moving) : ∃ t, delayMs ms s = .ok ((), t) := by
  obtain ⟨t, _, hrun, _⟩ := delayMs_lingers s ms hm.lively
  exact ⟨t, hrun⟩

/-! ## Waits for a device that does not change -/

variable [Bank δ] {s}

/-- What is logged of a wait in which the device always shows this status. -/
def complaint (status bits : UInt8) : List Event :=
  match Status.judge status bits with
  | .pending => [.log ⟨.warn, "IDE timeout, status=0x" ++ Text.hexByte status⟩]
  | _ => []

theorem complaint_of_conclusive {status bits : UInt8} (h : Status.judge status bits ≠ .pending) :
    complaint status bits = [] := by
  rw [complaint]
  split
  · contradiction
  · rfl

theorem read_lingers {reg : Register} {value : UInt8} (settled : Bank.read s.device reg = (value, s.device)) :
    ∃ t, read reg s = .ok (value, t) ∧ s.Lingers t [] 0 := by
  obtain ⟨hvalue, hdevice⟩ := Prod.mk.inj settled
  refine ⟨⟨s.device, s.clock, s.history.push (.cycle (.read reg value))⟩, ?_, rfl, rfl, Session.lasting_push ..⟩
  rw [← hvalue]
  exact congrArg (fun device => Except.ok (_, Session.mk device s.clock _)) hdevice

theorem poll_lingers {status bits : UInt8} {deadline : Deadline} {wait samples : Nat}
    (settled : Bank.read s.device .status = (status, s.device))
    (hp : deadline.passedAt (Timer.shown s.clock wait) = true) (hw : wait < samples) :
    ∃ t n, poll bits deadline samples s = .ok ((Status.judge status bits).outcome status, t) ∧
      s.Lingers t (complaint status bits) n := by
  induction samples generalizing wait s with
  | zero => cases hw
  | succ samples ih =>
      obtain ⟨t, hread, hlingers⟩ := read_lingers settled
      by_cases hj : Status.judge status bits = .pending
      · obtain ⟨u, hexpired, hlingers'⟩ := expired_lingers t deadline
        have hlingers' := hlingers.trans hlingers'
        rw [hlingers.shown, Nat.zero_add] at hexpired
        cases hpassed : deadline.passedAt (Timer.shown s.clock 0) with
        | true =>
            obtain ⟨v, hlog, hlogged⟩ := log_lingers u .warn ("IDE timeout, status=0x" ++ Text.hexByte status)
            rw [complaint, hj]
            exact ⟨v, _, poll_of_late hread samples hj (hpassed ▸ hexpired) hlog, hlingers'.trans hlogged⟩
        | false =>
            -- the deadline has not passed yet, so the reading that shows it is a later one
            cases wait with
            | zero => rw [hpassed] at hp; cases hp
            | succ wait =>
                have hsettled : Bank.read u.device .status = (status, u.device) := by
                  rw [hlingers'.device, settled]
                have hp : deadline.passedAt (Timer.shown u.clock wait) = true := by
                  rw [hlingers'.shown, ← hp, Nat.zero_add, Nat.add_comm]
                obtain ⟨v, n, hpoll, hrest⟩ := ih hsettled hp (Nat.lt_of_succ_lt_succ hw)
                refine ⟨v, _, ?_, hlingers'.trans hrest⟩
                rw [poll_of_early hread samples hj (hpassed ▸ hexpired), hpoll]
      · refine ⟨t, 0, poll_of_conclusive hread samples hj, ?_⟩
        rwa [complaint_of_conclusive hj]

theorem awaitStatus_lingers {status : UInt8} (bits : UInt8) (timeoutMs : UInt32)
    (settled : Bank.read s.device .status = (status, s.device))
    (quiet : (Bank.read s.device .altStatus).2 = s.device) (lively : Timer.Lively s.clock) :
    ∃ t n, awaitStatus bits timeoutMs s = .ok ((Status.judge status bits).outcome status, t) ∧
      s.Lingers t (complaint status bits) n := by
  have hsettle : Bank.read s.device .altStatus = (_, s.device) := Prod.ext rfl quiet
  obtain ⟨t, hread, hlingers⟩ := read_lingers hsettle
  obtain ⟨u, hdeadline, hlingers'⟩ := deadlineMs_lingers t timeoutMs
  obtain ⟨wait, hwait, hpassed⟩ :=
    (hlingers.lively lively) 0 _ (Deadline.duration_lt ((Timer.rate t.clock).ticks timeoutMs))
  rw [Nat.zero_add, Nat.add_comm wait, ← hlingers'.shown] at hpassed
  have hlingers' := hlingers.trans hlingers'
  have hsettled : Bank.read u.device .status = (status, u.device) := by rw [hlingers'.device, settled]
  obtain ⟨v, n, hpoll, hrest⟩ := poll_lingers hsettled hpassed hwait
  refine ⟨v, _, ?_, hlingers'.trans hrest⟩
  rw [awaitStatus, Program.bind_of_ok hread, Program.bind_of_ok hdeadline]
  exact hpoll

end BusM

end PolledAta
