import PolledAta.Proofs.Session
import PolledAta.Wait

/-!
# Waits

A wait reads the alternate status once and then samples the status: every sample but the last one is pending, and the
last one decides. A clock that moves ends every wait.
-/

namespace PolledAta

/-- What a wait answers that ends with the sample `last`. -/
def Status.Verdict.outcome (last : UInt8) : Status.Verdict → Except AtaError UInt8
  | .done => .ok last
  | .failed error => .error error
  | .pending => .error (.timeout last)

/-- The cycles of one wait for `bits`, and its answer. -/
inductive Waited (bits : UInt8) : List Cycle → Except AtaError UInt8 → Prop where
  | intro (settle : UInt8) (pending : List UInt8) (last : UInt8)
      (early : ∀ status ∈ pending, Status.judge status bits = .pending) :
      Waited bits
        (.read .altStatus settle :: pending.map (.read .status) ++ [.read .status last])
        ((Status.judge last bits).outcome last)

namespace BusM

/-! ## One sample -/

section

variable {δ κ : Type} [Bank δ] [Timer κ] {bits status : UInt8} {deadline : Deadline} {s t u v : Session δ κ}

/-- A sample that is not pending is the last one. -/
theorem poll_of_conclusive (sample : read .status s = .ok (status, u)) (more : Nat)
    (conclusive : Status.judge status bits ≠ .pending) :
    poll bits deadline (more + 1) s = .ok ((Status.judge status bits).outcome status, u) := by
  rw [poll, Program.bind_of_ok sample]
  cases hj : Status.judge status bits with
  | done => rfl
  | failed error => rfl
  | pending => exact absurd hj conclusive

/-- A pending sample is the last one too if the reading after it shows the deadline to have passed. -/
theorem poll_of_late (sample : read .status s = .ok (status, u)) (more : Nat)
    (pending : Status.judge status bits = .pending) (look : expired deadline u = .ok (true, v))
    (warned : log .warn ("IDE timeout, status=0x" ++ Text.hexByte status) v = .ok ((), t)) :
    poll bits deadline (more + 1) s = .ok (.error (.timeout status), t) := by
  rw [poll, Program.bind_of_ok sample]
  simp only [pending, Program.bind_of_ok look]
  exact Program.bind_of_ok warned

theorem poll_of_early (sample : read .status s = .ok (status, u)) (more : Nat)
    (pending : Status.judge status bits = .pending) (look : expired deadline u = .ok (false, v)) :
    poll bits deadline (more + 1) s = poll bits deadline more v := by
  rw [poll, Program.bind_of_ok sample]
  simp only [pending, Program.bind_of_ok look]
  rfl

/-- What the first sample comes to in a run that ends. -/
inductive Polled (bits : UInt8) (deadline : Deadline) (more : Nat) (s t : Session δ κ) :
    Except AtaError UInt8 → Prop where
  | conclusive {status : UInt8} (sample : read .status s = .ok (status, t))
      (decided : Status.judge status bits ≠ .pending) :
      Polled bits deadline more s t ((Status.judge status bits).outcome status)
  | late {status : UInt8} {u v : Session δ κ} (sample : read .status s = .ok (status, u))
      (pending : Status.judge status bits = .pending) (look : expired deadline u = .ok (true, v))
      (warned : log .warn ("IDE timeout, status=0x" ++ Text.hexByte status) v = .ok ((), t)) :
      Polled bits deadline more s t (.error (.timeout status))
  | early {status : UInt8} {u v : Session δ κ} {answer : Except AtaError UInt8}
      (sample : read .status s = .ok (status, u)) (pending : Status.judge status bits = .pending)
      (look : expired deadline u = .ok (false, v)) (rest : poll bits deadline more v = .ok (answer, t)) :
      Polled bits deadline more s t answer

theorem polled_of_run {more : Nat} {answer : Except AtaError UInt8}
    (h : poll bits deadline (more + 1) s = .ok (answer, t)) : Polled bits deadline more s t answer := by
  have hrun := h
  rw [poll] at h
  obtain ⟨status, u, sample, h⟩ := Program.bind_eq_ok.mp h
  by_cases hj : Status.judge status bits = .pending
  · simp only [hj] at h
    obtain ⟨passed, v, look, h⟩ := Program.bind_eq_ok.mp h
    cases passed with
    | true =>
        obtain ⟨_, w, warned, h⟩ := Program.bind_eq_ok.mp h
        cases h
        exact .late sample hj look warned
    | false => exact .early sample hj look h
  · rw [poll_of_conclusive sample more hj] at hrun
    cases hrun
    exact .conclusive sample hj

end

/-! ## Runs -/

variable {δ : Type} (s : Session δ)

theorem deadline_run (ticks : UInt32) :
    ∃ t, deadline ticks s = .ok (⟨s.clock.now + Deadline.duration ticks⟩, t) ∧
      s.Grows t [] 1 ∧ t.device = s.device := by
  unfold deadline
  cases Deadline.tooLong ticks with
  | false =>
      obtain ⟨t, hr, hg, hd⟩ := readClock_run s
      exact ⟨t, Program.bind_of_ok hr, hg, hd⟩
  | true =>
      obtain ⟨u, hl, hg₁, hd₁⟩ := log_run s .warn ("bad timer duration " ++ toString ticks.toNat)
      obtain ⟨t, hr, hg₂, hd₂⟩ := readClock_run u
      have hnow : u.clock.now = s.clock.now := by rw [hg₁.clock, Clock.after_zero]
      refine ⟨t, ?_, by simpa using hg₁.trans hg₂, hd₂.trans hd₁⟩
      rw [← hnow]
      exact (Program.bind_of_ok hl).trans (Program.bind_of_ok hr)

theorem expired_run (deadline : Deadline) :
    ∃ t, expired deadline s = .ok (deadline.passedAt s.clock.now, t) ∧
      s.Grows t [] 1 ∧ t.device = s.device := by
  obtain ⟨t, hr, hg, hd⟩ := readClock_run s
  exact ⟨t, Program.bind_of_ok hr, hg, hd⟩

variable [Bank δ]

/-- Polling ends at the first sample that is not pending, or with the sample after which a reading shows that the
deadline has passed. -/
theorem poll_run (bits : UInt8) {deadline : Deadline} {k samples : Nat} {s : Session δ}
    (hp : deadline.passedAt (s.clock.after k).now = true) (hk : k < samples) :
    ∃ (pending : List UInt8) (last : UInt8) (t : Session δ) (readings : Nat),
      poll bits deadline samples s = .ok ((Status.judge last bits).outcome last, t) ∧
      (∀ status ∈ pending, Status.judge status bits = .pending) ∧
      s.Grows t (pending.map (.read .status) ++ [.read .status last]) readings := by
  induction samples generalizing k s with
  | zero => cases hk
  | succ samples ih =>
      obtain ⟨status, u, hr, hg⟩ := read_run s .status
      by_cases hj : Status.judge status bits = .pending
      · obtain ⟨v, he, hg', _⟩ := expired_run u deadline
        have hu : u.clock = s.clock := by rw [hg.clock, Clock.after_zero]
        have hv : v.clock = s.clock.after 1 := by rw [hg'.clock, hu]
        cases hpassed : deadline.passedAt u.clock.now with
        | true =>
            obtain ⟨t, hl, hg'', _⟩ := log_run v .warn ("IDE timeout, status=0x" ++ Text.hexByte status)
            refine ⟨[], status, t, 1, ?_, by simp, by simpa using (hg.trans hg').trans hg''⟩
            rw [hj]
            exact poll_of_late hr samples hj (hpassed ▸ he) hl
        | false =>
            -- the deadline has not passed yet, so the reading that shows it is a later one
            cases k with
            | zero => rw [Clock.after_zero, ← hu, hpassed] at hp; cases hp
            | succ k =>
                have hp' : deadline.passedAt (v.clock.after k).now = true := by
                  rw [hv, Clock.after_after, Nat.add_comm, hp]
                obtain ⟨pending, last, t, readings, hrun, hpending, hgrows⟩ := ih hp' (Nat.lt_of_succ_lt_succ hk)
                refine ⟨status :: pending, last, t, _, ?_, List.forall_mem_cons.mpr ⟨hj, hpending⟩,
                  (hg.trans hg').trans hgrows⟩
                rw [poll_of_early hr samples hj (hpassed ▸ he), hrun]
      · exact ⟨[], status, u, 0, poll_of_conclusive hr samples hj, by simp, hg⟩

/-- A clock that moves ends every wait, whatever the device shows. -/
theorem awaitStatus_run (bits : UInt8) (timeoutMs : UInt32) (hm : s.clock.Moving) :
    ∃ (trace : List Cycle) (answer : Except AtaError UInt8) (t : Session δ) (readings : Nat),
      awaitStatus bits timeoutMs s = .ok (answer, t) ∧ Waited bits trace answer ∧ s.Grows t trace readings := by
  obtain ⟨settle, u, hr, hg⟩ := read_run s .altStatus
  obtain ⟨v, hd, hg', _⟩ := deadline_run u (u.clock.rate.ticks timeoutMs)
  have hu : u.clock = s.clock := by rw [hg.clock, Clock.after_zero]
  have hv : v.clock = s.clock.after 1 := by rw [hg'.clock, hu]
  have hdl : deadlineMs timeoutMs u = .ok (⟨_⟩, v) := hd
  have hlt := Deadline.duration_lt (u.clock.rate.ticks timeoutMs)
  have hpassed := (hu ▸ hm).passes hlt
  rw [hu, Nat.add_comm, ← Clock.after_after, ← hv] at hpassed
  have hk : (Deadline.duration (s.clock.rate.ticks timeoutMs)).toNat / s.clock.step.toNat < Clock.period :=
    Nat.lt_of_le_of_lt (Nat.div_le_self ..) (Nat.lt_trans (hu ▸ hlt) (by decide))
  obtain ⟨pending, last, t, readings, hrun, hpending, hgrows⟩ := poll_run bits hpassed hk
  refine ⟨_, _, t, _, ?_, .intro settle pending last hpending, (hg.trans hg').trans hgrows⟩
  rw [awaitStatus, Program.bind_of_ok hr, Program.bind_of_ok hdl, hu]
  exact hrun

end BusM

end PolledAta
