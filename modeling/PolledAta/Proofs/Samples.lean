import PolledAta.Proofs.Readings

/-!
# The sample that decides a wait

A wait takes samples of the status one after the other. The first one that is not pending decides it, unless a reading
shows before that the deadline has passed, and how many samples fit before that follows from the pace of the clock.
-/

namespace PolledAta

/-! ## What a device shows -/

namespace Bank

variable {δ : Type} [Bank δ]

/-- The device after so many samples of its status. -/
def sampled (device : δ) : (samples : Nat) → δ
  | 0 => device
  | samples + 1 => (Bank.read (sampled device samples) .status).2

/-- The sample that follows so many others. -/
def sample (device : δ) (samples : Nat) : UInt8 := (Bank.read (sampled device samples) .status).1

end Bank

/-- A device that shows one status after the other, whatever it is told. -/
structure Showing where
  status : Nat → UInt8

instance : Bank Showing where
  read device
    | .status => (device.status 0, ⟨fun later => device.status (later + 1)⟩)
    | _ => (0, device)
  write device _ _ := device
  readData device := (none, device)
  writeData device _ := device

/-- Any sequence at all can be what a device shows. -/
theorem Showing.sample_eq (device : Showing) (samples : Nat) : Bank.sample device samples = device.status samples := by
  have hsampled : Bank.sampled device samples = ⟨fun later => device.status (samples + later)⟩ := by
    induction samples with
    | zero => simp [Bank.sampled]
    | succ samples ih =>
        rw [Bank.sampled, ih]
        exact congrArg Showing.mk (funext fun later => congrArg device.status (by omega))
  rw [Bank.sample, hsampled]
  rfl

/-! ## Steps of a wait -/

namespace Session

variable {δ : Type}

/-- The clock has been looked at once more. -/
def looked (s : Session δ) : Session δ where
  device := s.device
  clock := s.clock.after 1
  history := s.history.push (.reading s.clock.now)

/-- A warning has been logged. -/
def warned (s : Session δ) (text : String) : Session δ where
  device := s.device
  clock := s.clock
  history := s.history.push (.log ⟨.warn, text⟩)

@[simp]
theorem cycles_looked (s : Session δ) : s.looked.cycles = s.cycles := by
  simp [looked, Event.cycle?, cycles]

@[simp]
theorem readings_looked (s : Session δ) : s.looked.readings = s.readings ++ [s.clock.now] := by
  simp [looked, Event.reading?, readings]

@[simp]
theorem records_looked (s : Session δ) : s.looked.records = s.records := by
  simp [looked, Event.record?, records]

@[simp]
theorem cycles_warned (s : Session δ) (text : String) : (s.warned text).cycles = s.cycles := by
  simp [warned, Event.cycle?, cycles]

@[simp]
theorem readings_warned (s : Session δ) (text : String) : (s.warned text).readings = s.readings := by
  simp [warned, Event.reading?, readings]

@[simp]
theorem records_warned (s : Session δ) (text : String) : (s.warned text).records = s.records ++ [⟨.warn, text⟩] := by
  simp [warned, Event.record?, records]

variable [Bank δ]

/-- One more sample has been taken. -/
def sampled (s : Session δ) : Session δ where
  device := (Bank.read s.device .status).2
  clock := s.clock
  history := s.history.push (.cycle (.read .status (Bank.read s.device .status).1))

@[simp]
theorem cycles_sampled (s : Session δ) :
    s.sampled.cycles = s.cycles ++ [.read .status (Bank.sample s.device 0)] := by
  simp [sampled, Event.cycle?, cycles, Bank.sample, Bank.sampled]

@[simp]
theorem readings_sampled (s : Session δ) : s.sampled.readings = s.readings := by
  simp [sampled, Event.reading?, readings]

@[simp]
theorem records_sampled (s : Session δ) : s.sampled.records = s.records := by
  simp [sampled, Event.record?, records]

/-- The status has had its time to settle. -/
def settled (s : Session δ) : Session δ where
  device := (Bank.read s.device .altStatus).2
  clock := s.clock
  history := s.history.push (.cycle (.read .altStatus (Bank.read s.device .altStatus).1))

@[simp]
theorem cycles_settled (s : Session δ) :
    s.settled.cycles = s.cycles ++ [.read .altStatus (Bank.read s.device .altStatus).1] := by
  simp [settled, Event.cycle?, cycles]

@[simp]
theorem readings_settled (s : Session δ) : s.settled.readings = s.readings := by
  simp [settled, Event.reading?, readings]

@[simp]
theorem records_settled (s : Session δ) : s.settled.records = s.records := by
  simp [settled, Event.record?, records]

/-! ## Pending samples -/

/-- So many samples have been taken, each with a look at the clock after it. -/
def polled (s : Session δ) : (samples : Nat) → Session δ
  | 0 => s
  | samples + 1 => (s.polled samples).sampled.looked

variable (s : Session δ) (samples : Nat)

theorem device_polled : (s.polled samples).device = Bank.sampled s.device samples := by
  induction samples with
  | zero => rfl
  | succ samples ih => rw [polled, looked, sampled, ih, Bank.sampled]

theorem clock_polled : (s.polled samples).clock = s.clock.after samples := by
  induction samples with
  | zero => simp [polled]
  | succ samples ih => simp [polled, looked, sampled, ih, Clock.after_after]

theorem sample_polled : Bank.sample (s.polled samples).device 0 = Bank.sample s.device samples := by
  rw [device_polled]
  rfl

theorem cycles_polled : (s.polled samples).cycles =
    s.cycles ++ (List.range samples).map fun i => .read .status (Bank.sample s.device i) := by
  induction samples with
  | zero => simp [polled]
  | succ samples ih => simp [polled, ih, sample_polled, List.range_succ]

theorem readings_polled : (s.polled samples).readings =
    s.readings ++ (List.range samples).map fun i => (s.clock.after i).now := by
  induction samples with
  | zero => simp [polled]
  | succ samples ih =>
      have hclock : (s.polled samples).sampled.clock = s.clock.after samples := clock_polled s samples
      simp [polled, ih, hclock, List.range_succ]

theorem records_polled : (s.polled samples).records = s.records := by
  induction samples with
  | zero => rfl
  | succ samples ih => simp [polled, ih]

end Session

namespace BusM

variable {δ : Type} [Bank δ] {s : Session δ} {bits : UInt8} {deadline : Deadline}

theorem read_status (s : Session δ) : read .status s = .ok (Bank.sample s.device 0, s.sampled) := rfl

omit [Bank δ] in
theorem expired_looked (s : Session δ) : expired deadline s = .ok (deadline.passedAt s.clock.now, s.looked) := by
  rw [Session.looked, ← Clock.snd_reading]
  rfl

/-- A sample that is not pending is the last one. -/
theorem poll_conclusive (more : Nat) (conclusive : Status.judge (Bank.sample s.device 0) bits ≠ .pending) :
    poll bits deadline (more + 1) s =
      .ok ((Status.judge (Bank.sample s.device 0) bits).outcome (Bank.sample s.device 0), s.sampled) :=
  poll_of_conclusive (read_status s) more conclusive

/-- A pending sample is the last one too if the next reading shows the deadline to have passed. -/
theorem poll_pending (more : Nat) (pending : Status.judge (Bank.sample s.device 0) bits = .pending) :
    poll bits deadline (more + 1) s =
      if deadline.passedAt s.clock.now then
        .ok (.error (.timeout (Bank.sample s.device 0)),
          s.sampled.looked.warned ("IDE timeout, status=0x" ++ Text.hexByte (Bank.sample s.device 0)))
      else poll bits deadline more s.sampled.looked := by
  have hlook : expired deadline s.sampled = .ok (deadline.passedAt s.clock.now, s.sampled.looked) :=
    expired_looked s.sampled
  cases hpassed : deadline.passedAt s.clock.now with
  | true => exact poll_of_late (read_status s) more pending (hpassed ▸ hlook) rfl
  | false => exact poll_of_early (read_status s) more pending (hpassed ▸ hlook)

/-- Samples that are all pending, and readings that do not show the deadline to have passed. -/
theorem poll_polled (samples more : Nat)
    (pending : ∀ i < samples, Status.judge (Bank.sample s.device i) bits = .pending)
    (early : ∀ i < samples, deadline.passedAt (s.clock.after i).now = false) :
    poll bits deadline (more + samples) s = poll bits deadline more (s.polled samples) := by
  induction samples generalizing more with
  | zero => rfl
  | succ samples ih =>
      have hpending : Status.judge (Bank.sample (s.polled samples).device 0) bits = .pending := by
        rw [s.sample_polled]
        exact pending samples (by omega)
      have hearly : deadline.passedAt (s.polled samples).clock.now = false := by
        rw [s.clock_polled]
        exact early samples (by omega)
      rw [Nat.add_left_comm, Nat.add_comm samples,
        ih (more + 1) (fun i hi => pending i (by omega)) (fun i hi => early i (by omega)), poll_pending more hpending]
      simp [hearly, Session.polled]

/-! ## Waits -/

theorem awaitStatus_eq (bits : UInt8) (timeoutMs : UInt32) (s : Session δ) :
    awaitStatus bits timeoutMs s =
      poll bits ⟨s.clock.now + Deadline.duration (s.clock.rate.ticks timeoutMs)⟩ Clock.period s.settled.looked := by
  have hread : read .altStatus s = .ok ((Bank.read s.device .altStatus).1, s.settled) := rfl
  have hdeadline : deadlineMs timeoutMs s.settled =
      .ok (⟨s.clock.now + Deadline.duration (s.clock.rate.ticks timeoutMs)⟩, s.settled.looked) := by
    show BusM.deadline (s.clock.rate.ticks timeoutMs) s.settled = _
    rw [BusM.deadline, Deadline.tooLong_ticks, Session.looked, ← Clock.snd_reading]
    rfl
  rw [awaitStatus, Program.bind_of_ok hread, Program.bind_of_ok hdeadline]
  rfl

end BusM

/-! ## Decisions -/

namespace Clock

/-- The ticks that a wait allows. -/
def allowed (clock : Clock) (ms : UInt32) : Nat := max 1 (clock.rate.ticks ms).toNat

/-- The number of the last sample of a wait, if all before it are pending; the first one is sample 0. -/
def lastSample (clock : Clock) (ms : UInt32) : Nat := clock.allowed ms / clock.step.toNat

variable {clock : Clock} {ms : UInt32}

theorem allowed_lt (clock : Clock) (ms : UInt32) : clock.allowed ms < 2 ^ 31 := by
  have hlt := Deadline.duration_lt (clock.rate.ticks ms)
  rwa [Deadline.toNat_duration_ticks] at hlt

theorem lastSample_lt_period (clock : Clock) (ms : UInt32) : clock.lastSample ms < period :=
  Nat.lt_of_le_of_lt (Nat.div_le_self ..) (Nat.lt_trans (clock.allowed_lt ms) (by decide))

/-- As many readings as a wait can take do not go round the counter. -/
theorem Moving.mul_step_le (h : clock.Moving) {readings : Nat} (hr : readings ≤ clock.lastSample ms + 1) :
    readings * clock.step.toNat ≤ clock.allowed ms + 2 ^ 31 := by
  have hdiv : clock.lastSample ms * clock.step.toNat ≤ clock.allowed ms := Nat.div_mul_le_self ..
  have hmul : readings * clock.step.toNat ≤ (clock.lastSample ms + 1) * clock.step.toNat := Nat.mul_le_mul_right _ hr
  rw [Nat.add_mul] at hmul
  have := h.step_le
  omega

/-- The reading after the last sample is the first one that lies more than the allowed ticks after the one that the
deadline was made from. -/
theorem Moving.allowed_lt_iff (h : clock.Moving) {readings : Nat} (hr : readings ≤ clock.lastSample ms + 1) :
    clock.allowed ms < ((clock.after readings).now - clock.now).toNat ↔ readings = clock.lastSample ms + 1 := by
  have hle := h.mul_step_le hr
  have hlt := clock.allowed_lt ms
  rw [toNat_after_sub clock (by omega), h.lt_mul_iff hr]
  rfl

/-- The reading after the last sample is the first one that shows the deadline to have passed. -/
theorem Moving.passed_iff (h : clock.Moving) {samples : Nat} (hs : samples ≤ clock.lastSample ms) :
    Deadline.passedAt ⟨clock.now + Deadline.duration (clock.rate.ticks ms)⟩ ((clock.after 1).after samples).now = true ↔
      samples = clock.lastSample ms := by
  have hduration : (Deadline.duration (clock.rate.ticks ms)).toNat = clock.allowed ms :=
    Deadline.toNat_duration_ticks ..
  have hr : samples + 1 ≤ clock.lastSample ms + 1 := Nat.succ_le_succ hs
  have hle := h.mul_step_le hr
  rw [after_after, Nat.add_comm, passedAt_after clock (Deadline.duration_lt _) (by omega), hduration,
    h.lt_mul_iff hr, Nat.succ_inj]
  rfl

end Clock

variable {δ : Type} [Bank δ]

/-- Sample `i` of a wait that begins in this state. -/
def Session.shown (s : Session δ) (i : Nat) : UInt8 := Bank.sample (Bank.read s.device .altStatus).2 i

/-- Between the two states the alternate status was read once and then the status so many times, and the clock was read
so many times. Nothing else was done to the device. -/
structure Session.Waits (before after : Session δ) (samples readings : Nat) : Prop where
  cycles : after.cycles = before.cycles ++ .read .altStatus (Bank.read before.device .altStatus).1 ::
    (List.range samples).map fun i => .read .status (before.shown i)
  readings : after.readings = before.readings ++ (List.range readings).map fun i => (before.clock.after i).now

namespace Session

variable (s : Session δ) (samples : Nat)

/-- So many samples into a wait, each with a look at the clock after it. -/
theorem waits_polled : s.Waits (s.settled.looked.polled samples) samples (samples + 1) := by
  constructor
  · rw [cycles_polled, cycles_looked, cycles_settled, List.append_assoc]
    rfl
  · rw [readings_polled, readings_looked, readings_settled, List.append_assoc]
    simp [looked, settled, List.range_succ_eq_map, Clock.after_after, Nat.add_comm]

/-- One more sample, with no look at the clock. -/
theorem waits_sampled : s.Waits (s.settled.looked.polled samples).sampled (samples + 1) (samples + 1) := by
  obtain ⟨hcycles, _⟩ := s.waits_polled (samples + 1)
  obtain ⟨_, hreadings⟩ := s.waits_polled samples
  rw [polled, cycles_looked] at hcycles
  exact ⟨hcycles, by rw [readings_sampled, hreadings]⟩

theorem records_waiting : (s.settled.looked.polled samples).records = s.records := by
  rw [records_polled, records_looked, records_settled]

end Session

namespace BusM

variable {bits : UInt8} {timeoutMs : UInt32} {s : Session δ} {n : Nat}

/-- A wait goes on as long as its samples are pending and it is not yet at its last one. -/
theorem awaitStatus_pending (hm : s.clock.Moving) (hn : n ≤ s.clock.lastSample timeoutMs)
    (pending : ∀ i < n, Status.judge (s.shown i) bits = .pending) :
    ∃ more, awaitStatus bits timeoutMs s =
      poll bits ⟨s.clock.now + Deadline.duration (s.clock.rate.ticks timeoutMs)⟩ (more + 1)
        (s.settled.looked.polled n) := by
  have hperiod := s.clock.lastSample_lt_period timeoutMs
  obtain ⟨more, hfuel⟩ : ∃ more, Clock.period = more + 1 + n := ⟨Clock.period - 1 - n, by omega⟩
  have early : ∀ i < n, Deadline.passedAt ⟨s.clock.now + Deadline.duration (s.clock.rate.ticks timeoutMs)⟩
      (s.settled.looked.clock.after i).now = false := by
    intro i hi
    have hlt : i < s.clock.lastSample timeoutMs := Nat.lt_of_lt_of_le hi hn
    exact Bool.eq_false_iff.mpr fun hpassed => hlt.ne ((hm.passed_iff hlt.le).mp hpassed)
  refine ⟨more, ?_⟩
  rw [awaitStatus_eq, hfuel]
  exact poll_polled n (more + 1) pending early

/-- The first sample that is not pending decides. -/
theorem awaitStatus_conclusive (hm : s.clock.Moving) (hn : n ≤ s.clock.lastSample timeoutMs)
    (pending : ∀ i < n, Status.judge (s.shown i) bits = .pending)
    (conclusive : Status.judge (s.shown n) bits ≠ .pending) :
    awaitStatus bits timeoutMs s =
      .ok ((Status.judge (s.shown n) bits).outcome (s.shown n), (s.settled.looked.polled n).sampled) := by
  have hshown : Bank.sample (s.settled.looked.polled n).device 0 = s.shown n := Session.sample_polled ..
  obtain ⟨more, hpoll⟩ := awaitStatus_pending hm hn pending
  rw [← hshown] at conclusive ⊢
  rw [hpoll, poll_conclusive more conclusive]

/-- A wait whose samples are all pending is given up at its last one. -/
theorem awaitStatus_timeout (hm : s.clock.Moving)
    (pending : ∀ i ≤ s.clock.lastSample timeoutMs, Status.judge (s.shown i) bits = .pending) :
    awaitStatus bits timeoutMs s =
      .ok (.error (.timeout (s.shown (s.clock.lastSample timeoutMs))),
        (s.settled.looked.polled (s.clock.lastSample timeoutMs + 1)).warned
          ("IDE timeout, status=0x" ++ Text.hexByte (s.shown (s.clock.lastSample timeoutMs)))) := by
  have hshown : Bank.sample (s.settled.looked.polled (s.clock.lastSample timeoutMs)).device 0 =
      s.shown (s.clock.lastSample timeoutMs) := Session.sample_polled ..
  obtain ⟨more, hpoll⟩ := awaitStatus_pending hm (Nat.le_refl _) fun i hi => pending i (Nat.le_of_lt hi)
  have hlast := pending _ (Nat.le_refl _)
  have hlate := (hm.passed_iff (Nat.le_refl (s.clock.lastSample timeoutMs))).mpr rfl
  rw [← hshown] at hlast ⊢
  rw [hpoll, poll_pending more hlast, Session.clock_polled]
  exact if_pos hlate

/-- A wait takes samples until the first one that is not pending, which decides it; but if all are pending up to the
last sample that fits into the time, it is given up there. The reading that ends it is the first one that lies more than
the allowed ticks after the one that the deadline was made from. -/
theorem awaitStatus_decides (bits : UInt8) (timeoutMs : UInt32) (s : Session δ) (hm : s.clock.Moving) :
    (∀ n ≤ s.clock.lastSample timeoutMs, (∀ i < n, Status.judge (s.shown i) bits = .pending) →
      Status.judge (s.shown n) bits ≠ .pending →
      ∃ t, awaitStatus bits timeoutMs s = .ok ((Status.judge (s.shown n) bits).outcome (s.shown n), t) ∧
        s.Waits t (n + 1) (n + 1) ∧ t.records = s.records) ∧
    ((∀ i ≤ s.clock.lastSample timeoutMs, Status.judge (s.shown i) bits = .pending) →
      ∃ t, awaitStatus bits timeoutMs s = .ok (.error (.timeout (s.shown (s.clock.lastSample timeoutMs))), t) ∧
        s.Waits t (s.clock.lastSample timeoutMs + 1) (s.clock.lastSample timeoutMs + 2) ∧
        t.records = s.records ++
          [⟨.warn, "IDE timeout, status=0x" ++ Text.hexByte (s.shown (s.clock.lastSample timeoutMs))⟩]) ∧
    ∀ readings ≤ s.clock.lastSample timeoutMs + 1,
      s.clock.allowed timeoutMs < ((s.clock.after readings).now - s.clock.now).toNat ↔
        readings = s.clock.lastSample timeoutMs + 1 := by
  refine ⟨?conclusive, ?timeout, fun readings hr => hm.allowed_lt_iff hr⟩
  case conclusive =>
    intro n hn pending conclusive
    refine ⟨_, awaitStatus_conclusive hm hn pending conclusive, s.waits_sampled n, ?_⟩
    rw [Session.records_sampled, s.records_waiting]
  case timeout =>
    intro pending
    obtain ⟨hcycles, hreadings⟩ := s.waits_polled (s.clock.lastSample timeoutMs + 1)
    refine ⟨_, awaitStatus_timeout hm pending, ⟨?_, ?_⟩, ?_⟩
    · rw [Session.cycles_warned, hcycles]
    · rw [Session.readings_warned, hreadings]
    · rw [Session.records_warned, s.records_waiting]

/-- A device that is busy at first and then asks for data, while the counter goes round. -/
def showingBusy : Session Showing where
  device := ⟨fun samples => if samples = 0 then Status.busy else 0x58⟩
  clock := ⟨.hz50, 0xfffffffe, 3⟩
  history := #[]

/-- Five ticks make room for two samples that are three ticks apart, and the second one decides. -/
theorem awaitStatus_decides_showingBusy : showingBusy.clock.Moving ∧
    ∃ t, awaitStatus Status.dataRequest 100 showingBusy = .ok (.ok 0x58, t) ∧
      t.cycles = [.read .altStatus 0, .read .status Status.busy, .read .status 0x58] ∧
      t.readings = [0xfffffffe, 1] := by
  have hm : showingBusy.clock.Moving := ⟨by decide, by decide⟩
  obtain ⟨conclusive, _, _⟩ := awaitStatus_decides Status.dataRequest 100 showingBusy hm
  obtain ⟨t, hrun, ⟨hcycles, hreadings⟩, _⟩ := conclusive 1 (by decide) (by decide) (by decide)
  exact ⟨hm, t, hrun, hcycles, hreadings⟩

end BusM

end PolledAta
