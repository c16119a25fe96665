import PolledAta.Controller
import PolledAta.Proofs.Transfer

/-!
# Readings of the clock

A wait reads the clock once to set its deadline and then at most until the deadline shows to have passed. Nothing else
reads it, so a program reads it as often as its waits do, whatever the device answers.
-/

namespace PolledAta

variable {δ α β : Type}

namespace Clock

/-- The readings that one wait can take: the first sets the deadline, and the last shows it to have passed. -/
def waitLimit (clock : Clock) (ms : UInt32) : Nat := max 1 (clock.rate.ticks ms).toNat / clock.step.toNat + 2

/-- The clocks count alike, wherever they stand. -/
structure SamePace (clock other : Clock) : Prop where
  rate : other.rate = clock.rate
  step : other.step = clock.step

theorem SamePace.refl (clock : Clock) : clock.SamePace clock := ⟨rfl, rfl⟩

theorem SamePace.moving {clock other : Clock} (h : clock.SamePace other) (hm : clock.Moving) : other.Moving :=
  hm.of_step_eq h.step

theorem SamePace.waitLimit_eq {clock other : Clock} (h : clock.SamePace other) (ms : UInt32) :
    other.waitLimit ms = clock.waitLimit ms := by
  rw [waitLimit, waitLimit, h.rate, h.step]

/-- A deadline that is set at one reading has passed at a later one that is still within the limit. -/
theorem SamePace.passes {clock other : Clock} (h : clock.SamePace other) (hm : clock.Moving) (ms : UInt32) :
    ∃ k, k + 2 = clock.waitLimit ms ∧
      Deadline.passedAt ⟨other.now + Deadline.duration (other.rate.ticks ms)⟩ ((other.after 1).after k).now = true := by
  refine ⟨_, rfl, ?_⟩
  have hpassed := (h.moving hm).passes (Deadline.duration_lt (other.rate.ticks ms))
  rw [Deadline.toNat_duration_ticks] at hpassed
  rw [after_after, Nat.add_comm, ← h.rate, ← h.step]
  exact hpassed

end Clock

namespace Session

variable {before between after : Session δ}

/-- Between the two states the clock has been read so many times. -/
structure Reads (before after : Session δ) (readings : Nat) : Prop where
  clock : after.clock = before.clock.after readings
  shown : after.readings.length = before.readings.length + readings

theorem Reads.refl (session : Session δ) : session.Reads session 0 := ⟨(Clock.after_zero _).symm, rfl⟩

theorem Reads.trans {m n : Nat} (h : before.Reads between m) (h' : between.Reads after n) :
    before.Reads after (m + n) :=
  ⟨by rw [h'.clock, h.clock, Clock.after_after], by rw [h'.shown, h.shown, Nat.add_assoc]⟩

theorem Reads.samePace {clock : Clock} {n : Nat} (h : before.Reads after n) (hp : clock.SamePace before.clock) :
    clock.SamePace after.clock := by
  rw [h.clock]
  exact ⟨hp.rate, hp.step⟩

theorem readings_push (device : δ) (clock : Clock) (history : Array Event) (event : Event) :
    Session.readings ⟨device, clock, history.push event⟩ =
      Session.readings ⟨device, clock, history⟩ ++ event.reading?.toList := by
  cases event <;> simp [Session.readings, Event.reading?]

/-- An event that is no reading. -/
theorem Reads.pushed {device device' : δ} {clock : Clock} {history : Array Event} {event : Event}
    (h : event.reading? = none) : Reads ⟨device, clock, history⟩ ⟨device', clock, history.push event⟩ 0 := by
  refine ⟨(Clock.after_zero _).symm, ?_⟩
  rw [readings_push, h]
  simp [Session.readings]

end Session

namespace BusM

/-- A run that ends has read the clock at most `limit` times, if it is a clock like `clock` and that one moves. -/
structure Spends (clock : Clock) (limit : Nat) (program : BusM δ α) : Prop where
  run : ∀ {s t a}, program s = .ok (a, t) → clock.SamePace s.clock →
    ∃ n, s.Reads t n ∧ (clock.Moving → n ≤ limit)

variable {clock : Clock} {limit limit' : Nat}

theorem spends_pure (a : α) : Spends clock 0 (pure a : BusM δ α) :=
  ⟨fun {s _ _} h _ => by cases h; exact ⟨0, .refl s, fun _ => Nat.le_refl 0⟩⟩

theorem spends_throw (fault : Fault) : Spends clock 0 (throw fault : BusM δ α) := ⟨nofun⟩

theorem Spends.bind {program : BusM δ α} {next : α → BusM δ β} (h : Spends clock limit program)
    (hn : ∀ a, Spends clock limit' (next a)) : Spends clock (limit + limit') (program >>= next) := by
  refine ⟨fun hrun hp => ?_⟩
  obtain ⟨a, u, hfirst, hrest⟩ := Program.bind_eq_ok.mp hrun
  obtain ⟨m, hm, hmle⟩ := h.run hfirst hp
  obtain ⟨n, hn, hnle⟩ := (hn a).run hrest (hm.samePace hp)
  exact ⟨m + n, hm.trans hn, fun moving => Nat.add_le_add (hmle moving) (hnle moving)⟩

theorem Spends.mono {program : BusM δ α} (h : Spends clock limit program) (hle : limit ≤ limit') :
    Spends clock limit' program := by
  refine ⟨fun hrun hp => ?_⟩
  obtain ⟨n, hn, hnle⟩ := h.run hrun hp
  exact ⟨n, hn, fun moving => (hnle moving).trans hle⟩

variable {s t : Session δ}

/-- A program that reads no clock. -/
theorem spends_of_reads {program : BusM δ α} (h : ∀ {s t a}, program s = .ok (a, t) → s.Reads t 0) :
    Spends clock 0 program :=
  ⟨fun hrun _ => ⟨0, h hrun, fun _ => Nat.le_refl 0⟩⟩

theorem log_reads {level : Log.Level} {text : String} (h : log level text s = .ok ((), t)) : s.Reads t 0 := by
  cases h
  exact .pushed rfl

theorem spends_log (level : Log.Level) (text : String) : Spends clock 0 (log level text : BusM δ Unit) :=
  spends_of_reads log_reads

/-! ## Deadlines -/

theorem readClock_reads {now : UInt32} (h : readClock s = .ok (now, t)) : now = s.clock.now ∧ s.Reads t 1 := by
  cases h
  refine ⟨rfl, Clock.snd_reading _, ?_⟩
  rw [Session.readings_push]
  simp [Session.readings, Event.reading?]

theorem deadlineMs_reads {ms : UInt32} {deadline : Deadline} (h : deadlineMs ms s = .ok (deadline, t)) :
    deadline = ⟨s.clock.now + Deadline.duration (s.clock.rate.ticks ms)⟩ ∧ s.Reads t 1 := by
  have h : BusM.deadline (s.clock.rate.ticks ms) s = .ok (deadline, t) := h
  rw [BusM.deadline, Deadline.tooLong_ticks] at h
  obtain ⟨now, u, hread, h⟩ := Program.bind_eq_ok.mp h
  obtain ⟨rfl, hreads⟩ := readClock_reads hread
  cases h
  exact ⟨rfl, hreads⟩

theorem expired_reads {deadline : Deadline} {passed : Bool} (h : expired deadline s = .ok (passed, t)) :
    passed = deadline.passedAt s.clock.now ∧ s.Reads t 1 := by
  obtain ⟨now, u, hread, h⟩ := Program.bind_eq_ok.mp h
  obtain ⟨rfl, hreads⟩ := readClock_reads hread
  cases h
  exact ⟨rfl, hreads⟩

/-- Readings that stop with the first one that shows the deadline to have passed. -/
def Prompt (deadline : Deadline) (clock : Clock) (readings : Nat) : Prop :=
  ∀ k, deadline.passedAt (clock.after k).now = true → readings ≤ k + 1

/-- A reading that does not show it is followed by the others. -/
theorem Prompt.succ {deadline : Deadline} {clock : Clock} {readings : Nat} (h : Prompt deadline (clock.after 1) readings)
    (hnot : deadline.passedAt clock.now = false) : Prompt deadline clock (1 + readings) := by
  intro k hk
  cases k with
  | zero =>
      rw [Clock.after_zero, hnot] at hk
      cases hk
  | succ k =>
      have hlater := h k (by rw [Clock.after_after, Nat.add_comm, hk])
      omega

theorem spin_reads {deadline : Deadline} {readings : Nat} (h : spin deadline readings s = .ok ((), t)) :
    ∃ n, s.Reads t n ∧ Prompt deadline s.clock n := by
  induction readings generalizing s with
  | zero => cases h
  | succ readings ih =>
      obtain ⟨passed, u, hexpired, h⟩ := Program.bind_eq_ok.mp h
      obtain ⟨hpassed, hreads⟩ := expired_reads hexpired
      cases passed with
      | true =>
          cases h
          exact ⟨1, hreads, fun k _ => Nat.le_add_left 1 k⟩
      | false =>
          obtain ⟨n, hrest, hprompt⟩ := ih h
          exact ⟨1 + n, hreads.trans hrest, (hreads.clock ▸ hprompt).succ hpassed.symm⟩

theorem spends_delayMs (ms : UInt32) : Spends clock (clock.waitLimit ms) (delayMs ms : BusM δ Unit) := by
  refine ⟨fun {s t _} h hp => ?_⟩
  obtain ⟨deadline, u, hdeadline, h⟩ := Program.bind_eq_ok.mp h
  obtain ⟨rfl, hreads⟩ := deadlineMs_reads hdeadline
  obtain ⟨n, hspin, hprompt⟩ := spin_reads h
  refine ⟨1 + n, hreads.trans hspin, fun hm => ?_⟩
  obtain ⟨k, hlimit, hpassed⟩ := hp.passes hm ms
  have hn := hprompt k (hreads.clock ▸ hpassed)
  omega

variable [Bank δ]

/-! ## Accesses -/

theorem read_reads {reg : Register} {value : UInt8} (h : read reg s = .ok (value, t)) : s.Reads t 0 := by
  cases h
  exact .pushed rfl

theorem spends_write (reg : Register) (value : UInt8) : Spends clock 0 (write reg value : BusM δ Unit) := by
  refine spends_of_reads fun h => ?_
  cases h
  exact .pushed rfl

theorem spends_readData : Spends clock 0 (readData : BusM δ UInt16) := by
  refine spends_of_reads fun h => ?_
  cases h
  exact .pushed rfl

theorem spends_writeData (word : UInt16) : Spends clock 0 (writeData word : BusM δ Unit) := by
  refine spends_of_reads fun h => ?_
  cases h
  exact .pushed rfl

/-! ## Waits -/

theorem poll_reads {bits : UInt8} {deadline : Deadline} {samples : Nat} {answer : Except AtaError UInt8}
    (h : poll bits deadline samples s = .ok (answer, t)) :
    ∃ n, s.Reads t n ∧ Prompt deadline s.clock n := by
  induction samples generalizing s with
  | zero => cases h
  | succ samples ih =>
      cases polled_of_run h with
      | conclusive sample => exact ⟨0, read_reads sample, fun k _ => Nat.zero_le _⟩
      | late sample _ look warned =>
          have hreads := (read_reads sample).trans ((expired_reads look).2.trans (log_reads warned))
          exact ⟨_, hreads, fun k _ => Nat.le_add_left 1 k⟩
      | @early _ u _ _ sample _ look rest =>
          have hreads := read_reads sample
          obtain ⟨hpassed, hlook⟩ := expired_reads look
          obtain ⟨n, hrest, hprompt⟩ := ih rest
          have hu : u.clock = s.clock := by rw [hreads.clock, Clock.after_zero]
          rw [hu] at hpassed
          rw [hlook.clock, hu] at hprompt
          refine ⟨0 + (1 + n), hreads.trans (hlook.trans hrest), ?_⟩
          rw [Nat.zero_add]
          exact hprompt.succ hpassed.symm

theorem spends_awaitStatus (bits : UInt8) (timeoutMs : UInt32) :
    Spends clock (clock.waitLimit timeoutMs) (awaitStatus bits timeoutMs : BusM δ _) := by
  refine ⟨fun {s t _} h hp => ?_⟩
  obtain ⟨settle, u, hread, h⟩ := Program.bind_eq_ok.mp h
  obtain ⟨deadline, v, hdeadline, h⟩ := Program.bind_eq_ok.mp h
  obtain ⟨rfl, hreads⟩ := deadlineMs_reads hdeadline
  obtain ⟨n, hpoll, hprompt⟩ := poll_reads h
  have hu := read_reads hread
  refine ⟨0 + 1 + n, (hu.trans hreads).trans hpoll, fun hm => ?_⟩
  obtain ⟨k, hlimit, hpassed⟩ := (hu.samePace hp).passes hm timeoutMs
  have hn := hprompt k (hreads.clock ▸ hpassed)
  omega

/-! ## Transfers -/

variable {timeoutMs : UInt32}

theorem spends_readWords (n : Nat) : Spends clock 0 (readWords n : BusM δ _) := by
  induction n with
  | zero => exact spends_pure _
  | succ n ih => exact ih.bind fun _ => spends_readData.bind fun _ => spends_pure _

theorem spends_writeWords (words : List UInt16) : Spends clock 0 (writeWords words : BusM δ _) := by
  induction words with
  | nil => exact spends_pure _
  | cons word words ih => exact (spends_writeData word).bind fun _ => ih

theorem spends_readSector : Spends clock 0 (readSector : BusM δ _) :=
  (spends_readWords 256).bind fun _ => spends_pure _

theorem spends_moveSector (offset : Nat) (payload : Payload) :
    Spends clock 0 (moveSector offset payload : BusM δ _) := by
  cases payload with
  | read buffer =>
      have hfill : Spends clock 0 (fillSector buffer offset : BusM δ _) := by
        unfold fillSector
        split
        · exact spends_readSector.bind fun _ => spends_pure _
        · exact spends_throw _
      exact hfill.bind fun _ => spends_pure _
  | write buffer =>
      have hsend : Spends clock 0 (sendSector buffer offset : BusM δ _) := by
        unfold sendSector
        cases buffer.sector? offset with
        | some sector => exact spends_writeWords _
        | none => exact spends_throw _
      exact hsend.bind fun _ => spends_pure _

/-- One wait for each sector. -/
theorem spends_moveSectors (count offset : Nat) (payload : Payload) :
    Spends clock (count * clock.waitLimit timeoutMs) (moveSectors timeoutMs count offset payload : BusM δ _) := by
  induction count generalizing offset payload with
  | zero => exact (spends_pure _).mono (Nat.zero_le _)
  | succ count ih =>
      rw [Nat.succ_mul, Nat.add_comm]
      refine (spends_awaitStatus _ _).bind fun answer => ?_
      cases answer with
      | error error => exact (spends_pure _).mono (Nat.zero_le _)
      | ok status => exact ((spends_moveSector offset payload).bind fun _ => ih _ _).mono (Nat.zero_add _).le

theorem spends_selectSectors (slot : DriveSlot) (chunk : Chunk) :
    Spends clock 0 (selectSectors slot chunk : BusM δ _) :=
  (spends_write ..).bind fun _ => (spends_write ..).bind fun _ => (spends_write ..).bind fun _ =>
    (spends_write ..).bind fun _ => spends_write ..

/-- One wait for each sector, and one for each command. -/
theorem spends_moveChunks (slot : DriveSlot) (list : List Chunk) (offset : Nat) (payload : Payload) :
    Spends clock ((sectorTotal list + list.length) * clock.waitLimit timeoutMs)
      (moveChunks slot timeoutMs list offset payload : BusM δ _) := by
  induction list generalizing offset payload with
  | nil => exact (spends_pure _).mono (Nat.zero_le _)
  | cons chunk list ih =>
      have hlimit : (sectorTotal (chunk :: list) + (chunk :: list).length) * clock.waitLimit timeoutMs =
          0 + (clock.waitLimit timeoutMs + (0 + (chunk.sectors.toNat * clock.waitLimit timeoutMs +
            (sectorTotal list + list.length) * clock.waitLimit timeoutMs))) := by
        simp only [sectorTotal_cons, List.length_cons, Nat.add_mul, Nat.one_mul]
        omega
      rw [hlimit]
      refine (spends_selectSectors slot chunk).bind fun _ => (spends_awaitStatus _ _).bind fun answer => ?_
      cases answer with
      | error error => exact (spends_pure _).mono (Nat.zero_le _)
      | ok status =>
          refine (spends_write ..).bind fun _ => (spends_moveSectors ..).bind fun moved => ?_
          obtain ⟨result, payload'⟩ := moved
          cases result with
          | error error => exact (spends_pure _).mono (Nat.zero_le _)
          | ok _ => exact ih _ _

/-! ## Controllers -/

theorem spends_reset (base : UInt16) (settings : Settings) :
    Spends clock (clock.waitLimit settings.resetHoldMs + clock.waitLimit settings.resetSettleMs)
      (reset base settings : BusM δ Unit) := by
  have hlimit : clock.waitLimit settings.resetHoldMs + clock.waitLimit settings.resetSettleMs =
      0 + (0 + (0 + (clock.waitLimit settings.resetHoldMs + (0 + clock.waitLimit settings.resetSettleMs)))) := by
    omega
  rw [hlimit]
  exact (spends_log ..).bind fun _ => (spends_write ..).bind fun _ => (spends_write ..).bind fun _ =>
    (spends_delayMs _).bind fun _ => (spends_write ..).bind fun _ => spends_delayMs _

theorem spends_identify (slot : DriveSlot) :
    Spends clock (2 * clock.waitLimit timeoutMs) (identify slot timeoutMs : BusM δ _) := by
  have hlimit : 2 * clock.waitLimit timeoutMs =
      0 + (clock.waitLimit timeoutMs + (0 + (clock.waitLimit timeoutMs + (0 + 0)))) := by
    omega
  rw [hlimit]
  refine (spends_write ..).bind fun _ => (spends_awaitStatus _ _).bind fun ready => ?_
  cases ready with
  | error error => exact (spends_pure _).mono (Nat.zero_le _)
  | ok status =>
      refine (spends_write ..).bind fun _ => (spends_awaitStatus _ _).bind fun data => ?_
      cases data with
      | error error => exact (spends_pure _).mono (Nat.zero_le _)
      | ok status =>
          refine spends_readSector.bind fun bytes => ?_
          show Spends clock 0 (if Identify.Page.supportsLba ⟨bytes⟩ then _ else _)
          split
          · exact spends_pure _
          · exact spends_pure _

end BusM

end PolledAta
