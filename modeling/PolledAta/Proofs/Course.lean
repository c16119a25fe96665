import PolledAta.Controller
import PolledAta.Proofs.Lingering
import PolledAta.Proofs.Transfer

/-!
# Runs that end

The cycles of a run, one after the other, take the device from where it was to where it is afterwards. A run that ends
has followed its script, whatever the clock did meanwhile.
-/

namespace PolledAta

variable {δ : Type} [Bank δ]

/-! ## Cycles and devices -/

/-- A cycle takes the device from one state to the next, and what is read is what the device gives. -/
inductive Cycle.Takes : δ → Cycle → δ → Prop where
  | read {device after : δ} {reg : Register} {value : UInt8} (answers : Bank.read device reg = (value, after)) :
      Takes device (.read reg value) after
  | write (device : δ) (reg : Register) (value : UInt8) : Takes device (.write reg value) (Bank.write device reg value)
  | readData {device after : δ} {driven : Option UInt16} (answers : Bank.readData device = (driven, after)) :
      Takes device (.readData driven) after
  | writeData (device : δ) (word : UInt16) : Takes device (.writeData word) (Bank.writeData device word)

/-- The cycles of a trace take the device from the one state to the other. -/
inductive Course : δ → List Cycle → δ → Prop where
  | nil (device : δ) : Course device [] device
  | cons {device between after : δ} {cycle : Cycle} {trace : List Cycle} (first : cycle.Takes device between)
      (rest : Course between trace after) : Course device (cycle :: trace) after

namespace Course

variable {device between after : δ} {cycle : Cycle} {first second : List Cycle}

theorem cons_inv (h : Course device (cycle :: first) after) :
    ∃ between, cycle.Takes device between ∧ Course between first after := by
  cases h with
  | cons first rest => exact ⟨_, first, rest⟩

theorem append (h : Course device first between) (h' : Course between second after) :
    Course device (first ++ second) after := by
  induction h with
  | nil => exact h'
  | cons cycle _ ih => exact .cons cycle (ih h')

theorem append_inv (h : Course device (first ++ second) after) :
    ∃ between, Course device first between ∧ Course between second after := by
  induction first generalizing device with
  | nil => exact ⟨device, .nil device, h⟩
  | cons cycle first ih =>
      obtain ⟨next, hcycle, h⟩ := cons_inv h
      obtain ⟨between, hfirst, hsecond⟩ := ih h
      exact ⟨between, .cons hcycle hfirst, hsecond⟩

theorem nil_inv (h : Course device [] after) : after = device := by
  cases h
  rfl

theorem write_inv {reg : Register} {value : UInt8} (h : Course device (.write reg value :: first) after) :
    Course (Bank.write device reg value) first after := by
  obtain ⟨_, hcycle, h⟩ := cons_inv h
  cases hcycle
  exact h

end Course

namespace Session

variable {before between after : Session δ} {first second : List Cycle}

/-- The bus has seen the cycles of `trace`, and they have taken the device from the one state to the other. The clock
goes at the same pace as before. -/
structure Runs (before after : Session δ) (trace : List Cycle) : Prop where
  cycles : after.cycles = before.cycles ++ trace
  course : Course before.device trace after.device
  pace : after.clock.step = before.clock.step

theorem Runs.refl (session : Session δ) : session.Runs session [] :=
  ⟨(List.append_nil _).symm, .nil _, rfl⟩

theorem Runs.trans (h : before.Runs between first) (h' : between.Runs after second) :
    before.Runs after (first ++ second) :=
  ⟨by rw [h'.cycles, h.cycles, List.append_assoc], h.course.append h'.course, h'.pace.trans h.pace⟩

theorem Runs.moving (h : before.Runs after first) (hm : before.clock.Moving) : after.clock.Moving :=
  hm.of_step_eq h.pace

/-- A run without cycles leaves the device alone. -/
theorem Grows.runs {readings : Nat} (h : before.Grows after [] readings) (hd : after.device = before.device) :
    before.Runs after [] :=
  ⟨h.cycles, hd ▸ .nil _, by rw [h.clock]; rfl⟩

end Session

/-! ## Programs -/

namespace BusM

variable {s t : Session δ}

theorem read_eq_ok {reg : Register} {value : UInt8} (h : read reg s = .ok (value, t)) :
    s.Runs t [.read reg value] := by
  cases h
  exact ⟨Session.cycles_push .., .cons (.read rfl) (.nil _), rfl⟩

theorem write_eq_ok {reg : Register} {value : UInt8} (h : write reg value s = .ok ((), t)) :
    s.Runs t [.write reg value] := by
  cases h
  exact ⟨Session.cycles_push .., .cons (.write ..) (.nil _), rfl⟩

theorem readData_eq_ok {word : UInt16} (h : readData s = .ok (word, t)) :
    ∃ driven, word = dataLines driven ∧ s.Runs t [.readData driven] := by
  cases h
  exact ⟨_, rfl, Session.cycles_push .., .cons (.readData rfl) (.nil _), rfl⟩

theorem writeData_eq_ok {word : UInt16} (h : writeData word s = .ok ((), t)) : s.Runs t [.writeData word] := by
  cases h
  exact ⟨Session.cycles_push .., .cons (.writeData ..) (.nil _), rfl⟩

theorem log_eq_ok {level : Log.Level} {text : String} (h : log level text s = .ok ((), t)) : s.Runs t [] := by
  obtain ⟨u, hrun, hg, hd⟩ := log_run s level text
  cases h.symm.trans hrun
  exact hg.runs hd

theorem deadlineMs_eq_ok {ms : UInt32} {deadline : Deadline} (h : deadlineMs ms s = .ok (deadline, t)) :
    s.Runs t [] := by
  obtain ⟨u, hrun, hg, hd⟩ := deadline_run s (s.clock.rate.ticks ms)
  have hrun : deadlineMs ms s = .ok (_, u) := hrun
  cases h.symm.trans hrun
  exact hg.runs hd

theorem expired_eq_ok {deadline : Deadline} {passed : Bool} (h : expired deadline s = .ok (passed, t)) :
    s.Runs t [] := by
  obtain ⟨u, hrun, hg, hd⟩ := expired_run s deadline
  cases h.symm.trans hrun
  exact hg.runs hd

theorem poll_eq_ok {bits : UInt8} {deadline : Deadline} {samples : Nat} {answer : Except AtaError UInt8}
    (h : poll bits deadline samples s = .ok (answer, t)) :
    ∃ (pending : List UInt8) (last : UInt8), (∀ status ∈ pending, Status.judge status bits = .pending) ∧
      answer = (Status.judge last bits).outcome last ∧
      s.Runs t (pending.map (.read .status) ++ [.read .status last]) := by
  induction samples generalizing s with
  | zero => cases h
  | succ samples ih =>
      cases polled_of_run h with
      | @conclusive status sample => exact ⟨[], status, by simp, rfl, read_eq_ok sample⟩
      | @late status _ _ sample pending look warned =>
          refine ⟨[], status, by simp, by rw [pending]; rfl, ?_⟩
          exact ((read_eq_ok sample).trans (expired_eq_ok look)).trans (log_eq_ok warned)
      | @early status _ _ _ sample pending look rest =>
          obtain ⟨more, last, hmore, rfl, hrest⟩ := ih rest
          exact ⟨status :: more, last, List.forall_mem_cons.mpr ⟨pending, hmore⟩, rfl,
            ((read_eq_ok sample).trans (expired_eq_ok look)).trans hrest⟩

theorem awaitStatus_eq_ok {bits : UInt8} {timeoutMs : UInt32} {answer : Except AtaError UInt8}
    (h : awaitStatus bits timeoutMs s = .ok (answer, t)) : ∃ trace, Waited bits trace answer ∧ s.Runs t trace := by
  obtain ⟨settle, u, hread, h⟩ := Program.bind_eq_ok.mp h
  obtain ⟨deadline, v, hdeadline, h⟩ := Program.bind_eq_ok.mp h
  obtain ⟨pending, last, hpending, rfl, hpoll⟩ := poll_eq_ok h
  exact ⟨_, .intro settle pending last hpending, ((read_eq_ok hread).trans (deadlineMs_eq_ok hdeadline)).trans hpoll⟩

/-! ## Transfers -/

theorem readWords_eq_ok {n : Nat} {words : Vector UInt16 n} (h : readWords n s = .ok (words, t)) :
    ∃ driven : Vector (Option UInt16) n, words = driven.map dataLines ∧ s.Runs t (driven.toList.map .readData) := by
  induction n generalizing t with
  | zero =>
      cases h
      exact ⟨#v[], Vector.map_empty.symm, .refl _⟩
  | succ n ih =>
      obtain ⟨front, u, hfront, h⟩ := Program.bind_eq_ok.mp h
      obtain ⟨last, v, hlast, h⟩ := Program.bind_eq_ok.mp h
      cases h
      obtain ⟨driven, rfl, hruns⟩ := ih hfront
      obtain ⟨word, rfl, hword⟩ := readData_eq_ok hlast
      refine ⟨driven.push word, by rw [Vector.map_push], ?_⟩
      simpa [Vector.toList_push] using hruns.trans hword

theorem writeWords_eq_ok {words : List UInt16} (h : writeWords words s = .ok ((), t)) :
    s.Runs t (words.map .writeData) := by
  induction words generalizing s with
  | nil =>
      cases h
      exact .refl _
  | cons word words ih =>
      obtain ⟨_, u, hword, h⟩ := Program.bind_eq_ok.mp h
      exact (writeData_eq_ok hword).trans (ih h)

theorem readSector_eq_ok {sector : Sector} (h : readSector s = .ok (sector, t)) :
    ∃ driven : Vector (Option UInt16) 256, sector = .ofWords (driven.map dataLines) ∧
      s.Runs t (driven.toList.map .readData) := by
  unfold readSector at h
  obtain ⟨words, u, hwords, h⟩ := Program.bind_eq_ok.mp h
  obtain ⟨rfl, rfl⟩ := Prod.mk.inj (Except.ok.inj h)
  obtain ⟨driven, rfl, hruns⟩ := readWords_eq_ok hwords
  exact ⟨driven, rfl, hruns⟩

theorem moveSector_eq_ok {offset : Nat} {payload payload' : Payload}
    (h : moveSector offset payload s = .ok (payload', t)) :
    ∃ words, SectorMoved offset payload words payload' ∧ s.Runs t words := by
  cases payload with
  | read buffer =>
      obtain ⟨after, u, hfill, h⟩ := Program.bind_eq_ok.mp h
      cases h
      unfold fillSector at hfill
      split at hfill
      · rename_i hinside
        obtain ⟨sector, v, hread, hfill⟩ := Program.bind_eq_ok.mp hfill
        cases hfill
        obtain ⟨driven, rfl, hruns⟩ := readSector_eq_ok hread
        exact ⟨_, .filled driven hinside rfl, hruns⟩
      · cases hfill
  | write buffer =>
      obtain ⟨_, u, hsend, h⟩ := Program.bind_eq_ok.mp h
      cases h
      unfold sendSector at hsend
      cases hsector : buffer.sector? offset with
      | none =>
          rw [hsector] at hsend
          cases hsend
      | some sector =>
          rw [hsector] at hsend
          exact ⟨_, .sent sector hsector, writeWords_eq_ok hsend⟩

theorem moveSectors_eq_ok {timeoutMs : UInt32} {count offset : Nat} {payload payload' : Payload}
    {result : Except AtaError Unit} (h : moveSectors timeoutMs count offset payload s = .ok ((result, payload'), t)) :
    ∃ trace, SectorsMoved count offset payload trace result payload' ∧ s.Runs t trace := by
  induction count generalizing offset payload s with
  | zero =>
      cases h
      exact ⟨[], .finished .., .refl _⟩
  | succ count ih =>
      rw [moveSectors] at h
      obtain ⟨answer, u, hwait, h⟩ := Program.bind_eq_ok.mp h
      obtain ⟨trace, hwaited, hruns⟩ := awaitStatus_eq_ok hwait
      cases answer with
      | error error =>
          cases h
          exact ⟨trace, .cutOff hwaited, hruns⟩
      | ok status =>
          obtain ⟨payload₁, v, hmove, h⟩ := Program.bind_eq_ok.mp h
          obtain ⟨words, hmoved, hruns₁⟩ := moveSector_eq_ok hmove
          obtain ⟨rest, hrest, hruns₂⟩ := ih h
          exact ⟨_, .moved hwaited hmoved hrest, (hruns.trans hruns₁).trans hruns₂⟩

theorem selectSectors_eq_ok {slot : DriveSlot} {chunk : Chunk} (h : selectSectors slot chunk s = .ok ((), t)) :
    s.Runs t (selectCycles slot chunk) := by
  obtain ⟨_, _, h₁, h⟩ := Program.bind_eq_ok.mp h
  obtain ⟨_, _, h₂, h⟩ := Program.bind_eq_ok.mp h
  obtain ⟨_, _, h₃, h⟩ := Program.bind_eq_ok.mp h
  obtain ⟨_, _, h₄, h₅⟩ := Program.bind_eq_ok.mp h
  exact ((((write_eq_ok h₁).trans (write_eq_ok h₂)).trans (write_eq_ok h₃)).trans (write_eq_ok h₄)).trans
    (write_eq_ok h₅)

theorem moveChunks_eq_ok {slot : DriveSlot} {timeoutMs : UInt32} {chunks : List Chunk} {offset : Nat}
    {payload payload' : Payload} {result : Except AtaError Unit}
    (h : moveChunks slot timeoutMs chunks offset payload s = .ok ((result, payload'), t)) :
    ∃ trace, ChunksMoved slot chunks offset payload trace result payload' ∧ s.Runs t trace := by
  induction chunks generalizing offset payload s with
  | nil =>
      cases h
      exact ⟨[], .finished .., .refl _⟩
  | cons chunk chunks ih =>
      rw [moveChunks] at h
      obtain ⟨_, u, hselect, h⟩ := Program.bind_eq_ok.mp h
      obtain ⟨answer, v, hwait, h⟩ := Program.bind_eq_ok.mp h
      obtain ⟨trace, hwaited, hruns⟩ := awaitStatus_eq_ok hwait
      have hruns := (selectSectors_eq_ok hselect).trans hruns
      cases answer with
      | error error =>
          cases h
          exact ⟨_, .cutOff hwaited, hruns⟩
      | ok status =>
          obtain ⟨_, w, hcommand, h⟩ := Program.bind_eq_ok.mp h
          obtain ⟨⟨moved, payload₁⟩, x, hsectors, h⟩ := Program.bind_eq_ok.mp h
          obtain ⟨sectors, hmoved, hruns₁⟩ := moveSectors_eq_ok hsectors
          have hruns := (hruns.trans (write_eq_ok hcommand)).trans hruns₁
          cases moved with
          | error error =>
              cases h
              exact ⟨_, .cutOffInside hwaited hmoved, hruns⟩
          | ok _ =>
              obtain ⟨rest, hrest, hruns₂⟩ := ih h
              exact ⟨_, .moved hwaited hmoved hrest, hruns.trans hruns₂⟩

/-! ## Resetting and identifying -/

theorem spin_eq_ok {deadline : Deadline} {readings : Nat} (h : spin deadline readings s = .ok ((), t)) :
    s.Runs t [] := by
  induction readings generalizing s with
  | zero => cases h
  | succ readings ih =>
      rw [spin] at h
      obtain ⟨passed, u, hexpired, h⟩ := Program.bind_eq_ok.mp h
      have hruns := expired_eq_ok hexpired
      cases passed with
      | true =>
          cases h
          exact hruns
      | false => exact hruns.trans (ih h)

theorem delayMs_eq_ok {ms : UInt32} (h : delayMs ms s = .ok ((), t)) : s.Runs t [] := by
  obtain ⟨deadline, u, hdeadline, h⟩ := Program.bind_eq_ok.mp h
  exact (deadlineMs_eq_ok hdeadline).trans (spin_eq_ok h)

def resetCycles : List Cycle :=
  [.write .device DriveSlot.master.selectBase, .write .control (Control.softReset ||| Control.interruptsOff),
    .write .control Control.interruptsOff]

theorem reset_eq_ok {base : UInt16} {settings : Settings} (h : reset base settings s = .ok ((), t)) :
    s.Runs t resetCycles := by
  obtain ⟨_, _, h₁, h⟩ := Program.bind_eq_ok.mp h
  obtain ⟨_, _, h₂, h⟩ := Program.bind_eq_ok.mp h
  obtain ⟨_, _, h₃, h⟩ := Program.bind_eq_ok.mp h
  obtain ⟨_, _, h₄, h⟩ := Program.bind_eq_ok.mp h
  obtain ⟨_, _, h₅, h₆⟩ := Program.bind_eq_ok.mp h
  exact (((((log_eq_ok h₁).trans (write_eq_ok h₂)).trans (write_eq_ok h₃)).trans (delayMs_eq_ok h₄)).trans
    (write_eq_ok h₅)).trans (delayMs_eq_ok h₆)

theorem reset_ends (base : UInt16) (settings : Settings) (hm : s.clock.Moving) :
    ∃ t, reset base settings s = .ok ((), t) := by
  obtain ⟨s₁, h₁, _⟩ := log_run s .info ("IDE reset controller at 0x" ++ Text.hexNat base.toNat)
  obtain ⟨s₂, h₂, _⟩ := write_run s₁ .device DriveSlot.master.selectBase
  obtain ⟨s₃, h₃, _⟩ := write_run s₂ .control (Control.softReset ||| Control.interruptsOff)
  have hm₃ := (((log_eq_ok h₁).trans (write_eq_ok h₂)).trans (write_eq_ok h₃)).moving hm
  obtain ⟨s₄, h₄⟩ := delayMs_ends s₃ settings.resetHoldMs hm₃
  obtain ⟨s₅, h₅, _⟩ := write_run s₄ .control Control.interruptsOff
  obtain ⟨s₆, h₆⟩ := delayMs_ends s₅ settings.resetSettleMs (((delayMs_eq_ok h₄).trans (write_eq_ok h₅)).moving hm₃)
  refine ⟨s₆, ?_⟩
  rw [reset, Program.bind_of_ok h₁, Program.bind_of_ok h₂, Program.bind_of_ok h₃, Program.bind_of_ok h₄,
    Program.bind_of_ok h₅, h₆]

end BusM

/-- The cycles of identifying the drive in a slot, and the answer. -/
inductive Identified (slot : DriveSlot) : List Cycle → Except AtaError Identify.Page → Prop where
  | missing {trace : List Cycle} {error : AtaError} (wait : Waited Status.ready trace (.error error)) :
      Identified slot ([.write .device slot.selectBase] ++ trace) (.error .noDevice)
  | silent {trace after : List Cycle} {status : UInt8} {error : AtaError}
      (ready : Waited Status.ready trace (.ok status)) (wait : Waited Status.dataRequest after (.error error)) :
      Identified slot ([.write .device slot.selectBase] ++ trace ++ [.write .command Command.identify] ++ after)
        (.error .notResponding)
  | answered {trace after : List Cycle} {status status' : UInt8} (ready : Waited Status.ready trace (.ok status))
      (wait : Waited Status.dataRequest after (.ok status')) (driven : Vector (Option UInt16) 256)
      {page : Identify.Page} (taken : page.bytes = .ofWords (driven.map dataLines)) :
      Identified slot ([.write .device slot.selectBase] ++ trace ++ [.write .command Command.identify] ++ after ++
        driven.toList.map .readData) (if page.supportsLba then .ok page else .error .unsupported)

theorem BusM.identify_eq_ok {slot : DriveSlot} {timeoutMs : UInt32} {s t : Session δ}
    {answer : Except AtaError Identify.Page} (h : identify slot timeoutMs s = .ok (answer, t)) :
    ∃ trace, Identified slot trace answer ∧ s.Runs t trace := by
  unfold identify at h
  obtain ⟨_, _, hselect, h⟩ := Program.bind_eq_ok.mp h
  obtain ⟨ready, _, hready, h⟩ := Program.bind_eq_ok.mp h
  obtain ⟨trace, hwaited, hruns⟩ := awaitStatus_eq_ok hready
  have hruns := (write_eq_ok hselect).trans hruns
  cases ready with
  | error error =>
      cases h
      exact ⟨_, .missing hwaited, hruns⟩
  | ok status =>
      obtain ⟨_, _, hcommand, h⟩ := Program.bind_eq_ok.mp h
      obtain ⟨data, _, hdata, h⟩ := Program.bind_eq_ok.mp h
      obtain ⟨after, hwaited', hruns'⟩ := awaitStatus_eq_ok hdata
      have hruns := (hruns.trans (write_eq_ok hcommand)).trans hruns'
      cases data with
      | error error =>
          cases h
          exact ⟨_, .silent hwaited hwaited', hruns⟩
      | ok status' =>
          obtain ⟨bytes, u, hread, h⟩ := Program.bind_eq_ok.mp h
          obtain ⟨driven, hbytes, hpage⟩ := readSector_eq_ok hread
          have hruns := hruns.trans hpage
          have hanswered : Identified slot _ (if Identify.Page.supportsLba ⟨bytes⟩ then .ok ⟨bytes⟩ else
              .error .unsupported) := .answered hwaited hwaited' driven hbytes
          cases hlba : Identify.Page.supportsLba ⟨bytes⟩ with
          | true =>
              simp only [hlba, if_true] at h hanswered
              cases h
              exact ⟨_, hanswered, hruns⟩
          | false =>
              simp only [hlba] at h hanswered
              cases h
              exact ⟨_, hanswered, hruns⟩

end PolledAta
