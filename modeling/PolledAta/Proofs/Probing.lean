import PolledAta.Proofs.Endings
import PolledAta.Proofs.ExactDiscovery
import PolledAta.Proofs.Placement

/-!
# What a slot is found to be

The two waits of an identification and the page decide its answer, whatever the device does. A probe does on the bus
what an identification does, and answers the same as long as there is no drive to be registered.
-/

namespace PolledAta

open Emulator

variable {δ : Type}

/-! ## The accesses of an identification -/

/-- What is written to the registers. -/
def writes (trace : List Cycle) : List (Register × UInt8) :=
  trace.filterMap fun
    | .write reg value => some (reg, value)
    | _ => none

theorem writes_append (first second : List Cycle) : writes (first ++ second) = writes first ++ writes second :=
  List.filterMap_append

theorem Unwritten.writes_eq {trace : List Cycle} (h : Unwritten trace) : writes trace = [] := by
  apply List.filterMap_eq_nil_iff.mpr
  intro cycle hc
  cases cycle with
  | write reg value => exact absurd hc (h reg value)
  | _ => rfl

theorem wordsRead_append (first second : List Cycle) :
    wordsRead (first ++ second) = wordsRead first ++ wordsRead second :=
  Payload.words_append (.read #[]) first second

theorem Waited.wordsRead_eq {bits : UInt8} {trace : List Cycle} {answer : Except AtaError UInt8}
    (h : Waited bits trace answer) : wordsRead trace = [] := h.dataless (.read #[])

variable {slot : DriveSlot} {trace : List Cycle} {answer : Except AtaError Identify.Page}

/-- The page is made of the words that were read, and tells whether the drive can be addressed by sector number. -/
def Told (words : List UInt16) (answer : Except AtaError Identify.Page) : Prop :=
  words.length = 256 ∧ ∃ page : Identify.Page, page.bytes.toList = wordBytes words ∧
    answer = if (page.bytes.get 99).toNat.testBit 1 then .ok page else .error .unsupported

/-- An identification begins with the choice of the slot. It gives at most one command, and reads the whole page or
nothing. -/
theorem Identified.accesses (h : Identified slot trace answer) :
    answer = .error .noDevice ∧ writes trace = [(.device, slot.selectBase)] ∧ wordsRead trace = [] ∨
    writes trace = [(.device, slot.selectBase), (.command, Command.identify)] ∧
      (answer = .error .notResponding ∧ wordsRead trace = [] ∨ Told (wordsRead trace) answer) := by
  cases h with
  | missing wait =>
      refine .inl ⟨rfl, ?_, ?_⟩
      · rw [writes_append, wait.unwritten.writes_eq]
        rfl
      · rw [wordsRead_append, wait.wordsRead_eq]
        rfl
  | silent ready wait =>
      refine .inr ⟨?_, .inl ⟨rfl, ?_⟩⟩
      · simp only [writes_append, ready.unwritten.writes_eq, wait.unwritten.writes_eq]
        rfl
      · simp only [wordsRead_append, ready.wordsRead_eq, wait.wordsRead_eq]
        rfl
  | @answered before after _ _ ready wait driven page taken =>
      have hwords : wordsRead ([.write .device slot.selectBase] ++ before ++ [.write .command Command.identify] ++
          after ++ driven.toList.map .readData) = (driven.map dataLines).toList := by
        simp only [wordsRead_append, ready.wordsRead_eq, wait.wordsRead_eq, wordsRead_readData, Vector.toList_map]
        rfl
      refine .inr ⟨?_, .inr ⟨?_, page, ?_, ?_⟩⟩
      · simp only [writes_append, ready.unwritten.writes_eq, wait.unwritten.writes_eq,
          (unwritten_readData driven.toList).writes_eq]
        rfl
      · rw [hwords, Vector.length_toList]
      · rw [hwords, taken, Sector.toList_ofWords]
      · rw [Identify.Page.supportsLba_eq]

theorem Identified.head?_eq (h : Identified slot trace answer) :
    trace.head? = some (.write .device slot.selectBase) := by
  cases h <;> rfl

/-! ## What the waits decide -/

section

variable [Bank δ]

/-- An identification that has seen the cycles of `trace` and given this answer. Its first wait decides whether there is
a device, its second one whether the device responds, and otherwise the page tells. -/
structure Classified (slot : DriveSlot) (timeoutMs : UInt32) (s t : Session δ) (trace : List Cycle)
    (answer : Except AtaError Identify.Page) : Prop where
  cycles : t.cycles = s.cycles ++ trace
  script : Identified slot trace answer
  first : trace.head? = some (.write .device (match slot with | .master => 0xe0 | .slave => 0xf0))
  accesses : answer = .error .noDevice ∧ writes trace = [(.device, slot.selectBase)] ∧ wordsRead trace = [] ∨
    writes trace = [(.device, slot.selectBase), (.command, Command.identify)] ∧
      (answer = .error .notResponding ∧ wordsRead trace = [] ∨ Told (wordsRead trace) answer)
  missing : answer = .error .noDevice ↔ ∃ error u,
    BusM.awaitStatus Status.ready timeoutMs (s.wrote .device slot.selectBase) = .ok (.error error, u)
  silent : answer = .error .notResponding ↔ ∃ status u error v,
    BusM.awaitStatus Status.ready timeoutMs (s.wrote .device slot.selectBase) = .ok (.ok status, u) ∧
      BusM.awaitStatus Status.dataRequest timeoutMs (u.wrote .command Command.identify) = .ok (.error error, v)

variable {timeoutMs : UInt32} {s t : Session δ}

theorem BusM.Identifies.classified (h : Identifies slot timeoutMs s answer t) :
    ∃ trace, Classified slot timeoutMs s t trace answer := by
  obtain ⟨trace, hscript, hruns⟩ := identify_eq_ok h.run
  refine ⟨trace, hruns.cycles, hscript, ?first, hscript.accesses, ?missing, ?silent⟩
  case first =>
    rw [hscript.head?_eq]
    cases slot <;> rfl
  case missing =>
    cases h with
    | unready ready => simp [ready]
    | silent ready => simp [ready]
    | answered ready => split <;> simp [ready]
  case silent =>
    cases h with
    | unready ready => simp [ready]
    | silent ready data => simp [ready, data]
    | answered ready data => split <;> simp [ready, data]

/-! ## What a probe adds -/

variable {ide : Ide δ} {index : Nat} {controller : Controller δ} {session : Session δ}

/-- A probe does no more on the bus than the identification. It answers with the error, or with what comes of the
registration, for which a label must be left. -/
theorem IdeM.probe_of_identified (found : ide.controllers[index]? = some controller)
    (identified : BusM.identify slot ide.settings.commandTimeoutMs (ide.opened controller) = .ok (answer, session))
    (labelled : (∃ page, answer = .ok page) → ide.table.isFull = false → ide.table.count % 256 < 208) :
    ∃ result ide', probe index slot ide = .ok (result, ide') ∧
      (∀ other, ide'.cycles other = ide.cycles other ++ if other = index then session.cycles else []) ∧
      (∀ error, answer = .error error → result = .error error) ∧
      ∀ page, answer = .ok page → result = if ide.table.isFull then .error .tableFull else .ok ide.table.count := by
  have hcycles (other : Nat) := Ide.cycles_worked ide controller session index other
  cases answer with
  | error error =>
      refine ⟨_, _, probe_of_error found identified, ?_, ?_, nofun⟩
      · intro other
        rw [Ide.cycles_noted, hcycles]
      · rintro _ ⟨⟩
        rfl
  | ok page =>
      cases hfull : ide.table.isFull with
      | true =>
          refine ⟨_, _, probe_of_full found identified hfull, ?_, nofun, fun _ _ => rfl⟩
          intro other
          rw [Ide.cycles_noted, reported, Ide.cycles_noted, hcycles]
      | false =>
          obtain ⟨label, hlabel⟩ := Label.exists_ofIndex (labelled ⟨page, rfl⟩ hfull)
          refine ⟨_, _, probe_of_labelled found identified hfull hlabel, ?_, nofun, fun _ _ => rfl⟩
          intro other
          rw [Ide.cycles_enlisted, reported, Ide.cycles_noted, hcycles]

theorem Identified.ne_tableFull (h : Identified slot trace answer) : answer ≠ .error .tableFull := by
  cases h with
  | missing => nofun
  | silent => nofun
  | answered => split <;> nofun

end

/-- An identification begins with the choice of the slot. If the wait for ready fails, whatever for, there is no device
and no command is given. Otherwise there is one command, to identify. If the wait for data fails, whatever for, the
device does not respond and no word is read. Otherwise the 256 words that are read are the page, and the bit of the page
for LBA addressing decides. A probe makes the same accesses and no other. It answers with the same error, or else that
the table is full if it is, or with the index of the new disk if a label is left for it. -/
theorem every_device_is_classified [Bank δ] (slot : DriveSlot) :
    (∀ (timeoutMs : UInt32) (s : Session δ), s.clock.Moving →
      ∃ answer t trace, BusM.identify slot timeoutMs s = .ok (answer, t) ∧ Classified slot timeoutMs s t trace answer) ∧
    ∀ (ide : Ide δ) (index : Nat) (controller : Controller δ), ide.clock.Moving →
      ide.controllers[index]? = some controller → ∃ answer session trace,
        BusM.identify slot ide.settings.commandTimeoutMs (ide.opened controller) = .ok (answer, session) ∧
        Classified slot ide.settings.commandTimeoutMs (ide.opened controller) session trace answer ∧
        (((∃ page, answer = .ok page) → ide.table.isFull = false → ide.table.count % 256 < 208) →
          ∃ result ide', IdeM.probe index slot ide = .ok (result, ide') ∧
            (∀ other, ide'.cycles other = ide.cycles other ++ if other = index then trace else []) ∧
            (∀ error, answer = .error error → result = .error error) ∧
            (result = .error .tableFull ↔ (∃ page, answer = .ok page) ∧ ide.table.isFull = true) ∧
            ((∃ page, answer = .ok page) → ide.table.isFull = false → result = .ok ide.table.count)) := by
  constructor
  · intro timeoutMs s moving
    obtain ⟨answer, t, h⟩ := BusM.exists_identifies s slot timeoutMs moving
    obtain ⟨trace, hclassified⟩ := h.classified
    exact ⟨answer, t, trace, h.run, hclassified⟩
  intro ide index controller moving found
  obtain ⟨answer, session, h⟩ :=
    BusM.exists_identifies (ide.opened controller) slot ide.settings.commandTimeoutMs moving
  obtain ⟨trace, hclassified⟩ := h.classified
  have hrun := h.run
  have htrace : session.cycles = trace := hclassified.cycles
  refine ⟨answer, session, trace, hrun, hclassified, fun labelled => ?_⟩
  obtain ⟨result, ide', hprobe, hcycles, hrefused, hregistered⟩ := IdeM.probe_of_identified found hrun labelled
  rw [htrace] at hcycles
  refine ⟨result, ide', hprobe, hcycles, hrefused, ?_, ?_⟩
  · cases answer with
    | error error =>
        rw [hrefused error rfl]
        simpa using hclassified.script.ne_tableFull
    | ok page =>
        rw [hregistered page rfl]
        cases ide.table.isFull <;> simp
  · rintro ⟨page, hpage⟩ hroom
    rw [hregistered page hpage, hroom]
    rfl

/-! ## A drive that shows itself -/

namespace Ide

/-- A drive with LBA addressing, on a channel without faults where no refusal is shown. -/
structure Offers (ide : Ide Channel) (index : Nat) (slot : DriveSlot) (drive : Drive) (controller : Controller Channel) :
    Prop where
  found : ide.controllers[index]? = some controller
  healthy : controller.device.faults = .none
  unrefused : controller.device.phase ≠ .failed
  present : controller.device.drive slot = some drive
  lba : drive.page.supportsLba = true

variable {ide : Ide Channel} {index : Nat} {slot : DriveSlot} {drive : Drive} {controller : Controller Channel}

/-- Such a drive is identified, and shows itself as before. -/
theorem Offers.identified (h : ide.Offers index slot drive controller) :
    ∃ session, BusM.identify slot ide.settings.commandTimeoutMs (ide.opened controller) =
        .ok (.ok drive.page, session) ∧ session.device.phase = .idle ∧
      (ide.worked index controller session).Offers index slot drive { controller with device := session.device } := by
  obtain ⟨session, hrun, hdevice⟩ := (Channel.leads_identify_of_present ide.settings.commandTimeoutMs h.healthy
    h.unrefused h.present).run (ide.opened controller) rfl
  rw [if_pos h.lba] at hrun
  have hfound := worked_controllers_self ide controller session h.found
  refine ⟨session, hrun, ?_, hfound, ?_, ?_, ?_, h.lba⟩
  · rw [hdevice]
    rfl
  · rw [hdevice]
    exact h.healthy
  · rw [hdevice]
    nofun
  · rw [hdevice]
    cases slot <;> exact h.present

/-- It is registered if there is room for it and a label is left. -/
theorem Offers.probed (h : ide.Offers index slot drive controller) (room : ide.table.isFull = false)
    (labelled : ide.table.count % 256 < 208) :
    ∃ ide' after, IdeM.probe index slot ide = .ok (.ok ide.table.count, ide') ∧
      ide'.table = ide.table.added ⟨ide.table.count, index, slot, .ofPage drive.page, .uninitialized⟩ ∧
      after.device.phase = .idle ∧ ide'.Offers index slot drive after := by
  obtain ⟨session, hrun, hidle, hafter⟩ := h.identified
  obtain ⟨label, hlabel⟩ := Label.exists_ofIndex labelled
  exact ⟨_, _, IdeM.probe_of_labelled h.found hrun room hlabel, rfl, hidle, hafter.found, hafter.healthy,
    hafter.unrefused, hafter.present, hafter.lba⟩

/-- Probed again and again, it is registered each time. -/
theorem Offers.probed_repeatedly (count : Nat) (h : ide.Offers index slot drive controller)
    (room : ide.table.count + count ≤ ide.table.capacity) (labelled : ide.table.count + count ≤ 208) :
    ∃ answers ide' after, history (List.replicate count (.probe index slot)) ide = .ok (answers, ide') ∧
      ide'.table.count = ide.table.count + count ∧ ide'.table.capacity = ide.table.capacity ∧
      ide'.Offers index slot drive after := by
  induction count generalizing ide controller with
  | zero => exact ⟨[], ide, controller, rfl, rfl, rfl, h⟩
  | succ count ih =>
      have hroom : ide.table.isFull = false := DiskTable.isFull_eq_false_iff.mpr (by omega)
      obtain ⟨between, after, hprobe, htable, _, hbetween⟩ := h.probed hroom (by omega)
      have hcount : between.table.count = ide.table.count + 1 := by rw [htable, DiskTable.count_added]
      have hcapacity : between.table.capacity = ide.table.capacity := by rw [htable]; rfl
      obtain ⟨answers, ide', last, hrest, hcount', hcapacity', hlast⟩ := ih hbetween (by omega) (by omega)
      refine ⟨.found (.ok ide.table.count) :: answers, ide', last, ?_, by omega, hcapacity'.trans hcapacity, hlast⟩
      have hstep : Step.perform (.probe index slot) ide = .ok (.found (.ok ide.table.count), between) :=
        Program.bind_of_ok hprobe
      rw [List.replicate_succ, history, Program.bind_of_ok hstep, Program.bind_of_ok hrest]
      rfl

/-- The channel of the sample driver. -/
def sampleController : Controller Channel := ⟨0x1f0, .idle (some sampleDrive) none .none⟩

/-- A driver with that channel and so much room for disks. -/
def sampleRoomy (maxDisks : Nat) : Ide Channel := .fresh #[sampleController] maxDisks ⟨.hz200, 0, 1⟩ .standard

theorem offers_sampleRoomy (maxDisks : Nat) :
    (sampleRoomy maxDisks).Offers 0 .master sampleDrive sampleController :=
  ⟨rfl, rfl, nofun, rfl, by decide⟩

end Ide

/-- After 208 disks there is no label for the next one, and its probe does not answer although there is room. -/
theorem unlabelled_disk_not_answered : ∃ answers ide controller page session,
    history (List.replicate 208 (.probe 0 .master)) (Ide.sampleRoomy 209) = .ok (answers, ide) ∧
    ide.clock.Moving ∧ ide.controllers[0]? = some controller ∧ ide.table.count = 208 ∧ ide.table.isFull = false ∧
    BusM.identify .master ide.settings.commandTimeoutMs (ide.opened controller) = .ok (.ok page, session) ∧
    IdeM.probe 0 .master ide = .error .overflow := by
  obtain ⟨answers, ide, controller, run, hcount, hcapacity, hoffers⟩ :=
    Ide.Offers.probed_repeatedly 208 (Ide.offers_sampleRoomy 209) (by decide) (by decide)
  have hcount : ide.table.count = 208 := hcount
  have hcapacity : ide.table.capacity = 209 := hcapacity
  have hroom : ide.table.isFull = false := DiskTable.isFull_eq_false_iff.mpr (by omega)
  obtain ⟨session, identified, _⟩ := hoffers.identified
  have hlabel : Label.ofIndex ide.table.count = .error .overflow := Label.ofIndex_eq_error (by omega)
  refine ⟨answers, ide, controller, _, session, run, ?_, hoffers.found, hcount, hroom, identified, ?_⟩
  · exact (Ide.kept_history run).moving ⟨by decide, by decide⟩
  · exact IdeM.probe_of_unlabelled hoffers.found identified hroom hlabel

/-- A drive with LBA addressing is asked once, and gets an index. -/
theorem sample_device_classified : ∃ session trace ide', (Ide.sampleRoomy 1).clock.Moving ∧
    (Ide.sampleRoomy 1).controllers[0]? = some Ide.sampleController ∧
    BusM.identify .master 3000 ((Ide.sampleRoomy 1).opened Ide.sampleController) =
      .ok (.ok Ide.sampleDrive.page, session) ∧
    writes trace = [(.device, 0xe0), (.command, 0xec)] ∧ (wordsRead trace).length = 256 ∧
    IdeM.probe 0 .master (Ide.sampleRoomy 1) = .ok (.ok 0, ide') ∧ ide'.cycles 0 = trace := by
  have moving : (Ide.sampleRoomy 1).clock.Moving := ⟨by decide, by decide⟩
  obtain ⟨_, hprobes⟩ := @every_device_is_classified Channel _ .master
  obtain ⟨answer, session, trace, hrun, hclassified, hprobe⟩ :=
    hprobes (Ide.sampleRoomy 1) 0 Ide.sampleController moving rfl
  obtain ⟨_, hidentified, _⟩ := (Ide.offers_sampleRoomy 1).identified
  obtain ⟨rfl, rfl⟩ := Prod.mk.inj (Except.ok.inj (hidentified.symm.trans hrun))
  obtain ⟨result, ide', hprobe, hcycles, _, _, hindex⟩ := hprobe fun _ _ => by decide
  obtain rfl := hindex ⟨_, rfl⟩ rfl
  rcases hclassified.accesses with ⟨habsurd, _⟩ | ⟨hwrites, ⟨habsurd, _⟩ | ⟨hlength, _⟩⟩
  · cases habsurd
  · cases habsurd
  · exact ⟨_, trace, ide', moving, rfl, hrun, hwrites, hlength, hprobe, hcycles 0⟩

end PolledAta
