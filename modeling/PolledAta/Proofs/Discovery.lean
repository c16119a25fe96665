import PolledAta.Proofs.Disks
import PolledAta.Proofs.Reached
import PolledAta.Proofs.Scripts

/-!
# Discovery on channels without faults

Starting the driver leaves the drives as they are and every channel at rest, and each disk of the table has its drive.
-/

namespace PolledAta

open Emulator

/-! ## Resetting a channel -/

namespace Emulator.Channel

open BusM

variable {channel : Channel} {slot : DriveSlot}

/-- A channel that is at rest after it was worked on, with its drives as before. -/
structure Rested (before after : Channel) : Prop where
  faults : after.faults = before.faults
  overrun : after.overrun = before.overrun
  phase : after.phase = .idle
  drives : ∀ slot, after.drive slot = before.drive slot

theorem reset_eq_ok {base : UInt16} {settings : Settings} {s t : Session Channel}
    (h : BusM.reset base settings s = .ok ((), t)) : s.device.Rested t.device := by
  have hcourse := (BusM.reset_eq_ok h).course.write_inv.write_inv.write_inv
  rw [hcourse.nil_inv]
  exact ⟨rfl, rfl, rfl, fun slot => by cases slot <;> rfl⟩

/-! ## Identifying a drive -/

theorem pageWords_eq (page : Identify.Page) : pageWords page = page.bytes.words.toList := by
  refine List.ext_getElem (by simp [pageWords]) fun i hi _ => ?_
  have hi : i < 256 := by simpa [pageWords] using hi
  rw [Vector.getElem_toList, Sector.getElem_words page.bytes hi]
  simp [pageWords]

theorem accept_identify (drive : Drive) (taskFile : TaskFile) :
    accept drive taskFile Command.identify = sendingPhase (drive.page.bytes.words.toList ++ []) := by
  rw [List.append_nil, sendingPhase_of_ne_nil drive.page.bytes.words_ne_nil, ← pageWords_eq, accept]
  exact if_pos rfl

def selecting (channel : Channel) (slot : DriveSlot) : Channel :=
  channel.writeRegister .device slot.selectBase

theorem selected_selecting (channel : Channel) (slot : DriveSlot) :
    (channel.selecting slot).selected = channel.drive slot := by
  have hslot : (channel.selecting slot).latch = slot := DriveSlot.ofDevice_selectBase slot
  rw [selected, hslot]
  cases slot <;> rfl

theorem rested_selecting (channel : Channel) (slot : DriveSlot) :
    channel.Rested ((channel.selecting slot).inPhase .idle) :=
  ⟨rfl, rfl, rfl, fun slot => by cases slot <;> rfl⟩

/-- Where the status tells of a failure, whatever it is, no device is found. -/
theorem leads_identify_of_unready (timeoutMs : UInt32) (hf : channel.faults = .none) {error : AtaError}
    (hj : Status.judge (channel.selecting slot).status Status.ready = .failed error) :
    (identify slot timeoutMs).Leads channel (.error .noDevice) (channel.selecting slot) := by
  have hf : (channel.selecting slot).faults = .none := hf
  have hwait : (awaitStatus Status.ready timeoutMs).Leads (channel.selecting slot) _ (channel.selecting slot) :=
    leads_await timeoutMs hf (by rw [hj]; nofun)
  rw [hj] at hwait
  unfold identify
  exact (leads_write ..).bind (hwait.bind (leads_pure _ _))

theorem leads_identify_of_absent (timeoutMs : UInt32) (hf : channel.faults = .none) (hd : channel.drive slot = none) :
    (identify slot timeoutMs).Leads channel (.error .noDevice) (channel.selecting slot) := by
  have hstatus : (channel.selecting slot).status = 0 :=
    status_eq_zero hf ((selected_selecting channel slot).trans hd)
  exact leads_identify_of_unready timeoutMs hf (by rw [hstatus]; rfl)

theorem leads_identify_of_present (timeoutMs : UInt32) (hf : channel.faults = .none) (hp : channel.phase ≠ .failed)
    {drive : Drive} (hd : channel.drive slot = some drive) :
    (identify slot timeoutMs).Leads channel
      (if drive.page.supportsLba then .ok drive.page else .error .unsupported)
      ((channel.selecting slot).inPhase .idle) := by
  have hf : (channel.selecting slot).faults = .none := hf
  have hselected : (channel.selecting slot).selected = some drive := (selected_selecting channel slot).trans hd
  have hcommand := leads_execute hf hselected Command.identify
  rw [accept_identify] at hcommand
  have hready : (awaitStatus Status.ready timeoutMs).Leads (channel.selecting slot) _ _ :=
    leads_await_ready timeoutMs hf hselected hp
  have hnonempty := List.append_ne_nil_of_left_ne_nil drive.page.bytes.words_ne_nil []
  have hdata := leads_await_data timeoutMs hf hselected (shown_sendingPhase hnonempty)
  have hpage := leads_readSector (channel.selecting slot) drive.page.bytes []
  unfold identify
  refine (leads_write ..).bind (hready.bind (hcommand.bind (hdata.bind (hpage.bind ?_))))
  cases hlba : drive.page.supportsLba with
  | true =>
      have hlba : Identify.Page.supportsLba ⟨drive.page.bytes⟩ = true := hlba
      simp only [hlba, if_true]
      exact leads_pure _ _
  | false =>
      have hlba : Identify.Page.supportsLba ⟨drive.page.bytes⟩ = false := hlba
      simp only [hlba]
      exact leads_pure _ _

/-- Only a drive that is there is identified, and a channel at rest is at rest again. -/
theorem identify_eq_ok {timeoutMs : UInt32} {s t : Session Channel} {answer : Except AtaError Identify.Page}
    (hf : s.device.faults = .none) (hp : s.device.phase = .idle)
    (h : identify slot timeoutMs s = .ok (answer, t)) :
    s.device.Rested t.device ∧ ∀ page, answer = .ok page → ∃ drive, s.device.drive slot = some drive := by
  have hrested := rested_selecting s.device slot
  cases hd : s.device.drive slot with
  | none =>
      obtain ⟨rfl, ht⟩ := (leads_identify_of_absent timeoutMs hf hd).of_run rfl h
      rw [inPhase_self (show (s.device.selecting slot).phase = .idle from hp), ← ht] at hrested
      exact ⟨hrested, fun page hpage => by cases hpage⟩
  | some drive =>
      obtain ⟨_, ht⟩ := (leads_identify_of_present timeoutMs hf (ne_of_eq_of_ne hp nofun) hd).of_run rfl h
      rw [← ht] at hrested
      exact ⟨hrested, fun _ _ => ⟨drive, rfl⟩⟩

end Emulator.Channel

/-! ## Starting the driver -/

namespace Ide

/-- No channel has a fault, the channels that are `done` are at rest, and the table is filled from the front with disks
that have their drives. -/
structure AtRest (ide : Ide Channel) (done : Nat → Prop) : Prop where
  faults : ∀ (i : Nat) (controller : Controller Channel), ide.controllers[i]? = some controller →
    controller.device.faults = .none
  overrun : ∀ (i : Nat) (controller : Controller Channel), ide.controllers[i]? = some controller →
    controller.device.overrun = false
  idle : ∀ (i : Nat) (controller : Controller Channel), done i → ide.controllers[i]? = some controller →
    controller.device.phase = .idle
  dense : ide.table.Dense
  present : ∀ index disk, ide.table.get? index = some disk → ∃ drive, ide.drive? disk.controller disk.slot = some drive

/-- Discovery has come so far, and has left the drives of `origin` as they were. -/
structure Discovering (origin : Ide Channel) (done : Nat → Prop) (ide : Ide Channel) : Prop extends
    ide.AtRest done where
  drives : ide.drive? = origin.drive?

variable {origin ide ide' : Ide Channel} {done done' : Nat → Prop} {index : Nat} {controller : Controller Channel}
  {session : Session Channel} {slot : DriveSlot} {answer : Except AtaError Nat}

theorem Discovering.mono (h : origin.Discovering done ide) (hdone : ∀ i, done' i → done i) :
    origin.Discovering done' ide :=
  ⟨⟨h.faults, h.overrun, fun i c hi hc => h.idle i c (hdone i hi) hc, h.dense, h.present⟩, h.drives⟩

theorem Discovering.worked (h : origin.Discovering done ide) (hc : ide.controllers[index]? = some controller)
    (hr : controller.device.Rested session.device) :
    origin.Discovering (fun i => i = index ∨ done i) (ide.worked index controller session) := by
  have hidle : ∀ i c, (ide.worked index controller session).controllers[i]? = some c → i = index ∨ done i →
      c.device.phase = .idle :=
    forall_worked ide controller session hc (fun _ => hr.phase) fun i c hne hi hdone =>
      h.idle i c (hdone.resolve_left hne) hi
  refine ⟨⟨?_, ?_, fun i c hdone hi => hidle i c hi hdone, h.dense, ?_⟩, ?_⟩
  · exact forall_worked ide controller session hc (hr.faults.trans (h.faults _ _ hc)) fun i c _ => h.faults i c
  · exact forall_worked ide controller session hc (hr.overrun.trans (h.overrun _ _ hc)) fun i c _ => h.overrun i c
  · rw [drive?_worked hc hr.drives]
    exact h.present
  · rw [drive?_worked hc hr.drives, h.drives]

theorem Discovering.noted (h : origin.Discovering done ide) (records : List Log.Record) :
    origin.Discovering done (ide.noted records) :=
  ⟨⟨h.faults, h.overrun, h.idle, h.dense, h.present⟩, h.drives⟩

theorem Discovering.enlisted (h : origin.Discovering done ide) (room : ide.table.isFull = false) {controller : Nat}
    {info : DriveInfo} (hd : ∃ drive, ide.drive? controller slot = some drive) (label : Label) :
    origin.Discovering done (ide.enlisted ⟨ide.table.count, controller, slot, info, .uninitialized⟩ label) := by
  refine ⟨⟨h.faults, h.overrun, h.idle, h.dense.added room rfl, fun i found hi => ?_⟩, h.drives⟩
  have hi : (ide.table.added _).get? i = some found := hi
  rw [DiskTable.get?_added (DiskTable.isFull_eq_false_iff.mp room)] at hi
  split at hi
  · rw [← Option.some.inj hi]
    exact hd
  · exact h.present i found hi

theorem Discovering.probed (h : origin.Discovering done ide) (hi : done index)
    (hp : IdeM.Probed ide index slot answer ide') : origin.Discovering done ide' := by
  have hback : ∀ i, done i → i = index ∨ done i := fun _ => .inr
  cases hp with
  | missing => exact h
  | refused found identified =>
      obtain ⟨hr, _⟩ := Channel.identify_eq_ok (h.faults _ _ found) (h.idle _ _ hi found) identified
      exact ((h.worked found hr).mono hback).noted _
  | @enrolled controller session page _ _ found identified enrolment =>
      obtain ⟨hr, hanswered⟩ := Channel.identify_eq_ok (h.faults _ _ found) (h.idle _ _ hi found) identified
      obtain ⟨drive, hd⟩ := hanswered page rfl
      have hnoted := ((h.worked found hr).mono hback).noted
        (IdeM.report controller.base slot ide.settings.dumpIdentify page)
      rcases IdeM.enrol_eq_ok enrolment with ⟨_, _, rfl⟩ | ⟨label, room, _, _, rfl⟩
      · exact hnoted.noted _
      · have hdrive : (ide.worked index controller session).drive? index slot = some drive := by
          rw [drive?_worked found hr.drives, drive?, found]
          exact hd
        refine hnoted.enlisted room ?_ label
        exact ⟨drive, hdrive⟩

theorem Discovering.init {controllers : Array (Controller Channel)} {maxDisks : Nat} {clock : Clock}
    {settings : Settings} (healthy : ∀ controller ∈ controllers,
      controller.device.faults = .none ∧ controller.device.overrun = false)
    (hi : IdeM.init (.fresh controllers maxDisks clock settings) = .ok ((), ide)) :
    (fresh controllers maxDisks clock settings).Discovering (fun _ => True) ide := by
  rcases IdeM.init_eq_ok hi with ⟨habsurd, _⟩ | ⟨_, hi⟩
  · cases habsurd
  · -- a controller that is still to come may have been left in the middle of anything
    have hstart : (fresh controllers maxDisks clock settings).Discovering (· ∉ List.range controllers.size)
        { fresh controllers maxDisks clock settings with initialised := true } := by
      refine ⟨⟨fun i c hc => (healthy c (Array.mem_of_getElem? hc)).1,
        fun i c hc => (healthy c (Array.mem_of_getElem? hc)).2, fun i c hout hc => ?_, DiskTable.dense_empty _,
        fun i disk hd => ?_⟩, rfl⟩
      · obtain ⟨hlt, _⟩ := Array.getElem?_eq_some_iff.mp hc
        exact absurd (List.mem_range.mpr hlt) hout
      · exact absurd hd (by simp [fresh])
    have hend := IdeM.initControllers_induction
      (P := fun rest ide => (fresh controllers maxDisks clock settings).Discovering (· ∉ rest) ide) ?_ hstart hi
    · exact hend.mono fun i _ => List.not_mem_nil
    · intro index rest before after hb hstep
      obtain ⟨afterReset, afterMaster, _, _, hreset, hmaster, hslave⟩ := IdeM.initController_eq_ok hstep
      obtain ⟨controller, session, hc, hrun, rfl⟩ := IdeM.reset_eq_ok hreset
      have hreset := hb.worked hc (Channel.reset_eq_ok hrun)
      have hprobed := (hreset.probed (.inl rfl) (IdeM.probe_eq_ok hmaster)).probed (.inl rfl)
        (IdeM.probe_eq_ok hslave)
      refine hprobed.mono fun i hout => ?_
      by_cases hne : i = index
      · exact .inl hne
      · exact .inr fun hmem => hout ((List.mem_cons.mp hmem).resolve_left hne)

/-- A drive of two sectors, whose bytes count upwards. -/
def sampleDrive : Drive := ⟨⟨.replicate 512 Identify.lbaCapable⟩, ((List.range 1024).map UInt8.ofNat).toArray⟩

/-- A driver with one channel and one drive, before it is started. -/
def sample : Ide Channel :=
  .fresh #[⟨0x1f0, .idle (some sampleDrive) none .none⟩] 1 ⟨.hz200, 0, 1⟩ .standard

theorem healthy_sample : ∀ controller ∈ sample.controllers,
    controller.device.faults = .none ∧ controller.device.overrun = false := by
  intro controller hc
  obtain rfl := Array.mem_singleton.mp hc
  exact ⟨rfl, rfl⟩

theorem exists_init_sample : ∃ ide, IdeM.init sample = .ok ((), ide) ∧ ide.table.count = 1 ∧ ide.clock.step = 1 := by
  have hrun : (match IdeM.init sample with
      | .ok (_, ide) => decide (ide.table.count = 1 ∧ ide.clock.step = 1)
      | .error _ => false) = true := by decide +kernel
  split at hrun
  · rename_i ide heq
    exact ⟨ide, heq, of_decide_eq_true hrun⟩
  · cases hrun

theorem sectorCount_sample (h : IdeM.init sample = .ok ((), ide)) {controller : Nat} {drive : Drive}
    (hd : ide.drive? controller slot = some drive) : drive.sectorCount = 2 := by
  rw [(Discovering.init healthy_sample h).drives] at hd
  cases controller with
  | zero =>
      cases slot with
      | master =>
          have hd : some sampleDrive = some drive := hd
          rw [← Option.some.inj hd, Drive.sectorCount, sampleDrive, List.size_toArray, List.length_map, List.length_range]
          rfl
      | slave => cases hd
  | succ controller => cases hd

/-! ## Requests to a driver at rest -/

theorem AtRest.stands (h : ide.AtRest fun _ => True) {index : Nat} {disk : Disk}
    (hd : ide.table.get? index = some disk) :
    ∃ controller drive, ide.Stands disk controller drive .idle := by
  obtain ⟨drive, hdrive⟩ := h.present index disk hd
  obtain ⟨controller, hc, hslot⟩ := Option.bind_eq_some_iff.mp hdrive
  exact ⟨controller, drive, hc, h.faults _ _ hc, h.idle _ _ trivial hc, hslot⟩

theorem exists_stands_sample : ∃ ide disk controller drive, IdeM.init sample = .ok ((), ide) ∧
    ide.table.get? 0 = some disk ∧ ide.Stands disk controller drive .idle ∧ drive.sectorCount = 2 := by
  obtain ⟨ide, started, known, _⟩ := exists_init_sample
  have hrest := (Discovering.init healthy_sample started).toAtRest
  obtain ⟨disk, hd⟩ := hrest.dense.exists_get?_of_lt (Nat.lt_of_lt_of_eq Nat.zero_lt_one known.symm)
  obtain ⟨controller, drive, hs⟩ := hrest.stands hd
  exact ⟨ide, disk, controller, drive, started, hd, hs, sectorCount_sample started hs.drive?_eq⟩

theorem Stands.atRest_worked {disk : Disk} {drive drive' : Drive} (h : ide.Stands disk controller drive .idle)
    (hrest : ide.AtRest fun _ => True) (ht : controller.device.Turned disk.slot drive' .idle session.device) :
    (ide.worked disk.controller controller session).AtRest fun _ => True := by
  refine ⟨?_, ?_, fun i c _ hi => ?_, hrest.dense, fun i other ho => ?_⟩
  · exact forall_worked ide controller session h.found (ht.faults.trans h.faults) fun i c _ => hrest.faults i c
  · exact forall_worked ide controller session h.found (ht.overrun.trans (hrest.overrun _ _ h.found))
      fun i c _ => hrest.overrun i c
  · exact forall_worked ide controller session h.found ht.phase (fun i c _ => hrest.idle i c trivial) i c hi
  · by_cases hne : (other.controller, other.slot) = (disk.controller, disk.slot)
    · obtain ⟨hcontroller, hslot⟩ := Prod.mk.inj hne
      rw [hcontroller, hslot, (h.worked ht).drive?_eq]
      exact ⟨drive', rfl⟩
    · rw [h.drive?_worked_of_ne ht hne]
      exact hrest.present i other ho

end Ide

end PolledAta
