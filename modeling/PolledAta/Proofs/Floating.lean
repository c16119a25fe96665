import PolledAta.Proofs.Watching

/-!
# Pages that nobody sends

A status that is made up can show a drive and its data request where there is none. A start then takes two pages from
lines that nothing drives.
-/

namespace PolledAta

open Emulator Rom

variable {s t : Session Channel} {slot : DriveSlot} {timeoutMs : UInt32}

/-! ## A channel without drives -/

namespace Emulator.Channel

/-- There is no drive, but a status is made up with which every wait of a start ends well. -/
structure Pretends (channel : Channel) : Prop where
  master : channel.master = none
  slave : channel.slave = none
  idle : channel.phase = .idle
  unscripted : channel.faults.script = []
  forced : ∃ status, channel.faults.statusOverride = some status ∧ Status.judge status Status.ready = .done ∧
    Status.judge status Status.dataRequest = .done

variable {channel : Channel}

theorem Pretends.writeRegister (h : channel.Pretends) (reg : Register) (value : UInt8) :
    (channel.writeRegister reg value).Pretends := by
  have hnone : channel.selected = none := by
    rw [selected]
    cases channel.latch with
    | master => exact h.master
    | slave => exact h.slave
  cases reg with
  | status =>
      have hlost : channel.execute value = channel := by rw [execute, hnone]
      rw [Channel.writeRegister, hlost]
      exact h
  | control =>
      simp only [Channel.writeRegister]
      split
      · exact ⟨h.master, h.slave, h.idle, h.unscripted, h.forced⟩
      · exact ⟨h.master, h.slave, rfl, h.unscripted, h.forced⟩
  | _ => exact ⟨h.master, h.slave, h.idle, h.unscripted, h.forced⟩

theorem Pretends.write (h : s.device.Pretends) {reg : Register} {value : UInt8}
    (run : BusM.write reg value s = .ok ((), t)) : t.device.Pretends := by
  cases run
  exact h.writeRegister reg value

/-- A wait that ends well on every status that such a channel shows. -/
theorem Pretends.awaitStatus (h : s.device.Pretends) {bits : UInt8} {answer : Except AtaError UInt8}
    (bits_ok : bits = Status.ready ∨ bits = Status.dataRequest)
    (run : BusM.awaitStatus bits timeoutMs s = .ok (answer, t)) :
    (∃ status, answer = .ok status) ∧ t.device = s.device := by
  obtain ⟨status, hforced, hready, hdata⟩ := h.forced
  have hstatus : s.device.status = status := by rw [Channel.status, hforced]
  have hdone : Status.judge status bits = .done := by
    rcases bits_ok with rfl | rfl
    · exact hready
    · exact hdata
  have hread := read_status_of_unscripted h.unscripted
  rw [hstatus] at hread
  have hleads : (BusM.awaitStatus bits timeoutMs).Leads s.device _ s.device :=
    BusM.leads_awaitStatus rfl hread (by rw [hdone]; nofun)
  obtain ⟨rfl, hdevice⟩ := hleads.of_run rfl run
  rw [hdone]
  exact ⟨⟨status, rfl⟩, hdevice⟩

/-- Asking for a page takes one, word by word, from nobody. -/
theorem Pretends.identify (h : s.device.Pretends) {answer : Except AtaError Identify.Page}
    (run : BusM.identify slot timeoutMs s = .ok (answer, t)) :
    ∃ enquiry, (∀ cycle ∈ enquiry, cycle.Enquires) ∧
      t.cycles = s.cycles ++ (enquiry ++ .replicate sectorWords (.readData none)) ∧ t.device.Pretends := by
  unfold BusM.identify at run
  obtain ⟨_, s₁, hselect, run⟩ := Program.bind_eq_ok.mp run
  obtain ⟨ready, s₂, hready, run⟩ := Program.bind_eq_ok.mp run
  obtain ⟨trace, hwaited, hruns⟩ := BusM.awaitStatus_eq_ok hready
  have h₁ := h.write hselect
  obtain ⟨⟨status, rfl⟩, hd₂⟩ := h₁.awaitStatus (.inl rfl) hready
  obtain ⟨_, s₃, hcommand, run⟩ := Program.bind_eq_ok.mp run
  obtain ⟨data, s₄, hdata, run⟩ := Program.bind_eq_ok.mp run
  obtain ⟨trace', hwaited', hruns'⟩ := BusM.awaitStatus_eq_ok hdata
  have h₃ := (hd₂ ▸ h₁).write hcommand
  obtain ⟨⟨status', rfl⟩, hd₄⟩ := h₃.awaitStatus (.inr rfl) hdata
  obtain ⟨bytes, s₅, hread, run⟩ := Program.bind_eq_ok.mp run
  obtain ⟨driven, _, hpage⟩ := BusM.readSector_eq_ok hread
  have h₄ : s₄.device.Pretends := hd₄ ▸ h₃
  obtain ⟨hdriven, hd₅⟩ := course_silent (fun words => by rw [h₄.idle]; nofun) hpage.course
  have hafter : t = s₅ := by
    cases hlba : Identify.Page.supportsLba ⟨bytes⟩ with
    | true =>
        simp only [hlba, if_true] at run
        cases run
        rfl
    | false =>
        simp only [hlba] at run
        cases run
        rfl
  have hall := ((((BusM.write_eq_ok hselect).trans hruns).trans (BusM.write_eq_ok hcommand)).trans hruns').trans hpage
  refine ⟨[.write .device slot.selectBase] ++ trace ++ [.write .command Command.identify] ++ trace', ?_, ?_, ?_⟩
  · simp only [List.forall_mem_append]
    refine ⟨⟨⟨?_, hwaited.enquires⟩, ?_⟩, hwaited'.enquires⟩
    · simp [Cycle.Enquires]
    · simp [Cycle.Enquires]
  · rw [hafter, hall.cycles, hdriven, List.map_replicate, Vector.length_toList]
    rfl
  · rw [hafter, hd₅]
    exact h₄

end Emulator.Channel

/-! ## A driver with such a channel -/

namespace Ide

variable {ide ide' : Ide Channel}

/-- The first channel is without drives, but pretends to have them. -/
def Pretends (ide : Ide Channel) : Prop :=
  ∃ controller, ide.controllers[0]? = some controller ∧ controller.device.Pretends

theorem pretends_worked {controller : Controller Channel} {session : Session Channel}
    (hc : ide.controllers[0]? = some controller) (h : session.device.Pretends) :
    (ide.worked 0 controller session).Pretends :=
  ⟨_, worked_controllers_self ide controller session hc, h⟩

theorem Pretends.reset (h : ide.Pretends) (run : IdeM.reset 0 ide = .ok ((), ide')) :
    ide'.cycles 0 = ide.cycles 0 ++ BusM.resetCycles ∧ ide'.Pretends := by
  obtain ⟨_, hpretends, h⟩ := h
  obtain ⟨controller, session, hc, hrun, rfl⟩ := IdeM.reset_eq_ok run
  cases hpretends.symm.trans hc
  have hruns := BusM.reset_eq_ok hrun
  refine ⟨?_, pretends_worked hc ?_⟩
  · rw [worked_cycles_self, hruns.cycles]
    rfl
  · rw [hruns.course.write_inv.write_inv.write_inv.nil_inv]
    exact ((h.writeRegister ..).writeRegister ..).writeRegister ..

theorem Pretends.probed (h : ide.Pretends) {answer : Except AtaError Nat} (probed : IdeM.Probed ide 0 slot answer ide') :
    ∃ enquiry, (∀ cycle ∈ enquiry, cycle.Enquires) ∧
      ide'.cycles 0 = ide.cycles 0 ++ (enquiry ++ .replicate sectorWords (.readData none)) ∧ ide'.Pretends := by
  obtain ⟨_, hpretends, h⟩ := h
  cases probed with
  | missing absent =>
      rw [absent] at hpretends
      cases hpretends
  | refused found identified =>
      cases hpretends.symm.trans found
      obtain ⟨enquiry, henquiry, hcycles, hafter⟩ := h.identify identified
      refine ⟨enquiry, henquiry, ?_, pretends_worked found hafter⟩
      rw [cycles_noted, worked_cycles_self, hcycles]
      rfl
  | enrolled found identified enrolment =>
      cases hpretends.symm.trans found
      obtain ⟨enquiry, henquiry, hcycles, hafter⟩ := h.identify identified
      have hworked := pretends_worked found hafter
      rcases IdeM.enrol_eq_ok enrolment with ⟨_, _, rfl⟩ | ⟨label, _, _, _, rfl⟩
      · refine ⟨enquiry, henquiry, ?_, hworked⟩
        rw [cycles_noted, cycles_noted, worked_cycles_self, hcycles]
        rfl
      · refine ⟨enquiry, henquiry, ?_, hworked⟩
        rw [cycles_enlisted, cycles_noted, worked_cycles_self, hcycles]
        rfl

/-- A start takes the words of two pages from such a channel, and nobody sends one of them. -/
theorem Pretends.init (h : ide.Pretends) (one : ide.controllers.size = 1) (unstarted : ide.initialised = false)
    (idle : ide.cycles 0 = []) (run : IdeM.init ide = .ok ((), ide')) :
    (sightings (fun _ => true) 0 (ide'.cycles 0)).count .page = 2 ∧
      (sightings Option.isSome 0 (ide'.cycles 0)).count .page = 0 := by
  rcases IdeM.init_eq_ok run with ⟨hagain, _⟩ | ⟨_, run⟩
  · rw [unstarted] at hagain
    cases hagain
  · rw [one] at run
    obtain ⟨_, after, hfirst, hnone⟩ := Program.bind_eq_ok.mp run
    cases hnone
    obtain ⟨afterReset, afterMaster, _, _, hreset, hmaster, hslave⟩ := IdeM.initController_eq_ok hfirst
    have hstart : Pretends { ide with initialised := true } := h
    obtain ⟨hcycles, h⟩ := hstart.reset hreset
    obtain ⟨first, henquiry, hcycles₁, h⟩ := h.probed (IdeM.probe_eq_ok hmaster)
    obtain ⟨second, henquiry', hcycles₂, _⟩ := h.probed (IdeM.probe_eq_ok hslave)
    have hstarted : cycles { ide with initialised := true } 0 = [] := idle
    have hbare : ∀ cycle ∈ BusM.resetCycles, cycle.Enquires := by simp [BusM.resetCycles, Cycle.Enquires]
    have hall : ide'.cycles 0 = BusM.resetCycles ++ (first ++ (.replicate sectorWords (.readData none) ++
        (second ++ (.replicate sectorWords (.readData none) ++ [])))) := by
      rw [hcycles₂, hcycles₁, hcycles, hstarted]
      simp
    constructor
    · rw [hall, count_page_enquiry hbare, count_page_enquiry henquiry, sightings_taken, List.count_cons_self,
        count_page_enquiry henquiry', sightings_taken, List.count_cons_self, sightings, List.count_nil]
    · rw [hall, count_page_enquiry hbare, count_page_enquiry henquiry, sightings_floating,
        count_page_enquiry henquiry', sightings_floating, sightings, List.count_nil]

end Ide

end PolledAta
