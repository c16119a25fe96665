import PolledAta.Proofs.Discovery

/-!
# The pages of a start

A start takes words from a channel only after it has sent it an identify command, and then as many as a page has. So
whatever faults the channel has, the words of a page are either all sent by a drive or none of them is.
-/

namespace PolledAta

open Emulator

/-! ## Traces with whole pages -/

/-- Words are taken a page at a time, and a page is sent as a whole or not at all. -/
inductive Paged : List Cycle → Prop where
  | nil : Paged []
  | bare {cycle : Cycle} {rest : List Cycle} (bare : ∀ word, cycle ≠ .readData word) (paged : Paged rest) :
      Paged (cycle :: rest)
  | sent {words : List UInt16} {rest : List Cycle} (full : words.length = sectorWords) (paged : Paged rest) :
      Paged (words.map (fun word => .readData (some word)) ++ rest)
  | floating {rest : List Cycle} (paged : Paged rest) : Paged (.replicate sectorWords (.readData none) ++ rest)

theorem Paged.append {first second : List Cycle} (h : Paged first) (h' : Paged second) : Paged (first ++ second) := by
  induction h with
  | nil => exact h'
  | bare hbare _ ih => exact .bare hbare ih
  | sent full _ ih =>
      rw [List.append_assoc]
      exact .sent full ih
  | floating _ ih =>
      rw [List.append_assoc]
      exact .floating ih

/-- Accesses to registers, of which no command but the one to identify. -/
def Cycle.Enquires : Cycle → Prop
  | .read .. => True
  | .write reg value => reg = .command → value = Command.identify
  | _ => False

theorem paged_of_enquiries {trace : List Cycle} (h : ∀ cycle ∈ trace, cycle.Enquires) : Paged trace := by
  induction trace with
  | nil => exact .nil
  | cons cycle trace ih =>
      obtain ⟨hfirst, hrest⟩ := List.forall_mem_cons.mp h
      refine .bare ?_ (ih hrest)
      rintro word rfl
      exact hfirst

theorem Waited.enquires {bits : UInt8} {trace : List Cycle} {answer : Except AtaError UInt8}
    (h : Waited bits trace answer) : ∀ cycle ∈ trace, cycle.Enquires := by
  intro cycle hc
  cases h with
  | intro settle pending last early =>
      simp only [List.cons_append, List.mem_cons, List.mem_append, List.mem_map, List.not_mem_nil, or_false] at hc
      rcases hc with rfl | ⟨status, _, rfl⟩ | rfl
      · exact trivial
      · exact trivial
      · exact trivial

/-- First the enquiry, and then the words of one page or none. -/
theorem Identified.exists_page {slot : DriveSlot} {trace : List Cycle} {answer : Except AtaError Identify.Page}
    (h : Identified slot trace answer) : ∃ enquiry driven, trace = enquiry ++ driven.map .readData ∧
      (∀ cycle ∈ enquiry, cycle.Enquires) ∧
      (driven = [] ∨ driven.length = sectorWords) := by
  have hselect : ∀ cycle ∈ [Cycle.write .device slot.selectBase], cycle.Enquires := by simp [Cycle.Enquires]
  have hcommand : ∀ cycle ∈ [Cycle.write .command Command.identify], cycle.Enquires := by simp [Cycle.Enquires]
  cases h with
  | missing wait =>
      refine ⟨_, [], (List.append_nil _).symm, ?_, .inl rfl⟩
      exact List.forall_mem_append.mpr ⟨hselect, wait.enquires⟩
  | silent ready wait =>
      refine ⟨_, [], (List.append_nil _).symm, ?_, .inl rfl⟩
      simp only [List.forall_mem_append]
      exact ⟨⟨⟨hselect, ready.enquires⟩, hcommand⟩, wait.enquires⟩
  | answered ready wait driven taken =>
      refine ⟨_, driven.toList, rfl, ?_, .inr driven.length_toList⟩
      simp only [List.forall_mem_append]
      exact ⟨⟨⟨hselect, ready.enquires⟩, hcommand⟩, wait.enquires⟩

/-! ## Channels with whole pages -/

namespace Emulator.Channel

variable {channel after : Channel} {trace : List Cycle}

/-- The words still to be sent are a whole page. -/
def Whole (channel : Channel) : Prop := ∀ words, channel.phase = .sending words → words.length = sectorWords

theorem whole_idle (h : channel.phase = .idle) : channel.Whole := by
  intro words hp
  rw [h] at hp
  cases hp

theorem phase_readRegister (channel : Channel) (reg : Register) :
    (channel.readRegister reg).2.phase = channel.phase := by
  unfold readRegister
  split <;> rfl

theorem Whole.execute (h : channel.Whole) : (channel.execute Command.identify).Whole := by
  unfold Channel.execute
  split
  · exact h
  · rename_i drive _
    split
    · exact fun _ => nofun
    · intro words hp
      cases hp
      simp [pageWords, sectorWords]

theorem Whole.writeRegister (h : channel.Whole) {reg : Register} {value : UInt8}
    (hcommand : reg = .command → value = Command.identify) : (channel.writeRegister reg value).Whole := by
  cases reg with
  | status =>
      obtain rfl := hcommand rfl
      exact h.execute
  | control =>
      simp only [Channel.writeRegister]
      split
      · exact h
      · exact whole_idle rfl
  | _ => exact h

theorem Whole.takes {cycle : Cycle} (h : channel.Whole) (takes : Cycle.Takes channel cycle after)
    (enquires : cycle.Enquires) : after.Whole := by
  cases takes with
  | @read _ reg value answers =>
      have hafter : (channel.readRegister reg).2 = after := congrArg Prod.snd answers
      intro words hp
      rw [← hafter, phase_readRegister] at hp
      exact h words hp
  | write reg value => exact h.writeRegister enquires
  | readData => exact enquires.elim
  | writeData => exact enquires.elim

theorem Whole.course (h : channel.Whole) (course : Course channel trace after)
    (enquires : ∀ cycle ∈ trace, cycle.Enquires) : after.Whole := by
  induction course with
  | nil => exact h
  | cons first _ ih =>
      obtain ⟨hfirst, hrest⟩ := List.forall_mem_cons.mp enquires
      exact ih (h.takes first hfirst) hrest

/-! ### Taking a page -/

/-- As many words as there are to send are all sent. -/
theorem course_sending {words : List UInt16} {driven : List (Option UInt16)} (hp : channel.phase = .sending words)
    (hne : words ≠ []) (hlength : driven.length = words.length) (course : Course channel (driven.map .readData) after) :
    driven = words.map some ∧ after.phase = .idle := by
  induction words generalizing channel driven with
  | nil => exact absurd rfl hne
  | cons word words ih =>
      cases driven with
      | nil => cases hlength
      | cons first driven =>
          obtain ⟨between, hfirst, hrest⟩ := Course.cons_inv course
          have hmore : driven.length = words.length := Nat.succ.inj hlength
          have hread : channel.readWord =
              (some word, { channel with phase := if words.isEmpty then .idle else .sending words }) := by
            rw [readWord, hp]
          cases hfirst with
          | readData answers =>
              obtain ⟨rfl, rfl⟩ := Prod.mk.inj (hread.symm.trans answers)
              cases words with
              | nil =>
                  obtain rfl := List.length_eq_zero_iff.mp hmore
                  rw [hrest.nil_inv]
                  exact ⟨rfl, rfl⟩
              | cons second words =>
                  obtain ⟨rfl, hidle⟩ := ih rfl nofun hmore hrest
                  exact ⟨rfl, hidle⟩

/-- A channel with nothing to send sends nothing, however often it is asked. -/
theorem course_silent {driven : List (Option UInt16)} (hp : ∀ words, channel.phase ≠ .sending words)
    (course : Course channel (driven.map .readData) after) :
    driven = .replicate driven.length none ∧ after = channel := by
  have hread : channel.readWord = (none, channel) := by
    unfold readWord
    split
    · rename_i hsending
      exact absurd hsending (hp _)
    · rfl
  induction driven with
  | nil => exact ⟨rfl, course.nil_inv⟩
  | cons first driven ih =>
      obtain ⟨between, hfirst, hrest⟩ := Course.cons_inv course
      cases hfirst with
      | readData answers =>
          obtain ⟨rfl, rfl⟩ := Prod.mk.inj (hread.symm.trans answers)
          obtain ⟨hdriven, hafter⟩ := ih hrest
          exact ⟨congrArg (none :: ·) hdriven, hafter⟩

theorem Whole.page {driven : List (Option UInt16)} (h : channel.Whole) (hlength : driven.length = sectorWords)
    (course : Course channel (driven.map .readData) after) : Paged (driven.map .readData) ∧ after.Whole := by
  by_cases hp : ∃ words, channel.phase = .sending words
  · obtain ⟨words, hp⟩ := hp
    have hfull := h words hp
    have hne : words ≠ [] := by
      rintro rfl
      cases hfull
    obtain ⟨rfl, hidle⟩ := course_sending hp hne (hlength.trans hfull.symm) course
    have hpaged := Paged.sent hfull .nil
    rw [List.append_nil] at hpaged
    rw [List.map_map]
    exact ⟨hpaged, whole_idle hidle⟩
  · obtain ⟨hdriven, rfl⟩ := course_silent (fun words hw => hp ⟨words, hw⟩) course
    have hpaged := Paged.floating .nil
    rw [List.append_nil] at hpaged
    rw [hdriven, List.map_replicate, hlength]
    exact ⟨hpaged, h⟩

/-- Asking a slot for its page leaves a channel with whole pages, whatever it answers. -/
theorem Whole.identify {slot : DriveSlot} {answer : Except AtaError Identify.Page} (h : channel.Whole)
    (identified : Identified slot trace answer) (course : Course channel trace after) :
    Paged trace ∧ after.Whole := by
  obtain ⟨enquiry, driven, rfl, henquiry, hdriven⟩ := identified.exists_page
  obtain ⟨between, hfirst, hsecond⟩ := Course.append_inv course
  have hwhole := h.course hfirst henquiry
  have hpaged := paged_of_enquiries henquiry
  rcases hdriven with rfl | hlength
  · rw [hsecond.nil_inv]
    exact ⟨hpaged.append .nil, hwhole⟩
  · obtain ⟨hpage, hafter⟩ := hwhole.page hlength hsecond
    exact ⟨hpaged.append hpage, hafter⟩

end Emulator.Channel

/-! ## Starts -/

namespace Ide

variable {ide ide' : Ide Channel} {index : Nat} {controller : Controller Channel} {session : Session Channel}
  {trace : List Cycle}

/-- On every channel pages have been taken as a whole so far, and the next one will be. -/
structure InPages (ide : Ide Channel) : Prop where
  whole : ∀ (i : Nat) (controller : Controller Channel), ide.controllers[i]? = some controller →
    controller.device.Whole
  paged : ∀ i, Paged (ide.cycles i)

theorem InPages.worked (h : ide.InPages) (hc : ide.controllers[index]? = some controller)
    (runs : (ide.opened controller).Runs session trace) (paged : Paged trace) (whole : session.device.Whole) :
    (ide.worked index controller session).InPages where
  whole := forall_worked ide controller session hc whole fun i c _ => h.whole i c
  paged i := by
    by_cases hi : i = index
    · subst hi
      rw [worked_cycles_self, runs.cycles]
      exact (h.paged i).append paged
    · rw [worked_cycles_of_ne _ _ _ hi]
      exact h.paged i

theorem InPages.noted (h : ide.InPages) (records : List Log.Record) : (ide.noted records).InPages :=
  ⟨h.whole, fun i => by rw [cycles_noted]; exact h.paged i⟩

theorem InPages.enlisted (h : ide.InPages) (disk : Disk) (label : Label) : (ide.enlisted disk label).InPages :=
  ⟨h.whole, fun i => by rw [cycles_enlisted]; exact h.paged i⟩

theorem InPages.identified {slot : DriveSlot} {timeoutMs : UInt32} {answer : Except AtaError Identify.Page}
    (h : ide.InPages) (hc : ide.controllers[index]? = some controller)
    (run : BusM.identify slot timeoutMs (ide.opened controller) = .ok (answer, session)) :
    (ide.worked index controller session).InPages := by
  obtain ⟨trace, hidentified, hruns⟩ := BusM.identify_eq_ok run
  obtain ⟨hpaged, hwhole⟩ := (h.whole index controller hc).identify hidentified hruns.course
  exact h.worked hc hruns hpaged hwhole

theorem InPages.probed {slot : DriveSlot} {answer : Except AtaError Nat} (h : ide.InPages)
    (probed : IdeM.Probed ide index slot answer ide') : ide'.InPages := by
  cases probed with
  | missing => exact h
  | refused found identified => exact (h.identified found identified).noted _
  | enrolled found identified enrolment =>
      have hnoted := (h.identified found identified).noted
      rcases IdeM.enrol_eq_ok enrolment with ⟨_, _, rfl⟩ | ⟨label, _, _, _, rfl⟩
      · exact (hnoted _).noted _
      · exact (hnoted _).enlisted _ label

theorem InPages.reset (h : ide.InPages) (run : IdeM.reset index ide = .ok ((), ide')) : ide'.InPages := by
  obtain ⟨controller, session, hc, hrun, rfl⟩ := IdeM.reset_eq_ok run
  have hbare : ∀ cycle ∈ BusM.resetCycles, cycle.Enquires := by simp [BusM.resetCycles, Cycle.Enquires]
  exact h.worked hc (BusM.reset_eq_ok hrun) (paged_of_enquiries hbare)
    (Channel.whole_idle (Channel.reset_eq_ok hrun).phase)

/-- A start takes whole pages from channels that are about to send a whole page, or nothing. -/
theorem InPages.init (h : ide.InPages) (run : IdeM.init ide = .ok ((), ide')) : ide'.InPages := by
  rcases IdeM.init_eq_ok run with ⟨_, rfl⟩ | ⟨_, run⟩
  · exact h.noted _
  · have hstart : InPages { ide with initialised := true } := ⟨h.whole, h.paged⟩
    refine IdeM.initControllers_induction (P := fun _ => InPages) (fun hb hstep => ?_) hstart run
    obtain ⟨_, _, _, _, hreset, hmaster, hslave⟩ := IdeM.initController_eq_ok hstep
    exact ((hb.reset hreset).probed (IdeM.probe_eq_ok hmaster)).probed (IdeM.probe_eq_ok hslave)

end Ide

end PolledAta
