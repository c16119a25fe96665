import PolledAta.Proofs.Survey

/-!
# Exact discovery

Which drives a start registers and what it keeps of each, read off the bytes of their pages; and the commands that it
sends to find them out.
-/

namespace PolledAta

open Emulator

/-! ## Reading a page -/

namespace Identify

theorem or_shiftLeft {low width : Nat} (h : low < 2 ^ width) (high : Nat) :
    low ||| high <<< width = low + 2 ^ width * high := by
  rw [Nat.or_comm, ← Nat.shiftLeft_add_eq_or_of_lt h, Nat.shiftLeft_eq, Nat.add_comm, Nat.mul_comm]

theorem toNat_shiftLeft_byte (byte : UInt8) {width : UInt32} (h : width.toNat ≤ 24) :
    (byte.toUInt32 <<< width).toNat = byte.toNat <<< width.toNat := by
  have hbyte : byte.toNat < 2 ^ 8 := byte.toNat_lt
  have hfits : byte.toNat * 2 ^ width.toNat < 2 ^ 8 * 2 ^ 24 :=
    Nat.mul_lt_mul_of_lt_of_le hbyte (Nat.pow_le_pow_right (by decide) h) (by decide)
  rw [UInt32.toNat_shiftLeft, UInt8.toNat_toUInt32, Nat.mod_eq_of_lt (by omega : width.toNat < 32), Nat.shiftLeft_eq]
  exact Nat.mod_eq_of_lt hfits

/-- Four bytes, the lowest first. -/
theorem toNat_fourBytes (b₀ b₁ b₂ b₃ : UInt8) :
    (b₀.toUInt32 ||| (b₁.toUInt32 <<< 8) ||| (b₂.toUInt32 <<< 16) ||| (b₃.toUInt32 <<< 24)).toNat =
      b₀.toNat + 2 ^ 8 * b₁.toNat + 2 ^ 16 * b₂.toNat + 2 ^ 24 * b₃.toNat := by
  have h₀ : b₀.toNat < 2 ^ 8 := b₀.toNat_lt
  have h₁ : b₁.toNat < 2 ^ 8 := b₁.toNat_lt
  have h₂ : b₂.toNat < 2 ^ 8 := b₂.toNat_lt
  have h₁₀ : b₀.toNat + 2 ^ 8 * b₁.toNat < 2 ^ 16 := by omega
  have h₂₁₀ : b₀.toNat + 2 ^ 8 * b₁.toNat + 2 ^ 16 * b₂.toNat < 2 ^ 24 := by omega
  rw [UInt32.toNat_or, UInt32.toNat_or, UInt32.toNat_or, toNat_shiftLeft_byte _ (by decide),
    toNat_shiftLeft_byte _ (by decide), toNat_shiftLeft_byte _ (by decide), UInt8.toNat_toUInt32]
  rw [show (8 : UInt32).toNat = 8 from rfl, show (16 : UInt32).toNat = 16 from rfl,
    show (24 : UInt32).toNat = 24 from rfl, or_shiftLeft h₀, or_shiftLeft h₁₀, or_shiftLeft h₂₁₀]

namespace Page

variable (page : Page)

theorem supportsLba_eq : page.supportsLba = (page.bytes.get 99).toNat.testBit 1 := by
  have hbit : page.supportsLba = (page.bytes.get 99 &&& lbaCapable != 0) := rfl
  have hand : (page.bytes.get 99 &&& lbaCapable).toNat = ((page.bytes.get 99).toNat.testBit 1).toNat * 2 ^ 1 := by
    rw [UInt8.toNat_and]
    exact Nat.and_two_pow (page.bytes.get 99).toNat 1
  rw [hbit, Bool.eq_iff_iff, bne_iff_ne, ne_eq, ← UInt8.toNat_inj, hand]
  cases (page.bytes.get 99).toNat.testBit 1 <;> simp

theorem toNat_capacity : page.capacity.toNat = (page.bytes.get 120).toNat + 2 ^ 8 * (page.bytes.get 121).toNat +
    2 ^ 16 * (page.bytes.get 122).toNat + 2 ^ 24 * (page.bytes.get 123).toNat :=
  toNat_fourBytes ..

theorem decode_eq_field (span : Span) (h : span.offset + span.width ≤ 512) :
    Field.decode page.bytes.toList span.offset span.width = .ok (page.field span) := by
  rw [Field.decode, if_pos (h.trans_eq page.bytes.length_toList.symm), field]

end Page

end Identify

namespace Ide

theorem hasLba_eq (ide : Ide Channel) : ide.hasLba = fun place =>
    (ide.drive? place.1 place.2).any fun drive => (drive.page.bytes.get 99).toNat.testBit 1 := by
  funext place
  simp only [hasLba, Identify.Page.supportsLba_eq]

/-! ## What a start sends -/

theorem enquiries_slotsBelow (origin : Ide Channel) (size index : Nat) :
    origin.enquiries (slotsBelow size) index =
      if index < size then DriveSlot.both.flatMap fun slot => enquiry slot (origin.drive? index slot) else [] := by
  induction size with
  | zero => rfl
  | succ size ih =>
      rw [slotsBelow_succ, enquiries, List.flatMap_append, List.flatMap_append, ← enquiries, ih]
      by_cases hlast : size = index
      · subst hlast
        simp [DriveSlot.both]
      · have hlt : index < size + 1 ↔ index < size := by omega
        rw [if_congr hlt rfl rfl]
        simp [hlast]

theorem flatMap_enquiry (origin : Ide Channel) (index : Nat) :
    (DriveSlot.both.flatMap fun slot => enquiry slot (origin.drive? index slot)) =
      (DriveSlot.both.filter fun slot => (origin.drive? index slot).isSome).map fun slot =>
        (slot, Command.identify) := by
  simp only [DriveSlot.both, enquiry, List.flatMap_cons, List.flatMap_nil, List.filter_cons, List.filter_nil]
  cases origin.drive? index .master <;> cases origin.drive? index .slave <;> rfl

theorem surveyed_fresh {controllers : Array (Controller Channel)} {clock : Clock} (maxDisks : Nat) (settings : Settings)
    (healthy : ∀ controller ∈ controllers, controller.device.faults = .none) (moving : clock.Moving) :
    (fresh controllers maxDisks clock settings).Surveyed 0 (slotsBelow 0)
      { fresh controllers maxDisks clock settings with initialised := true } where
  size := rfl
  moving := moving
  faults _ _ hc := healthy _ (Array.mem_of_getElem? hc)
  idle _ _ hlt _ := absurd hlt (Nat.not_lt_zero _)
  drives := rfl
  commands _ _ := rfl

theorem listed_fresh (controllers : Array (Controller Channel)) (maxDisks : Nat) (clock : Clock) (settings : Settings) :
    (fresh controllers maxDisks clock settings).Listed maxDisks (slotsBelow 0)
      (fresh controllers maxDisks clock settings).table where
  dense := DiskTable.dense_empty maxDisks
  capacity := rfl
  places := by simp [slotsBelow, fresh, DiskTable.disks, DiskTable.empty]
  entries k disk hk := by simp [fresh] at hk

end Ide

/-! ## The disks found -/

/-- Whatever is left unfinished on channels without faults, a start succeeds. It registers, as far as there is room, the
drives with LBA addressing in the order of their controllers and slots, with the numbers and names of their pages. Each
drive is sent one command, to identify itself. No drive changes, and every channel is idle afterwards. -/
theorem discovery_is_exact {controllers : Array (Controller Channel)} {maxDisks : Nat} {clock : Clock}
    {settings : Settings} {origin : Ide Channel} (fresh : origin = .fresh controllers maxDisks clock settings)
    (healthy : ∀ controller ∈ controllers, controller.device.faults = .none) (capacity : maxDisks ≤ 80)
    (moving : clock.Moving) :
    ∃ ide, IdeM.init origin = .ok ((), ide) ∧
      ide.table.disks.toList.map (fun disk => (disk.controller, disk.slot)) =
        ((slotsBelow controllers.size).filter fun place =>
          (origin.drive? place.1 place.2).any fun drive => (drive.page.bytes.get 99).toNat.testBit 1).take maxDisks ∧
      (∀ i disk, ide.table.get? i = some disk → disk.index = i ∧ disk.status = .uninitialized ∧
        ∃ drive, origin.drive? disk.controller disk.slot = some drive ∧
          disk.info.sectors.toNat = (drive.page.bytes.get 120).toNat + 2 ^ 8 * (drive.page.bytes.get 121).toNat +
            2 ^ 16 * (drive.page.bytes.get 122).toNat + 2 ^ 24 * (drive.page.bytes.get 123).toNat ∧
          Identify.Field.decode drive.page.bytes.toList 54 40 = .ok disk.info.model ∧
          Identify.Field.decode drive.page.bytes.toList 20 20 = .ok disk.info.serial ∧
          Identify.Field.decode drive.page.bytes.toList 46 8 = .ok disk.info.firmware) ∧
      (∀ i < controllers.size, ∀ selected, commands selected (ide.cycles i) =
        (DriveSlot.both.filter fun slot => (origin.drive? i slot).isSome).map fun slot => (slot, Command.identify)) ∧
      ide.drive? = origin.drive? ∧ ide.controllers.size = controllers.size ∧
      ∀ controller ∈ ide.controllers, controller.device.phase = .idle := by
  subst fresh
  obtain ⟨ide, hrun, hsurveyed, hlisted⟩ := (Ide.surveyed_fresh maxDisks settings healthy moving).initControllers
    (Ide.listed_fresh controllers maxDisks clock settings) capacity (Nat.zero_add controllers.size)
  refine ⟨ide, ?_, ?_, ?_, ?_, hsurveyed.drives, hsurveyed.size, ?_⟩
  · rw [← List.range_eq_range'] at hrun
    exact hrun
  · rw [hlisted.places, Ide.hasLba_eq]
    rfl
  · intro i disk hd
    obtain ⟨hindex, hstatus, drive, hdrive, hinfo⟩ := hlisted.entries i disk hd
    refine ⟨hindex, hstatus, drive, hdrive, ?_⟩
    rw [hinfo]
    exact ⟨drive.page.toNat_capacity, drive.page.decode_eq_field Identify.modelSpan (by decide),
      drive.page.decode_eq_field Identify.serialSpan (by decide),
      drive.page.decode_eq_field Identify.firmwareSpan (by decide)⟩
  · intro i hi selected
    have hi : i < (Ide.fresh controllers maxDisks clock settings).controllers.size := hi
    rw [hsurveyed.commands, Ide.enquiries_slotsBelow, if_pos hi, Ide.flatMap_enquiry]
  · intro controller hmem
    obtain ⟨i, hi, hc⟩ := Array.mem_iff_getElem.mp hmem
    exact hsurveyed.idle i controller (hi.trans_eq hsurveyed.size) (hc ▸ Array.getElem?_eq_getElem hi)

theorem sample_discovered : ∃ ide, (∀ controller ∈ Ide.sample.controllers, controller.device.faults = .none) ∧
    1 ≤ 80 ∧ Ide.sample.clock.Moving ∧ IdeM.init Ide.sample = .ok ((), ide) ∧
    ide.table.disks.toList.map (fun disk => (disk.controller, disk.slot)) = [(0, .master)] ∧
    ∀ selected, commands selected (ide.cycles 0) = [(.master, Command.identify)] := by
  have healthy : ∀ controller ∈ Ide.sample.controllers, controller.device.faults = .none :=
    fun controller hc => (Ide.healthy_sample controller hc).1
  have moving : Ide.sample.clock.Moving := ⟨by decide, by decide⟩
  obtain ⟨ide, started, hplaces, _, hcommands, _⟩ := discovery_is_exact rfl healthy (by decide : 1 ≤ 80) moving
  exact ⟨ide, healthy, by decide, moving, started, hplaces.trans (by decide), hcommands 0 (by decide)⟩

end PolledAta
