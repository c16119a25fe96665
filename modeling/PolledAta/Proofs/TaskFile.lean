import Mathlib.Algebra.Group.Nat.Defs
import PolledAta.Ide.Transfer
import PolledAta.TaskFile

/-!
# Spelling a chunk

The five registers that announce a chunk name its slot, its address without the top four bits, and its count, and nothing
else of it.
-/

namespace PolledAta

/-- The registers that a chunk is announced in. -/
def Register.announcing : List Register := [.device, .lbaHigh, .lbaMid, .lbaLow, .sectorCount]

namespace DriveSlot

/-- The address bits of a device register leave its slot alone. -/
theorem selectBase_or (slot : DriveSlot) :
    ∀ n < 16, ofDevice (slot.selectBase ||| UInt8.ofNat n) = slot ∧
      ((slot.selectBase ||| UInt8.ofNat n) &&& 0x0f).toNat = n := by
  cases slot <;> decide

/-- The upper half of a device register is the mode and the slot, whatever the address bits are. -/
theorem selectBase_or_upper (slot : DriveSlot) :
    ∀ n < 16, (slot.selectBase ||| UInt8.ofNat n).toNat = 0xe0 + 0x10 * slot.number + n ∧
      (slot.selectBase ||| UInt8.ofNat n) &&& 0xf0 = slot.selectBase := by
  cases slot <;> decide

theorem deviceSelect_eq (slot : DriveSlot) (lba : UInt32) :
    slot.deviceSelect lba = slot.selectBase ||| UInt8.ofNat (lba.toNat / 2 ^ 24 % 16) := by
  have hbits : (lba >>> 24 &&& 0x0f).toNat = lba.toNat / 2 ^ 24 % 16 := by
    have hand := Nat.and_two_pow_sub_one_eq_mod (lba >>> 24).toNat 4
    simpa [Nat.shiftRight_eq_div_pow] using hand
  rw [deviceSelect, ← hbits]
  rfl

theorem ofDevice_deviceSelect (slot : DriveSlot) (lba : UInt32) : ofDevice (slot.deviceSelect lba) = slot := by
  rw [deviceSelect_eq]
  exact (selectBase_or slot _ (Nat.mod_lt _ (by decide))).1

theorem deviceSelect_and (slot : DriveSlot) (lba : UInt32) :
    (slot.deviceSelect lba &&& 0x0f).toNat = lba.toNat / 2 ^ 24 % 16 := by
  rw [deviceSelect_eq]
  exact (selectBase_or slot _ (Nat.mod_lt _ (by decide))).2

theorem toNat_deviceSelect (slot : DriveSlot) (lba : UInt32) :
    (slot.deviceSelect lba).toNat = 0xe0 + 0x10 * slot.number + lba.toNat / 2 ^ 24 % 16 := by
  rw [deviceSelect_eq]
  exact (selectBase_or_upper slot _ (Nat.mod_lt _ (by decide))).1

theorem deviceSelect_and_upper (slot : DriveSlot) (lba : UInt32) :
    slot.deviceSelect lba &&& 0xf0 = slot.selectBase := by
  rw [deviceSelect_eq]
  exact (selectBase_or_upper slot _ (Nat.mod_lt _ (by decide))).2

end DriveSlot

/-! ## Addresses -/

/-- The address of sector `i` of a range, for a device that is sent 28 bits of it. -/
def sentAddress (lba : UInt32) (i : Nat) : Nat := (lba.toNat + i) % 2 ^ 28

def Chunk.sentLba (chunk : Chunk) : Nat := sentAddress chunk.lba 0

theorem sentAddress_add (lba sectors : UInt32) (i : Nat) :
    sentAddress (lba + sectors) i = sentAddress lba (sectors.toNat + i) := by
  unfold sentAddress
  rw [UInt32.toNat_add]
  omega

theorem sentAddress_eq_add {lba : UInt32} {i : Nat} (h : sentAddress lba 0 + i < 2 ^ 28) :
    sentAddress lba i = sentAddress lba 0 + i := by
  unfold sentAddress at h ⊢
  omega

theorem sentAddress_eq_of_lt {lba : UInt32} {i : Nat} (h : lba.toNat + i < 2 ^ 28) :
    sentAddress lba i = lba.toNat + i :=
  Nat.mod_eq_of_lt h

namespace Chunk

variable (chunk : Chunk)

theorem deviceSelect_eq_sent (slot : DriveSlot) :
    slot.deviceSelect chunk.lba = slot.selectBase ||| UInt8.ofNat (chunk.sentLba / 2 ^ 24) := by
  have hbits : chunk.lba.toNat / 2 ^ 24 % 16 = chunk.sentLba / 2 ^ 24 := by
    rw [sentLba, sentAddress]
    omega
  rw [DriveSlot.deviceSelect_eq, hbits]

/-- A byte that lies below bit 28 is made from bits that are sent. -/
theorem toUInt8_shiftRight_eq_sent (shift : UInt32) (h : shift.toNat + 8 ≤ 28) :
    (chunk.lba >>> shift).toUInt8 = UInt8.ofNat (chunk.sentLba / 2 ^ shift.toNat) := by
  have hshift : shift.toNat % 32 = shift.toNat := Nat.mod_eq_of_lt (by omega)
  apply UInt8.toNat_inj.mp
  simp only [UInt32.toNat_toUInt8, UInt32.toNat_shiftRight, UInt8.toNat_ofNat', sentLba, sentAddress, hshift,
    Nat.add_zero]
  apply Nat.eq_of_testBit_eq
  intro i
  simp only [Nat.testBit_mod_two_pow, Nat.testBit_shiftRight, Nat.testBit_div_two_pow, Nat.add_comm i]
  by_cases hi : i < 8
  · have hsent : shift.toNat + i < 28 := by omega
    simp [hi, hsent]
  · simp [hi]

theorem toUInt8_shiftRight_congr {chunk chunk' : Chunk} (h : chunk.sentLba = chunk'.sentLba) (shift : UInt32)
    (inside : shift.toNat + 8 ≤ 28) : (chunk.lba >>> shift).toUInt8 = (chunk'.lba >>> shift).toUInt8 := by
  rw [toUInt8_shiftRight_eq_sent chunk shift inside, h, toUInt8_shiftRight_eq_sent chunk' shift inside]

end Chunk

/-! ## Registers -/

namespace TaskFile

variable (file : TaskFile) (slot : DriveSlot) (chunk : Chunk)

def spell : TaskFile :=
  ((((file.set .device (slot.deviceSelect chunk.lba)).set .lbaHigh (chunk.lba >>> 16).toUInt8).set
    .lbaMid (chunk.lba >>> 8).toUInt8).set .lbaLow chunk.lba.toUInt8).set .sectorCount chunk.countRegister

theorem get_spell :
    (file.spell slot chunk).get .device = slot.deviceSelect chunk.lba ∧
      (file.spell slot chunk).get .lbaHigh = (chunk.lba >>> 16).toUInt8 ∧
      (file.spell slot chunk).get .lbaMid = (chunk.lba >>> 8).toUInt8 ∧
      (file.spell slot chunk).get .lbaLow = chunk.lba.toUInt8 ∧
      (file.spell slot chunk).get .sectorCount = chunk.countRegister := by
  simp [spell, get_set_of_ne]

theorem slot_spell : (file.spell slot chunk).slot = slot := by
  obtain ⟨hdevice, _⟩ := get_spell file slot chunk
  rw [TaskFile.slot, hdevice, DriveSlot.ofDevice_deviceSelect]

theorem lba_spell : (file.spell slot chunk).lba = chunk.sentLba := by
  obtain ⟨hdevice, hhigh, hmid, hlow, _⟩ := get_spell file slot chunk
  rw [lba, hdevice, hhigh, hmid, hlow, DriveSlot.deviceSelect_and, Chunk.sentLba, sentAddress]
  simp only [UInt32.toNat_toUInt8, UInt32.toNat_shiftRight, Nat.shiftRight_eq_div_pow,
    show UInt32.toNat 16 % 32 = 16 from rfl, show UInt32.toNat 8 % 32 = 8 from rfl]
  omega

/-- A count of 256 is sent as 0, and read back as 256. -/
theorem sectorCount_of_get (hcount : file.get .sectorCount = chunk.countRegister) (one_le : 1 ≤ chunk.sectors.toNat)
    (le : chunk.sectors.toNat ≤ 256) : file.sectorCount = chunk.sectors.toNat := by
  have hnat : chunk.countRegister.toNat = chunk.sectors.toNat % 256 := by
    simp [Chunk.countRegister, maxSectorsPerCommand]
  rw [sectorCount, hcount]
  split
  · rename_i hzero
    rw [hzero] at hnat
    have hnat : chunk.sectors.toNat % 256 = 0 := hnat.symm
    omega
  · rename_i hne
    have hne : chunk.countRegister.toNat ≠ 0 := fun h => hne (UInt8.toNat_inj.mp h)
    omega

theorem sectorCount_spell (one_le : 1 ≤ chunk.sectors.toNat) (le : chunk.sectors.toNat ≤ 256) :
    (file.spell slot chunk).sectorCount = chunk.sectors.toNat := by
  obtain ⟨_, _, _, _, hcount⟩ := get_spell file slot chunk
  exact sectorCount_of_get _ chunk hcount one_le le

variable {file slot chunk} {other : TaskFile} {slot' : DriveSlot} {chunk' : Chunk}

/-- An announcement leaves the other registers alone. -/
theorem get_spell_of_notMem {reg : Register} (h : reg ∉ Register.announcing) :
    (file.spell slot chunk).get reg = file.get reg := by
  cases reg with
  | error | status | control => simp [spell, get_set_of_ne]
  | _ => simp [Register.announcing] at h

/-- The registers tell apart what a device is sent, and nothing else. -/
theorem spell_eq_spell_iff (kept : ∀ reg ∉ Register.announcing, file.get reg = other.get reg) :
    file.spell slot chunk = other.spell slot' chunk' ↔
      slot = slot' ∧ chunk.sentLba = chunk'.sentLba ∧ chunk.countRegister = chunk'.countRegister := by
  constructor
  · intro h
    refine ⟨?slots, ?addresses, ?counts⟩
    case slots => rw [← file.slot_spell slot chunk, h, slot_spell]
    case addresses => rw [← file.lba_spell slot chunk, h, lba_spell]
    case counts =>
      have hcount := congrArg (get · .sectorCount) h
      simpa only [(get_spell ..).2.2.2.2] using hcount
  · rintro ⟨rfl, haddress, hcount⟩
    obtain ⟨hdevice, hhigh, hmid, hlow, hsectors⟩ := get_spell file slot chunk
    obtain ⟨hdevice', hhigh', hmid', hlow', hsectors'⟩ := get_spell other slot chunk'
    apply eq_of_get_eq
    intro reg
    cases reg with
    | device => rw [hdevice, hdevice', chunk.deviceSelect_eq_sent, chunk'.deviceSelect_eq_sent, haddress]
    | lbaHigh => rw [hhigh, hhigh', Chunk.toUInt8_shiftRight_congr haddress 16 (by decide)]
    | lbaMid => rw [hmid, hmid', Chunk.toUInt8_shiftRight_congr haddress 8 (by decide)]
    | lbaLow =>
        have hbyte := Chunk.toUInt8_shiftRight_congr haddress 0 (by decide)
        rw [UInt32.shiftRight_zero, UInt32.shiftRight_zero] at hbyte
        rw [hlow, hlow', hbyte]
    | sectorCount => rw [hsectors, hsectors', hcount]
    | error | status | control =>
        rw [get_spell_of_notMem (by decide), get_spell_of_notMem (by decide)]
        exact kept _ (by decide)

end TaskFile

end PolledAta
