import PolledAta.Proofs.Served
import PolledAta.Proofs.Transfer

/-!
# Chunks as a channel takes them

Five writes announce a chunk. Afterwards the channel works with the slot, the count and the 28 bits of the address that
were meant, and with nothing else of the chunk.
-/

namespace PolledAta

open Emulator

variable {κ : Type}

theorem Emulator.Channel.selectSectors_announces (s : Session Channel κ) (slot : DriveSlot) (chunk : Chunk) :
    ∃ t, BusM.selectSectors slot chunk s = .ok ((), t) ∧ t.device = s.device.announced slot chunk ∧
      t.cycles = s.cycles ++ selectCycles slot chunk := by
  refine ⟨_, rfl, rfl, ?_⟩
  simp [Session.cycles, selectCycles, Event.cycle?]

/--
Whatever a channel held before, once a chunk is announced it has selected the slot, and reads the low 28 bits of the
address and the number of sectors. Its device register holds the mode and the slot above four bits of the address.
Where the other registers are the same, chunks of one size leave the same task file exactly if they name the same sectors
of the same slot.
-/
theorem chunk_arrives_as_announced (s : Session Channel κ) (slot : DriveSlot) (chunk : Chunk)
    (one_le : 1 ≤ chunk.sectors.toNat) (le : chunk.sectors.toNat ≤ 256) :
    ∃ t, BusM.selectSectors slot chunk s = .ok ((), t) ∧ t.cycles = s.cycles ++ selectCycles slot chunk ∧
      t.device = { s.device with taskFile := t.device.taskFile, latch := t.device.latch } ∧
      (∀ reg ∉ Register.announcing, t.device.taskFile.get reg = s.device.taskFile.get reg) ∧
      t.device.latch = slot ∧ t.device.taskFile.slot = slot ∧ t.device.selected = s.device.drive slot ∧
      t.device.taskFile.lba = chunk.lba.toNat % 2 ^ 28 ∧ t.device.taskFile.sectorCount = chunk.sectors.toNat ∧
      (t.device.taskFile.get .device).toNat = 0xe0 + 0x10 * slot.number + chunk.lba.toNat / 2 ^ 24 % 16 ∧
      t.device.taskFile.get .device &&& 0xf0 = slot.selectBase ∧
      ∀ (u : Session Channel κ) (slot' : DriveSlot) (chunk' : Chunk), chunk'.sectors = chunk.sectors →
        (∀ reg ∉ Register.announcing, u.device.taskFile.get reg = s.device.taskFile.get reg) →
        ∃ v, BusM.selectSectors slot' chunk' u = .ok ((), v) ∧
          (v.device.taskFile = t.device.taskFile ∧ v.device.latch = t.device.latch ↔
            slot' = slot ∧ chunk'.lba.toNat % 2 ^ 28 = chunk.lba.toNat % 2 ^ 28) := by
  obtain ⟨t, hrun, hdevice, hcycles⟩ := Channel.selectSectors_announces s slot chunk
  have hfile : t.device.taskFile = s.device.taskFile.spell slot chunk := by rw [hdevice, Channel.announced]
  have hregister : t.device.taskFile.get .device = slot.deviceSelect chunk.lba := by
    rw [hfile, (TaskFile.get_spell ..).1]
  refine ⟨t, hrun, hcycles, ?alone, ?kept, ?latch, ?position, ?selected, ?address, ?count, ?register, ?upper, ?apart⟩
  case alone => rw [hdevice, Channel.announced]
  case kept =>
    intro reg h
    rw [hfile, TaskFile.get_spell_of_notMem h]
  case latch => rw [hdevice, Channel.latch_announced]
  case position => rw [hfile, TaskFile.slot_spell]
  case selected =>
    rw [Channel.selected, hdevice, Channel.latch_announced]
    rfl
  case address =>
    rw [hfile, TaskFile.lba_spell]
    rfl
  case count => rw [hfile, TaskFile.sectorCount_spell _ _ _ one_le le]
  case register => rw [hregister, DriveSlot.toNat_deviceSelect]
  case upper => rw [hregister, DriveSlot.deviceSelect_and_upper]
  case apart =>
    intro u slot' chunk' hsize kept
    obtain ⟨v, hrun', hdevice', _⟩ := Channel.selectSectors_announces u slot' chunk'
    have hfile' : v.device.taskFile = u.device.taskFile.spell slot' chunk' := by rw [hdevice', Channel.announced]
    have hcount : chunk'.countRegister = chunk.countRegister := by rw [Chunk.countRegister, hsize, Chunk.countRegister]
    refine ⟨v, hrun', ?_⟩
    rw [hfile, hfile', TaskFile.spell_eq_spell_iff kept, hdevice, hdevice', Channel.latch_announced,
      Channel.latch_announced]
    simp only [hcount, and_true]
    exact and_iff_left_of_imp And.left

/-- A channel with the slave selected, all of whose registers are full after a command that was refused. -/
def sampleFull : Session Channel where
  device := { Channel.idle none none .none with taskFile := ⟨.replicate 8 0xff⟩, latch := .slave, phase := .failed }
  clock := ⟨.hz200, 0, 1⟩
  history := #[]

theorem sample_chunk_arrives :
    ∃ t, BusM.selectSectors .master ⟨0xf1234567, 256⟩ sampleFull = .ok ((), t) ∧
      t.device.latch = .master ∧ t.device.taskFile.slot = .master ∧ t.device.taskFile.lba = 0x1234567 ∧
      t.device.taskFile.sectorCount = 256 ∧ (t.device.taskFile.get .device).toNat = 0xe1 ∧
      ∃ v, BusM.selectSectors .master ⟨0x71234567, 256⟩ sampleFull = .ok ((), v) ∧
        v.device.taskFile = t.device.taskFile := by
  obtain ⟨t, hrun, _, _, _, hlatch, hslot, _, hlba, hcount, hregister, _, hapart⟩ :=
    chunk_arrives_as_announced sampleFull .master ⟨0xf1234567, 256⟩ (by decide) (by decide)
  obtain ⟨v, hrun', hsame⟩ := hapart sampleFull .master ⟨0x71234567, 256⟩ rfl fun _ _ => rfl
  exact ⟨t, hrun, hlatch, hslot, hlba, hcount, hregister, v, hrun', (hsame.mpr ⟨rfl, by decide⟩).1⟩

end PolledAta
