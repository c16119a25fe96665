import PolledAta.Ide.Volume
import PolledAta.Proofs.Discovery

/-!
# Volumes as devices of blocks

A volume takes as many blocks as its buffer holds, counted in 32 bits, to the addresses that 28 bits name.
-/

namespace PolledAta

open Emulator

variable {ide : Ide Channel} {index : Nat} {volume : Volume} {disk : Disk} {controller : Controller Channel}
  {drive : Drive}

namespace Volume

theorem index_of_volume? (h : ide.volume? index = some volume) : volume.index = index := by
  obtain ⟨_, _, rfl⟩ := Option.map_eq_some_iff.mp h
  rfl

theorem blocksIn_mul (n : Nat) : blocksIn (n * sectorSize) = .ok (UInt32.ofNat n) := by
  unfold blocksIn
  rw [if_pos (Nat.mul_mod_left ..), Nat.mul_div_cancel _ (by decide)]

theorem readBlocks_eq {buffer : Buffer} {n : Nat} (h : buffer.size = n * sectorSize) (volume : Volume) (lba : UInt32) :
    volume.readBlocks lba buffer =
      (IdeM.readSectors volume.index buffer lba (UInt32.ofNat n) : IdeM Channel _) := by
  rw [readBlocks, h, blocksIn_mul]

theorem writeBlocks_eq {buffer : Buffer} {n : Nat} (h : buffer.size = n * sectorSize) (volume : Volume)
    (lba : UInt32) :
    volume.writeBlocks lba buffer =
      (IdeM.writeSectors volume.index buffer lba (UInt32.ofNat n) : IdeM Channel _) := by
  rw [writeBlocks, h, blocksIn_mul]

theorem inReach_ofNat_iff {sectors : Nat} (hS : sectors ≤ 2 ^ 28) {lba : UInt32} {n : Nat} (hn : 1 ≤ n)
    (h : lba.toNat + n ≤ 2 ^ 28) : InReach sectors lba (UInt32.ofNat n) ↔ lba.toNat + n ≤ sectors := by
  have hcount : (UInt32.ofNat n).toNat = n := by
    rw [UInt32.toNat_ofNat', Nat.mod_eq_of_lt (by omega)]
  have hne : UInt32.ofNat n ≠ 0 := fun h0 => by
    rw [h0] at hcount
    exact absurd hcount.symm (Nat.ne_of_gt hn)
  rw [inReach_iff hS hne (by rwa [hcount]), hcount]

theorem bytes_le {lba : UInt32} {n : Nat} {payload : Payload} (h : payload.buffer.size = n * sectorSize) :
    Request.bytes ⟨index, lba, UInt32.ofNat n, payload⟩ ≤ payload.buffer.size := by
  rw [h, Request.bytes, UInt32.toNat_ofNat']
  exact Nat.mul_le_mul_right _ (Nat.mod_le ..)

/-- The blocks that a volume moves, and when it answers without an error: the count of the blocks is kept in 32 bits and
their addresses in 28, and within these the range has to lie on the drive. -/
theorem moves_blocks (hv : ide.volume? index = some volume) (hd : ide.table.get? index = some disk)
    (hs : ide.Stands disk controller drive .idle) (hS : drive.sectorCount ≤ 2 ^ 28) (lba : UInt32) {n : Nat}
    {buffer : Buffer} (hb : buffer.size = n * volume.blockSize) :
    (∃ result buffer' ide', volume.readBlocks lba buffer ide = .ok ((result, buffer'), ide') ∧
      (result = .ok () ↔ InReach drive.sectorCount lba (UInt32.ofNat n)) ∧
      (result = .ok () →
        buffer.Filled 0 (n % 2 ^ 32)
          (fun i => ide.sectors disk.controller disk.slot ((lba.toNat + i) % 2 ^ 28)) buffer' ∧
        ide'.sectors = ide.sectors)) ∧
    (∃ result ide', volume.writeBlocks lba buffer ide = .ok (result, ide') ∧
      (result = .ok () ↔ InReach drive.sectorCount lba (UInt32.ofNat n)) ∧
      (result = .ok () →
        Overwritten (ide.sectors disk.controller disk.slot) (fun i => (lba.toNat + i) % 2 ^ 28) (n % 2 ^ 32)
          (fun i => buffer.sector? (i * sectorSize)) (ide'.sectors disk.controller disk.slot) ∧
        ∀ other slot, (other, slot) ≠ (disk.controller, disk.slot) →
          ide'.sectors other slot = ide.sectors other slot)) ∧
    (1 ≤ n → lba.toNat + n ≤ 2 ^ 28 →
      (InReach drive.sectorCount lba (UInt32.ofNat n) ↔ lba.toNat + n ≤ drive.sectorCount)) := by
  obtain rfl := index_of_volume? hv
  refine ⟨?_, ?_, fun hn hle => inReach_ofNat_iff hS hn hle⟩
  · have hd : ide.table.get? (Request.mk volume.index lba (UInt32.ofNat n) (.read buffer)).index = some disk := hd
    obtain ⟨result, buffer', session, drive', phase, hrun, hturned, hiff, hmoved⟩ :=
      Request.perform_answered hd hs (bytes_le hb) hS
    have hread : volume.readBlocks lba buffer ide =
        .ok ((result, buffer'), ide.worked disk.controller controller session) := by
      rw [readBlocks_eq hb]
      exact hrun
    refine ⟨result, buffer', _, hread, hiff, fun hok => ?_⟩
    obtain ⟨hfilled, hsame⟩ := (hmoved hok).of_read
    rw [hs.sectors_eq]
    rw [UInt32.toNat_ofNat'] at hfilled
    exact ⟨hfilled, hs.sectors_worked_eq hturned hsame⟩
  · have hd : ide.table.get? (Request.mk volume.index lba (UInt32.ofNat n) (.write buffer)).index = some disk := hd
    obtain ⟨result, buffer', session, drive', phase, hrun, hturned, hiff, hmoved⟩ :=
      Request.perform_answered hd hs (bytes_le hb) hS
    have hwrite : volume.writeBlocks lba buffer ide =
        .ok (result, ide.worked disk.controller controller session) := by
      rw [writeBlocks_eq hb]
      exact (Request.writeSectors_of_perform hrun).1
    refine ⟨result, _, hwrite, hiff, fun hok => ?_⟩
    obtain ⟨hwritten, _⟩ := (hmoved hok).of_write
    rw [hs.sectors_eq, hs.sectors_worked hturned]
    rw [UInt32.toNat_ofNat'] at hwritten
    exact ⟨hwritten, fun other slot hne => hs.sectors_worked_of_ne hturned hne⟩

theorem sample_moves_blocks : ∃ (ide ide' : Ide Channel) (volume : Volume) (buffer' : Buffer),
    ide.volume? 0 = some volume ∧ volume.readBlocks 1 (.replicate 512 7) ide = .ok ((.ok (), buffer'), ide') ∧
      ide'.sectors = ide.sectors := by
  obtain ⟨ide, disk, controller, drive, _, hd, hs, hcount⟩ := Ide.exists_stands_sample
  have hv : ide.volume? 0 = some ⟨0, disk.info.sectors.toNat⟩ := by rw [Ide.volume?, hd]; rfl
  have hsize : (Array.replicate 512 7 : Buffer).size = 1 * 512 := Array.size_replicate ..
  have hS : drive.sectorCount ≤ 2 ^ 28 := by rw [hcount]; decide
  obtain ⟨⟨result, buffer', ide', hread, hiff, hmoved⟩, _, hinside⟩ := moves_blocks hv hd hs hS 1 hsize
  have hok : result = .ok () := hiff.mpr ((hinside (by decide) (by decide)).mpr (by rw [hcount]; decide))
  obtain ⟨_, hsectors⟩ := hmoved hok
  rw [hok] at hread
  exact ⟨ide, ide', _, buffer', hv, hread, hsectors⟩

/-- Address bits that are not sent: a block far past the end of a drive of two sectors is read without an error. -/
theorem reads_past_the_end : ∃ (ide ide' : Ide Channel) (volume : Volume) (disk : Disk)
    (controller : Controller Channel) (drive : Drive) (buffer' : Buffer),
    ide.volume? 0 = some volume ∧ ide.table.get? 0 = some disk ∧ ide.Stands disk controller drive .idle ∧
      drive.sectorCount ≤ 2 ^ 28 ∧
      volume.readBlocks 0x10000000 (.replicate 512 0) ide = .ok ((.ok (), buffer'), ide') ∧
      ¬(0x10000000 : UInt32).toNat + 1 ≤ drive.sectorCount := by
  obtain ⟨ide, disk, controller, drive, _, hd, hs, hcount⟩ := Ide.exists_stands_sample
  have hv : ide.volume? 0 = some ⟨0, disk.info.sectors.toNat⟩ := by rw [Ide.volume?, hd]; rfl
  have hsize : (Array.replicate 512 0 : Buffer).size = 1 * 512 := Array.size_replicate ..
  have hS : drive.sectorCount ≤ 2 ^ 28 := by rw [hcount]; decide
  have hd' : ide.table.get? (Request.mk 0 0x10000000 1 (.read (.replicate 512 0))).index = some disk := hd
  obtain ⟨result, buffer', session, drive', phase, hrun, _, hiff, _⟩ :=
    Request.perform_answered hd' hs (bytes_le hsize) hS
  have hok : result = .ok () := hiff.mpr (by rw [hcount]; unfold InReach; decide)
  rw [hok] at hrun
  have hread : readBlocks ⟨0, disk.info.sectors.toNat⟩ 0x10000000 (.replicate 512 0) ide =
      .ok ((.ok (), buffer'), ide.worked disk.controller controller session) := by
    rw [readBlocks_eq hsize]
    exact hrun
  exact ⟨ide, _, _, disk, controller, drive, buffer', hv, hd, hs, hS, hread, by rw [hcount]; decide⟩

end Volume

end PolledAta
