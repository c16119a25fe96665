import PolledAta.Ide.Transfer

/-!
A registered disk as a device of equal blocks.
-/

namespace PolledAta

structure Volume where
  index : Nat
  blockCount : Nat
  deriving DecidableEq

def Volume.blockSize (_ : Volume) : Nat := sectorSize

def Ide.volume? {δ κ : Type} (ide : Ide δ κ) (index : Nat) : Option Volume :=
  (ide.table.get? index).map fun disk => ⟨index, disk.info.sectors.toNat⟩

namespace Volume

/-- A buffer is a whole number of blocks. -/
def blocksIn (size : Nat) : Except AtaError UInt32 :=
  if size % sectorSize = 0 then .ok (UInt32.ofNat (size / sectorSize))
  else .error (.badBuffer size ((size / sectorSize + 1) * sectorSize))

variable {δ κ : Type} [Wiring δ κ] [Host κ]

def readBlocks (volume : Volume) (lba : UInt32) (buffer : Buffer) :
    TimedIdeM δ κ (Except AtaError Unit × Buffer) :=
  match blocksIn buffer.size with
  | .error error => return (.error error, buffer)
  | .ok count => IdeM.readSectors volume.index buffer lba count

def writeBlocks (volume : Volume) (lba : UInt32) (buffer : Buffer) :
    TimedIdeM δ κ (Except AtaError Unit) :=
  match blocksIn buffer.size with
  | .error error => return .error error
  | .ok count => IdeM.writeSectors volume.index buffer lba count

end Volume

end PolledAta
