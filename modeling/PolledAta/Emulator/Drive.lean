import PolledAta.Identify.Page

/-!
A drive in memory: its identify page and its sectors.
-/

namespace PolledAta.Emulator

structure Drive where
  page : Identify.Page
  image : Buffer

def Drive.sectorCount (drive : Drive) : Nat := drive.image.size / sectorSize

def Drive.sector? (drive : Drive) (sector : Nat) : Option Sector :=
  drive.image.sector? (sector * sectorSize)

def Drive.words (drive : Drive) (lba count : Nat) : List UInt16 :=
  (List.range (count * sectorWords)).map fun i =>
    Word.littleEndian (drive.image.getD (lba * sectorSize + 2 * i) 0)
      (drive.image.getD (lba * sectorSize + 2 * i + 1) 0)

def pageWords (page : Identify.Page) : List UInt16 :=
  (List.finRange 256).map fun i =>
    Word.littleEndian (getElem page.bytes (2 * i.val) (Sector.first_lt i))
      (getElem page.bytes (2 * i.val + 1) (Sector.second_lt i))

def numberBytes (n : UInt32) : List UInt8 :=
  [n.toUInt8, (n >>> 8).toUInt8, (n >>> 16).toUInt8, (n >>> 24).toUInt8]

/-- The page of a drive with LBA addressing. A model of more than 40 bytes does not fit. -/
def makePage (model : String) (sectors : UInt32) : Except Fault Identify.Page := do
  let serial ← Identify.Field.encode Identify.serialSpan.width "MOCK0001"
  let firmware ← Identify.Field.encode Identify.firmwareSpan.width "1.0"
  let model ← Identify.Field.encode Identify.modelSpan.width model
  let page : Buffer := Array.replicate 512 0
  let page := page.put Identify.serialSpan.offset serial
  let page := page.put Identify.firmwareSpan.offset firmware
  let page := page.put Identify.modelSpan.offset model
  let page := page.put (Identify.capabilityOffset + 1) [Identify.lbaCapable]
  let page := page.put Identify.capacityOffset (numberBytes sectors)
  return ⟨Vector.ofFn fun i => page.getD i.val 0⟩

end PolledAta.Emulator
