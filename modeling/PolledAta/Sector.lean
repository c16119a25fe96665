import PolledAta.Buffer
import PolledAta.Session
import PolledAta.Word

/-!
Moving one sector through the data port. The port presents each word with its bytes in the opposite order to the
processor, so a word is swapped on its way; buffers hold the order of the disk.
-/

namespace PolledAta

def sectorSize : Nat := 512
def sectorWords : Nat := 256

abbrev Sector := Vector UInt8 512

namespace Sector

/-- A swapped word is stored with its high byte first. -/
def ofWords (words : Vector UInt16 256) : Sector :=
  Vector.ofFn fun i =>
    let word := Word.swap words[i.val / 2]
    if i.val % 2 = 0 then Word.high word else Word.low word

theorem first_lt (i : Fin 256) : 2 * i.val < 512 := by omega

theorem second_lt (i : Fin 256) : 2 * i.val + 1 < 512 := by omega

def words (sector : Sector) : Vector UInt16 256 :=
  Vector.ofFn fun i => Word.swap (Word.bigEndian (getElem sector (2 * i.val) (first_lt i))
    (getElem sector (2 * i.val + 1) (second_lt i)))

end Sector

def Buffer.sector? (buffer : Buffer) (offset : Nat) : Option Sector :=
  if h : offset + 512 ≤ buffer.size then some (Vector.ofFn fun i => buffer[offset + i.val]) else none

namespace BusM

variable {δ κ : Type} [Wiring δ κ]

def readWords : (n : Nat) → TimedBusM δ κ (Vector UInt16 n)
  | 0 => return #v[]
  | n + 1 => do
    let words ← readWords n
    return words.push (← readData)

def writeWords : List UInt16 → TimedBusM δ κ Unit
  | [] => return ()
  | word :: words => do
    writeData word
    writeWords words

def readSector : TimedBusM δ κ Sector := return .ofWords (← readWords 256)

def writeSector (sector : Sector) : TimedBusM δ κ Unit := writeWords sector.words.toList

def fillSector (buffer : Buffer) (offset : Nat) : TimedBusM δ κ Buffer := do
  if offset + sectorSize ≤ buffer.size then
    return buffer.put offset (← readSector).toList
  throw .outOfRange

def sendSector (buffer : Buffer) (offset : Nat) : TimedBusM δ κ Unit :=
  match buffer.sector? offset with
  | some sector => writeSector sector
  | none => throw .outOfRange

end BusM

end PolledAta
