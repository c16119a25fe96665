import PolledAta.Buffer
import PolledAta.Word

/-!
What a program finds at an address: plain memory, or devices.
-/

namespace PolledAta

/-- Bytes and words at addresses. A read may change what is there as much as a write. -/
class AddressSpace (κ : Type) where
  readByte : κ → (address : Nat) → UInt8 × κ
  writeByte : κ → (address : Nat) → UInt8 → κ
  /-- No word is found where nothing drives the data lines. -/
  readWord : κ → (address : Nat) → Option UInt16 × κ
  writeWord : κ → (address : Nat) → UInt16 → κ

/-- Words lie in memory with their low byte first. -/
instance : AddressSpace Buffer where
  readByte memory address := (memory.getD address 0, memory)
  writeByte memory address value := memory.put address [value]
  readWord memory address :=
    (some (Word.littleEndian (memory.getD address 0) (memory.getD (address + 1) 0)), memory)
  writeWord memory address word := memory.put address [Word.low word, Word.high word]

end PolledAta
