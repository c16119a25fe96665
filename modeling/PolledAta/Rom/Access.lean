import PolledAta.AddressSpace
import PolledAta.Fault

/-!
Programs of the boot, and what they do to the hardware, access by access.
-/

namespace PolledAta.Rom

inductive Access where
  | readByte (address : Nat) (value : UInt8)
  | writeByte (address : Nat) (value : UInt8)
  | readWord (address : Nat) (value : Option UInt16)
  | writeWord (address : Nat) (value : UInt16)
  /-- Interrupts up to this level are held back from now on. -/
  | interruptMask (level : Nat)
  deriving DecidableEq

abbrev BootM (κ : Type) := StateT κ (Except Fault)

namespace BootM

variable {κ : Type} [AddressSpace κ]

def readByte (address : Nat) : BootM κ UInt8 := fun space => .ok (AddressSpace.readByte space address)

def writeByte (address : Nat) (value : UInt8) : BootM κ Unit := fun space =>
  .ok ((), AddressSpace.writeByte space address value)

end BootM

end PolledAta.Rom
