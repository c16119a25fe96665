import PolledAta.Register

/-!
What a driver can do with the registers of one channel.
-/

namespace PolledAta

/-- One access, with the value that crossed the bus. -/
inductive Cycle where
  | read (reg : Register) (value : UInt8)
  | write (reg : Register) (value : UInt8)
  /-- No word crosses if nothing drives the data lines. -/
  | readData (word : Option UInt16)
  | writeData (word : UInt16)
  deriving DecidableEq

/-- What the processor takes from the data lines, which read as ones while nothing drives them. -/
def dataLines (driven : Option UInt16) : UInt16 := driven.getD 0xffff

/-- Every access may change the device, a read as much as a write. -/
class Bank (δ : Type) where
  read : δ → Register → UInt8 × δ
  write : δ → Register → UInt8 → δ
  readData : δ → Option UInt16 × δ
  writeData : δ → UInt16 → δ

end PolledAta
