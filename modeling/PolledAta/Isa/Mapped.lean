import PolledAta.Isa.Registers

/-!
The registers of a controller on the bus, over plain memory.
-/

namespace PolledAta.Isa

/-- Resolved addresses, and the memory they lie in. -/
structure Mapped extends Registers where
  memory : Buffer

namespace Mapped

def resolve (window : Window) (ports : Ports) (memory : Buffer) : Mapped := ⟨.resolve window ports, memory⟩

/-- With its memory, a controller is a device by itself. -/
instance : Bank Mapped where
  read bank reg :=
    let (value, registers, memory) := Wiring.read bank.toRegisters bank.memory reg
    (value, ⟨registers, memory⟩)
  write bank reg value :=
    let (registers, memory) := Wiring.write bank.toRegisters bank.memory reg value
    ⟨registers, memory⟩
  readData bank :=
    let (word, registers, memory) := Wiring.readData bank.toRegisters bank.memory
    (word, ⟨registers, memory⟩)
  writeData bank word :=
    let (registers, memory) := Wiring.writeData bank.toRegisters bank.memory word
    ⟨registers, memory⟩

end Mapped

end PolledAta.Isa
