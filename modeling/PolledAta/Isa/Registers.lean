import PolledAta.AddressSpace
import PolledAta.Host
import PolledAta.Isa.Window

/-!
The registers of a controller on the bus: each has its address, and an access to it is an access there.
-/

namespace PolledAta.Isa

/-- Where the data port and the registers of one controller lie. -/
structure Registers where
  data : Nat
  addresses : Vector Nat 8

namespace Registers

def resolve (window : Window) (ports : Ports) : Registers where
  data := window.wordAddress ports.data
  addresses := ports.registers.map window.byteAddress

def address (registers : Registers) (reg : Register) : Nat :=
  getElem registers.addresses reg.number.val reg.number_lt

instance {κ : Type} [AddressSpace κ] : Wiring Registers κ where
  read registers space reg :=
    let (value, space) := AddressSpace.readByte space (registers.address reg)
    (value, registers, space)
  write registers space reg value := (registers, AddressSpace.writeByte space (registers.address reg) value)
  readData registers space :=
    let (word, space) := AddressSpace.readWord space registers.data
    (word, registers, space)
  writeData registers space word := (registers, AddressSpace.writeWord space registers.data word)

end Registers

end PolledAta.Isa
