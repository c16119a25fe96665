import PolledAta.Fault
import PolledAta.Register

/-!
The ISA bus in memory. Every port takes four bytes: byte accesses use the odd lane of the first two, word accesses
the even one.
-/

namespace PolledAta.Isa

/-- A bus whose port 0 lies at `base`. -/
structure Window where
  base : Nat
  deriving DecidableEq

namespace Window

def board : Window := ⟨0xff400000⟩

def byteAddress (window : Window) (port : Nat) : Nat := window.base + 1 + 4 * port

def wordAddress (window : Window) (port : Nat) : Nat := window.base + 4 * port

/-! What the bus makes of an address: the port whose byte, or word, it is. -/

def bytePort? (window : Window) (address : Nat) : Option Nat :=
  if window.base ≤ address ∧ (address - window.base) % 4 = 1 then some ((address - window.base) / 4) else none

def wordPort? (window : Window) (address : Nat) : Option Nat :=
  if window.base ≤ address ∧ (address - window.base) % 4 = 0 then some ((address - window.base) / 4) else none

@[simp]
theorem bytePort?_byteAddress (window : Window) (port : Nat) :
    window.bytePort? (window.byteAddress port) = some port := by
  have hlane : window.base ≤ window.byteAddress port ∧ (window.byteAddress port - window.base) % 4 = 1 := by
    rw [byteAddress]
    omega
  rw [bytePort?, if_pos hlane, byteAddress]
  exact congrArg some (by omega)

@[simp]
theorem wordPort?_wordAddress (window : Window) (port : Nat) :
    window.wordPort? (window.wordAddress port) = some port := by
  have hlane : window.base ≤ window.wordAddress port ∧ (window.wordAddress port - window.base) % 4 = 0 := by
    rw [wordAddress]
    omega
  rw [wordPort?, if_pos hlane, wordAddress]
  exact congrArg some (by omega)

end Window

/-- The ports of one controller: the data port, and a port for each register. -/
structure Ports where
  data : Nat
  registers : Vector Nat 8

namespace Ports

/-- The port at some distance from the base port, which must be a 16-bit number. -/
def port (base : UInt16) (offset : Nat) : Except Fault Nat :=
  if base.toNat + offset < 0x10000 then .ok (base.toNat + offset) else .error .overflow

def ofBase (base : UInt16) : Except Fault Ports := do
  let data ← port base dataOffset
  let error ← port base Register.error.offset
  let sectorCount ← port base Register.sectorCount.offset
  let lbaLow ← port base Register.lbaLow.offset
  let lbaMid ← port base Register.lbaMid.offset
  let lbaHigh ← port base Register.lbaHigh.offset
  let device ← port base Register.device.offset
  let status ← port base Register.status.offset
  let control ← port base Register.control.offset
  return ⟨data, #v[error, sectorCount, lbaLow, lbaMid, lbaHigh, device, status, control]⟩

def register (ports : Ports) (reg : Register) : Nat := ports.registers[reg.number]

end Ports

end PolledAta.Isa
