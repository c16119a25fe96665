/-!
The byte-wide registers of an ATA channel, its commands and its control bits.
-/

namespace PolledAta

inductive Register where
  | error | sectorCount | lbaLow | lbaMid | lbaHigh | device | status | control
  deriving DecidableEq

namespace Register

/-! Three registers mean something else when they are written, or read. -/

abbrev feature : Register := .error
abbrev command : Register := .status
abbrev altStatus : Register := .control

def all : List Register :=
  [.error, .sectorCount, .lbaLow, .lbaMid, .lbaHigh, .device, .status, .control]

theorem mem_all (reg : Register) : reg ∈ all := by
  cases reg <;> simp [all]

def number : Register → Fin 8
  | .error => 0
  | .sectorCount => 1
  | .lbaLow => 2
  | .lbaMid => 3
  | .lbaHigh => 4
  | .device => 5
  | .status => 6
  | .control => 7

theorem number_lt (reg : Register) : reg.number.val < 8 := reg.number.isLt

theorem number_injective {a b : Register} (h : a.number = b.number) : a = b := by
  cases a <;> cases b <;> first | rfl | cases h

theorem number_surjective (n : Fin 8) : ∃ reg : Register, reg.number = n := by
  match n with
  | 0 => exact ⟨.error, rfl⟩
  | 1 => exact ⟨.sectorCount, rfl⟩
  | 2 => exact ⟨.lbaLow, rfl⟩
  | 3 => exact ⟨.lbaMid, rfl⟩
  | 4 => exact ⟨.lbaHigh, rfl⟩
  | 5 => exact ⟨.device, rfl⟩
  | 6 => exact ⟨.status, rfl⟩
  | 7 => exact ⟨.control, rfl⟩

/-- Distance from the base port of the channel. -/
def offset : Register → Nat
  | .error => 0x01
  | .sectorCount => 0x02
  | .lbaLow => 0x03
  | .lbaMid => 0x04
  | .lbaHigh => 0x05
  | .device => 0x06
  | .status => 0x07
  | .control => 0x206

end Register

/-- The 16-bit data port sits on the base port itself. -/
def dataOffset : Nat := 0

namespace Command

def readSectors : UInt8 := 0x20
def writeSectors : UInt8 := 0x30
def flushCache : UInt8 := 0xe7
def identify : UInt8 := 0xec
def setFeatures : UInt8 := 0xef

end Command

namespace Control

def softReset : UInt8 := 0x04
def interruptsOff : UInt8 := 0x02

end Control

end PolledAta
