import PolledAta.Clock
import PolledAta.Rom.Access

/-!
The chip that raises the frame interrupt.
-/

namespace PolledAta.Rom.MasterChip

def base : Nat := 0xff000000

inductive Register where
  | keyboardEnable | sampleEnable | frameClear | sampleClear | sampleRate | frameRate
  deriving DecidableEq

def Register.offset : Register → Nat
  | .keyboardEnable => 0x08
  | .sampleEnable => 0x14
  | .frameClear => 0x24
  | .sampleClear => 0x28
  | .sampleRate => 0x2c
  | .frameRate => 0x38

def address (reg : Register) : Nat := base + reg.offset

/-- The chip knows two rates. -/
def frameRateValue : TimerRate → UInt8
  | .hz200 => 1
  | .hz50 => 0

variable {κ : Type} [AddressSpace κ]

def write (reg : Register) (value : UInt8) : BootM κ Unit := BootM.writeByte (address reg) value

/-- Leaves the frame interrupt as the only source. -/
def start (rate : TimerRate) : BootM κ Unit := do
  write .keyboardEnable 0
  write .sampleEnable 0
  write .frameClear 0xff
  write .sampleClear 0xff
  write .sampleRate 0
  write .frameRate (frameRateValue rate)

end PolledAta.Rom.MasterChip
