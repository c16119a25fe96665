import PolledAta.Isa.Window
import PolledAta.Rom.Access

/-!
The serial console.
-/

namespace PolledAta.Rom

namespace Uart

def basePort : Nat := 0x3f8

inductive Register where
  | data | interruptEnable | fifoControl | lineControl | modemControl | lineStatus
  deriving DecidableEq

def Register.offset : Register → Nat
  | .data => 0
  | .interruptEnable => 1
  | .fifoControl => 2
  | .lineControl => 3
  | .modemControl => 4
  | .lineStatus => 5

def Register.port (reg : Register) : Nat := basePort + reg.offset

/-- While set in the line control register, the first two registers hold the divisor. -/
def divisorLatch : UInt8 := 0x80

def eightBits : UInt8 := 0x03

/-- Set in the line status while a byte can be sent. -/
def transmitReady : UInt8 := 0x20

def divisor : UInt16 := 1

def address (reg : Register) : Nat := Isa.Window.board.byteAddress reg.port

/-! ## The driver -/

variable {κ : Type} [AddressSpace κ]

def read (reg : Register) : BootM κ UInt8 := BootM.readByte (address reg)

def write (reg : Register) (value : UInt8) : BootM κ Unit := BootM.writeByte (address reg) value

def start : BootM κ Unit := do
  write .interruptEnable 0
  write .lineControl divisorLatch
  write .data divisor.toUInt8
  write .interruptEnable (divisor >>> 8).toUInt8
  write .lineControl eightBits
  write .fifoControl 0x07
  write .modemControl 0x03

/-- Looks at the line status until there is room, and sends the byte. -/
def put (byte : UInt8) : (looks : Nat) → BootM κ Unit
  | 0 => throw .endless
  | looks + 1 => do
    if (← read .lineStatus) &&& transmitReady = 0 then
      put byte looks
    else
      write .data byte

/-- A line feed is sent after a carriage return. -/
def send (looks : Nat) : List UInt8 → BootM κ Unit
  | [] => return ()
  | byte :: bytes => do
    if byte = 0x0a then
      put 0x0d looks
    put byte looks
    send looks bytes

def print (looks : Nat) (text : String) : BootM κ Unit := send looks text.toUTF8.toList

end Uart

/-! ## The device -/

/-- What the line status of a console shows, look by look. There is room for a byte at one of any `patience` looks. -/
structure Console (patience : Nat) where
  status : Nat → UInt8
  regular : ∀ look, ∃ wait < patience, status (look + wait) &&& Uart.transmitReady ≠ 0
  looks : Nat

namespace Console

def look {patience : Nat} (console : Console patience) : UInt8 × Console patience :=
  (console.status console.looks, { console with looks := console.looks + 1 })

/-- No room for the first `busy` looks, and room from then on. -/
def busyFor (busy : Nat) : Console (busy + 1) where
  status look := if look < busy then 0x40 else 0x60
  regular look := by
    refine ⟨busy - look, by omega, ?_⟩
    rw [if_neg (by omega)]
    decide
  looks := 0

end Console

end PolledAta.Rom
