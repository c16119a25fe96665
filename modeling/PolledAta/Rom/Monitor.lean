import PolledAta.Rom.Machine
import PolledAta.Rom.MasterChip
import PolledAta.Sector
import PolledAta.Text.Utf8

/-!
Watching a board from outside: what its console says, what it writes elsewhere, and which pages it is sent. Only
addresses and the values that cross the bus are seen.
-/

namespace PolledAta.Rom

inductive Sighting where
  /-- A byte on the serial line. -/
  | serial (byte : UInt8)
  | uart (register : Nat) (value : UInt8)
  | master (offset : Nat) (value : UInt8)
  | interruptMask (level : Nat)
  | port (port : Nat) (value : UInt8)
  /-- As many words sent as a page has. -/
  | page
  deriving DecidableEq

/-- What has to be remembered to read the next access. -/
structure Monitor where
  divisorLatched : Bool
  /-- Words sent since the last full page. -/
  words : Nat

namespace Monitor

def start : Monitor := ⟨false, 0⟩

def seePort (monitor : Monitor) (port : Nat) (value : UInt8) : Option Sighting × Monitor :=
  if Uart.basePort ≤ port ∧ port < Uart.basePort + 8 then
    if port = Uart.Register.data.port ∧ monitor.divisorLatched = false then (some (.serial value), monitor)
    else
      let monitor :=
        if port = Uart.Register.lineControl.port then
          { monitor with divisorLatched := value &&& Uart.divisorLatch != 0 }
        else monitor
      (some (.uart (port - Uart.basePort) value), monitor)
  else (some (.port port value), monitor)

/-- Bytes that are written outside the bus window are meant for the master chip. Words only make a page if they come
from the channel. -/
def see (monitor : Monitor) : Access → Option Sighting × Monitor
  | .writeByte address value =>
    match Isa.Window.board.bytePort? address with
    | some port => monitor.seePort port value
    | none => (some (.master (address - MasterChip.base) value), monitor)
  | .readWord address (some _) =>
    if Isa.Window.board.wordPort? address = some Machine.dataPort then
      if monitor.words + 1 = sectorWords then (some .page, { monitor with words := 0 })
      else (none, { monitor with words := monitor.words + 1 })
    else (none, monitor)
  | .interruptMask level => (some (.interruptMask level), monitor)
  | .readWord _ none | .readByte .. | .writeWord .. => (none, monitor)

def watch (monitor : Monitor) : List Access → List Sighting
  | [] => []
  | access :: rest =>
    match monitor.see access with
    | (none, monitor) => monitor.watch rest
    | (some sighting, monitor) => sighting :: monitor.watch rest

end Monitor

def Sighting.serial? : Sighting → Option UInt8
  | .serial byte => some byte
  | _ => none

def serialText (accesses : List Access) : String :=
  Text.readable ((Monitor.start.watch accesses).filterMap Sighting.serial?)

def trace (accesses : List Access) : List Sighting :=
  (Monitor.start.watch accesses).filter fun sighting => sighting.serial?.isNone

end PolledAta.Rom
