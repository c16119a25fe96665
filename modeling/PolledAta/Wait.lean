import PolledAta.Session
import PolledAta.Status

/-!
Waiting for a moment, and waiting for a device until a moment.
-/

namespace PolledAta

namespace BusM

variable {δ κ : Type} [Host κ]

def deadline (ticks : UInt32) : TimedBusM δ κ Deadline := do
  if Deadline.tooLong ticks then
    log .warn ("bad timer duration " ++ toString ticks.toNat)
  let now ← readClock
  return ⟨now + Deadline.duration ticks⟩

def deadlineMs (ms : UInt32) : TimedBusM δ κ Deadline := do
  deadline ((Host.rate (← get).clock).ticks ms)

def expired (deadline : Deadline) : TimedBusM δ κ Bool := do
  return deadline.passedAt (← readClock)

def spin (deadline : Deadline) : (readings : Nat) → TimedBusM δ κ Unit
  | 0 => throw .endless
  | readings + 1 => do
    if ← expired deadline then return ()
    spin deadline readings

def waitUntil (deadline : Deadline) : TimedBusM δ κ Unit := spin deadline (Host.patience κ)

def delayMs (ms : UInt32) : TimedBusM δ κ Unit := do
  waitUntil (← deadlineMs ms)

variable [Wiring δ κ]

/-- A pending sample costs one reading of the clock, and the sample after which the deadline is seen to have
passed is the last one. -/
def poll (bits : UInt8) (deadline : Deadline) : (samples : Nat) → TimedBusM δ κ (Except AtaError UInt8)
  | 0 => throw .endless
  | samples + 1 => do
    let status ← read .status
    match Status.judge status bits with
    | .done => return .ok status
    | .failed error => return .error error
    | .pending =>
      if ← expired deadline then
        log .warn ("IDE timeout, status=0x" ++ Text.hexByte status)
        return .error (.timeout status)
      poll bits deadline samples

/-- Waits until `bits` are set with busy and error clear. The alternate status is read once first, which gives a
device the time it needs before its status is valid. -/
def awaitStatus (bits : UInt8) (timeoutMs : UInt32) : TimedBusM δ κ (Except AtaError UInt8) := do
  let _ ← read .altStatus
  let deadline ← deadlineMs timeoutMs
  poll bits deadline (Host.patience κ)

end BusM

end PolledAta
