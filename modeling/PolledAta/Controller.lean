import PolledAta.DriveSlot
import PolledAta.Identify.Page
import PolledAta.Sector
import PolledAta.Settings
import PolledAta.Wait

/-!
One channel: its reset, and asking a drive who it is.
-/

namespace PolledAta

structure Controller (δ : Type) where
  base : UInt16
  device : δ

namespace BusM

variable {δ κ : Type} [Wiring δ κ] [Host κ]

/-- Pulses the reset line of the channel. A missing drive shows only when it is probed. -/
def reset (base : UInt16) (settings : Settings) : TimedBusM δ κ Unit := do
  log .info ("IDE reset controller at 0x" ++ Text.hexNat base.toNat)
  write .device DriveSlot.master.selectBase
  write .control (Control.softReset ||| Control.interruptsOff)
  delayMs settings.resetHoldMs
  write .control Control.interruptsOff
  delayMs settings.resetSettleMs

/-- Each of the two waits turns any failure into one error of its own. -/
def identify (slot : DriveSlot) (timeoutMs : UInt32) : TimedBusM δ κ (Except AtaError Identify.Page) := do
  write .device slot.selectBase
  match ← awaitStatus Status.ready timeoutMs with
  | .error _ => return .error .noDevice
  | .ok _ =>
    write .command Command.identify
    match ← awaitStatus Status.dataRequest timeoutMs with
    | .error _ => return .error .notResponding
    | .ok _ =>
      let page : Identify.Page := ⟨← readSector⟩
      if page.supportsLba then return .ok page
      return .error .unsupported

end BusM

end PolledAta
