import PolledAta.Chunk
import PolledAta.Ide.Basic

/-!
Reading and writing sectors. A request is split into commands, every step waits for the device, and the first wait
that fails ends the request.
-/

namespace PolledAta

/-- The direction of a transfer, and the caller's buffer as it stands. -/
inductive Payload where
  | read (buffer : Buffer)
  | write (buffer : Buffer)

namespace Payload

def buffer : Payload → Buffer
  | .read buffer => buffer
  | .write buffer => buffer

def command : Payload → UInt8
  | .read _ => Command.readSectors
  | .write _ => Command.writeSectors

end Payload

namespace BusM

variable {δ κ : Type} [Wiring δ κ] [Host κ]

def moveSector (offset : Nat) : Payload → TimedBusM δ κ Payload
  | .read buffer => return .read (← fillSector buffer offset)
  | .write buffer => do
    sendSector buffer offset
    return .write buffer

def moveSectors (timeoutMs : UInt32) :
    (count offset : Nat) → Payload → TimedBusM δ κ (Except AtaError Unit × Payload)
  | 0, _, payload => return (.ok (), payload)
  | count + 1, offset, payload => do
    match ← awaitStatus Status.dataRequest timeoutMs with
    | .error error => return (.error error, payload)
    | .ok _ => moveSectors timeoutMs count (offset + sectorSize) (← moveSector offset payload)

/-- Bits 31 to 28 of the address are not sent. -/
def selectSectors (slot : DriveSlot) (chunk : Chunk) : TimedBusM δ κ Unit := do
  write .device (slot.deviceSelect chunk.lba)
  write .lbaHigh (chunk.lba >>> 16).toUInt8
  write .lbaMid (chunk.lba >>> 8).toUInt8
  write .lbaLow chunk.lba.toUInt8
  write .sectorCount chunk.countRegister

def moveChunks (slot : DriveSlot) (timeoutMs : UInt32) :
    List Chunk → (offset : Nat) → Payload → TimedBusM δ κ (Except AtaError Unit × Payload)
  | [], _, payload => return (.ok (), payload)
  | chunk :: rest, offset, payload => do
    selectSectors slot chunk
    match ← awaitStatus Status.ready timeoutMs with
    | .error error => return (.error error, payload)
    | .ok _ =>
      write .command payload.command
      match ← moveSectors timeoutMs chunk.sectors.toNat offset payload with
      | (.error error, payload) => return (.error error, payload)
      | (.ok (), payload) =>
        moveChunks slot timeoutMs rest (offset + chunk.sectors.toNat * sectorSize) payload

end BusM

namespace IdeM

variable {δ κ : Type} [Wiring δ κ] [Host κ]

/-- Sectors already moved are not reported when a later one fails, but the buffer keeps them. -/
def transfer (index : Nat) (lba count : UInt32) (payload : Payload) :
    TimedIdeM δ κ (Except AtaError Unit × Payload) := do
  match (← get).table.get? index with
  | none =>
    log .warn ("bad disk " ++ toString index)
    return (.error (.badIndex index), payload)
  | some disk =>
    -- sizes are 64-bit numbers, so the bytes of a request can always be counted
    let needed := count.toNat * sectorSize
    if payload.buffer.size < needed then
      return (.error (.badBuffer payload.buffer.size needed), payload)
    let timeoutMs := (← get).settings.commandTimeoutMs
    onController disk.controller
      (BusM.moveChunks disk.slot timeoutMs (chunks lba count).toList 0 payload)

/-- Fills the front of the buffer, and returns it also after an error. -/
def readSectors (index : Nat) (buffer : Buffer) (lba count : UInt32) :
    TimedIdeM δ κ (Except AtaError Unit × Buffer) := do
  let (result, payload) ← transfer index lba count (.read buffer)
  return (result, payload.buffer)

def writeSectors (index : Nat) (buffer : Buffer) (lba count : UInt32) :
    TimedIdeM δ κ (Except AtaError Unit) := do
  let (result, _) ← transfer index lba count (.write buffer)
  return result

end IdeM

end PolledAta
