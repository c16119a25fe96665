import PolledAta.Identify.Dump
import PolledAta.Ide.Basic

/-!
Finding the disks: every controller is reset once, and both its slots are probed.
-/

namespace PolledAta.IdeM

variable {δ κ : Type} [Host κ]

def probeText (base : UInt16) (slot : DriveSlot) (text : String) : String :=
  "IDE probe 0x" ++ Text.hexNat base.toNat ++ " disk " ++ toString slot.number ++ ": " ++ text

/-- An empty slot is nothing to warn about. -/
def probeFailureLevel : AtaError → Log.Level
  | .noDevice => .info
  | _ => .warn

def dumpPage : List String → TimedIdeM δ κ Unit
  | [] => return ()
  | line :: lines => do
    log .trace line
    dumpPage lines

def enrol (controller : Nat) (slot : DriveSlot) (info : DriveInfo) : TimedIdeM δ κ (Except AtaError Nat) := do
  match (← get).table.register controller slot info with
  | .error error =>
    log .warn error.message
    return .error error
  | .ok (disk, table) =>
    let label ← disk.label
    modify fun ide => { ide with table }
    log .debug ("requesting lazy mount of " ++ label.text)
    modify fun ide => { ide with journal := ide.journal.push (.mount disk.index label) }
    return .ok disk.index

variable [Wiring δ κ]

/-- Identifies the drive in a slot and registers it. The answer is its index. -/
def probe (controller : Nat) (slot : DriveSlot) : TimedIdeM δ κ (Except AtaError Nat) := do
  let settings := (← get).settings
  match (← get).controllers[controller]?.map (·.base) with
  | none => return .error (.badIndex controller)
  | some base =>
    match ← onController controller (BusM.identify slot settings.commandTimeoutMs) with
    | .error error =>
      log (probeFailureLevel error) (probeText base slot error.message)
      return .error error
    | .ok page =>
      if settings.dumpIdentify then
        dumpPage page.dump
      let info := DriveInfo.ofPage page
      log .info (probeText base slot (info.model.text ++ " (" ++ toString info.sectors.toNat ++
        " sectors, " ++ toString info.sizeMb.toNat ++ " MB)"))
      enrol controller slot info

def reset (controller : Nat) : TimedIdeM δ κ Unit := do
  let settings := (← get).settings
  match (← get).controllers[controller]?.map (·.base) with
  | none => throw .outOfRange
  | some base => onController controller (BusM.reset base settings)

/-- A failed probe just leaves its slot out of the table. -/
def initController (controller : Nat) : TimedIdeM δ κ Unit := do
  reset controller
  let _ ← probe controller .master
  let _ ← probe controller .slave

def initControllers : List Nat → TimedIdeM δ κ Unit
  | [] => return ()
  | controller :: rest => do
    initController controller
    initControllers rest

/-- Works once; a later call only warns. -/
def init : TimedIdeM δ κ Unit := do
  if (← get).initialised then
    log .warn "IDE init: already done"
  else
    modify fun ide => { ide with initialised := true }
    initControllers (List.range (← get).controllers.size)

end PolledAta.IdeM
