import PolledAta.Controller
import PolledAta.Disk.Table

/-!
The driver: its controllers, the disks found on them, and a journal of all it did.
-/

namespace PolledAta

inductive Entry where
  /-- What happened while the driver worked on a controller. -/
  | line (controller : Nat) (event : Event)
  | log (record : Log.Record)
  /-- A request to mount a disk, to be carried out on its first use. -/
  | mount (index : Nat) (label : Label)
  deriving DecidableEq

structure Ide (δ : Type) (κ : Type := Clock) where
  controllers : Array (Controller δ)
  table : DiskTable
  clock : κ
  settings : Settings
  initialised : Bool
  journal : Array Entry

/-- Programs that work with any timer. -/
abbrev TimedIdeM (δ κ : Type) := StateT (Ide δ κ) (Except Fault)

abbrev IdeM (δ : Type) := TimedIdeM δ Clock

def Ide.fresh {δ κ : Type} (controllers : Array (Controller δ)) (maxDisks : Nat) (clock : κ)
    (settings : Settings) : Ide δ κ where
  controllers
  table := .empty maxDisks
  clock
  settings
  initialised := false
  journal := #[]

namespace IdeM

variable {δ κ : Type}

def log [Host κ] (level : Log.Level) (text : String) : TimedIdeM δ κ Unit := fun ide =>
  match Host.print ⟨level, text⟩ ide.clock with
  | .error fault => .error fault
  | .ok clock => .ok ((), { ide with clock, journal := ide.journal.push (.log ⟨level, text⟩) })

/-- Runs a program on one channel with the driver's clock. -/
def onController {α : Type} (index : Nat) (program : TimedBusM δ κ α) : TimedIdeM δ κ α := fun ide =>
  match ide.controllers[index]? with
  | none => .error .outOfRange
  | some controller =>
    match program ⟨controller.device, ide.clock, #[]⟩ with
    | .error fault => .error fault
    | .ok (result, session) =>
      .ok (result, { ide with
        controllers := ide.controllers.setIfInBounds index { controller with device := session.device }
        clock := session.clock
        journal := ide.journal ++ session.history.map (Entry.line index) })

def setStatus (index : Nat) (status : MountStatus) : TimedIdeM δ κ (Except AtaError Unit) := do
  match (← get).table.setStatus index status with
  | .error error => return .error error
  | .ok table =>
    modify fun ide => { ide with table }
    return .ok ()

end IdeM

/-! ## Views of a journal -/

def Entry.record? : Entry → Option Log.Record
  | .line _ event => event.record?
  | .log record => some record
  | .mount .. => none

def Entry.reading? : Entry → Option UInt32
  | .line _ event => event.reading?
  | _ => none

def Entry.cycleOn? (controller : Nat) : Entry → Option Cycle
  | .line c event => if c = controller then event.cycle? else none
  | _ => none

def Entry.mount? : Entry → Option (Nat × Label)
  | .mount index label => some (index, label)
  | _ => none

namespace Ide

variable {δ κ : Type}

def records (ide : Ide δ κ) : List Log.Record := ide.journal.toList.filterMap Entry.record?

def readings (ide : Ide δ κ) : List UInt32 := ide.journal.toList.filterMap Entry.reading?

def cycles (ide : Ide δ κ) (controller : Nat) : List Cycle :=
  ide.journal.toList.filterMap (Entry.cycleOn? controller)

def mounts (ide : Ide δ κ) : List (Nat × Label) := ide.journal.toList.filterMap Entry.mount?

end Ide

end PolledAta
