import PolledAta.Bank
import PolledAta.Emulator.Drive
import PolledAta.Status
import PolledAta.TaskFile

/-!
A channel with two drives in memory. The drives share one task file and one data phase, so at any time at most one
of them is at work. Faults can be switched on.
-/

namespace PolledAta.Emulator

inductive Phase where
  | idle
  /-- The last command was refused. -/
  | failed
  /-- The words still to be read. -/
  | sending (words : List UInt16)
  /-- A write of `count` sectors to `lba`, with the bytes taken so far. -/
  | receiving (lba count : Nat) (bytes : Buffer)

structure Faults where
  /-- Shown whatever the device does. -/
  statusOverride : Option UInt8
  /-- Data phases never show the data request. -/
  withholdRequest : Bool
  /-- Every command is refused. -/
  failCommands : Bool
  /-- Shown first, a value for each read of the status register. -/
  script : List UInt8

def Faults.none : Faults := ⟨.none, false, false, []⟩

structure Channel where
  master : Option Drive
  slave : Option Drive
  faults : Faults
  taskFile : TaskFile
  /-- The slot that was last selected. -/
  latch : DriveSlot
  phase : Phase
  /-- A write was completed on a drive whose image does not reach that far. -/
  overrun : Bool

namespace Channel

def idle (master slave : Option Drive) (faults : Faults) : Channel where
  master
  slave
  faults
  taskFile := .clear
  latch := .master
  phase := .idle
  overrun := false

def drive (channel : Channel) : DriveSlot → Option Drive
  | .master => channel.master
  | .slave => channel.slave

def setDrive (channel : Channel) (slot : DriveSlot) (drive : Option Drive) : Channel :=
  match slot with
  | .master => { channel with master := drive }
  | .slave => { channel with slave := drive }

def selected (channel : Channel) : Option Drive := channel.drive channel.latch

/-- What the device itself shows, leaving the script aside. -/
def status (channel : Channel) : UInt8 :=
  match channel.faults.statusOverride with
  | some status => status
  | none =>
    match channel.selected with
    | none => 0x00
    | some _ =>
      match channel.phase with
      | .idle => Status.ready
      | .failed => Status.ready ||| Status.error
      | .sending _ | .receiving .. =>
        if channel.faults.withholdRequest then Status.ready
        else Status.ready ||| Status.dataRequest

def accept (drive : Drive) (taskFile : TaskFile) (command : UInt8) : Phase :=
  let lba := taskFile.lba
  let count := taskFile.sectorCount
  if command = Command.identify then .sending (pageWords drive.page)
  else if (lba + count) * sectorSize ≤ drive.image.size then
    if command = Command.readSectors then .sending (drive.words lba count)
    else if command = Command.writeSectors then .receiving lba count #[]
    else .failed
  else .failed

/-- A command to an empty slot is lost. -/
def execute (channel : Channel) (command : UInt8) : Channel :=
  match channel.selected with
  | none => channel
  | some drive =>
    if channel.faults.failCommands then { channel with phase := .failed }
    else { channel with phase := accept drive channel.taskFile command }

/-- Stores a completed write on the drive that is selected by then. -/
def store (channel : Channel) (lba : Nat) (bytes : Buffer) : Channel :=
  match channel.selected with
  | none => channel
  | some drive =>
    if lba * sectorSize + bytes.size ≤ drive.image.size then
      channel.setDrive channel.latch
        (some { drive with image := drive.image.put (lba * sectorSize) bytes.toList })
    else { channel with overrun := true }

def readRegister (channel : Channel) (reg : Register) : UInt8 × Channel :=
  match reg, channel.faults.script with
  | .status, value :: rest =>
    (value, { channel with faults := { channel.faults with script := rest } })
  | .status, [] | .control, _ => (channel.status, channel)
  | reg, _ => (channel.taskFile.get reg, channel)

/-- The command register is not kept, the device register selects a slot, and a soft reset ends any data phase. -/
def writeRegister (channel : Channel) (reg : Register) (value : UInt8) : Channel :=
  match reg with
  | .status => channel.execute value
  | .control =>
    let taskFile := channel.taskFile.set .control value
    if value &&& Control.softReset = 0 then { channel with taskFile }
    else { channel with taskFile, phase := .idle }
  | .device => { channel with taskFile := channel.taskFile.set .device value, latch := .ofDevice value }
  | reg => { channel with taskFile := channel.taskFile.set reg value }

/-- Only a channel with words to send drives the data lines. -/
def readWord (channel : Channel) : Option UInt16 × Channel :=
  match channel.phase with
  | .sending (word :: rest) =>
    (some word, { channel with phase := if rest.isEmpty then .idle else .sending rest })
  | _ => (none, channel)

/-- The word that completes a command stores all of its sectors at once. -/
def writeWord : Channel → UInt16 → Channel
  | ⟨master, slave, faults, taskFile, latch, .receiving lba count bytes, overrun⟩, word =>
    let bytes := (bytes.push (Word.low word)).push (Word.high word)
    if bytes.size < count * sectorSize then
      ⟨master, slave, faults, taskFile, latch, .receiving lba count bytes, overrun⟩
    else
      store ⟨master, slave, faults, taskFile, latch, .idle, overrun⟩ lba bytes
  | channel, _ => channel

instance : Bank Channel where
  read := readRegister
  write := writeRegister
  readData := readWord
  writeData := writeWord

end Channel

end PolledAta.Emulator
