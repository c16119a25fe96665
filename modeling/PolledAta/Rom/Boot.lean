import PolledAta.Ide.Probe
import PolledAta.Isa.Registers
import PolledAta.Rom.Machine
import PolledAta.Rom.MasterChip

/-!
The boot program: it starts the console and the clock, finds the disks, and lists them.
-/

namespace PolledAta.Rom

variable {δ : Type} {frames looks : Nat} [Bank δ]

def info (text : String) : BootM (Machine δ frames looks) Unit := fun machine => do
  return ((), ← Host.print ⟨.info, text⟩ machine)

/-- Lets the frame interrupt through. -/
def setupInterrupts : BootM (Machine δ frames looks) Unit := do
  MasterChip.start (← get).counter.rate
  modify (·.maskInterrupts 1)

/-- Starts the driver on the channel of the board. What it has found is in its table. -/
def discover : BootM (Machine δ frames looks) DiskTable := fun machine => do
  let ports ← Isa.Ports.ofBase Board.controllerPort
  let registers := Isa.Registers.resolve .board ports
  let ide := Ide.fresh #[⟨Board.controllerPort, registers⟩] Board.maxDisks machine .standard
  let ((), ide) ← IdeM.init ide
  return (ide.table, ide.clock)

/-- What the list of disks says of one of them. -/
def diskText (disk : Disk) : Except Fault String := do
  let label ← disk.label
  return "  " ++ label.text ++ " " ++ disk.info.model.text ++ " (" ++ toString disk.info.sizeMb.toNat ++ " MB)"

def listDisks : List Disk → BootM (Machine δ frames looks) Unit
  | [] => return ()
  | disk :: disks => do
    info (← diskText disk)
    listDisks disks

def main : BootM (Machine δ frames looks) Unit := do
  Uart.start
  info "Setup interrupts"
  setupInterrupts
  let table ← discover
  info (toString table.count ++ " disk(s) found")
  listDisks (← table.listing)

/-- All accesses of a boot. -/
def bootWith (counter : FrameCounter frames) (console : Console looks) (device : δ) : Except Fault (List Access) := do
  let ((), machine) ← main (Machine.start counter console device)
  return machine.accesses.toList

/-- One interrupt for each reading of the counter, and a console that is busy at first. -/
def boot (rate : TimerRate) (device : δ) (busy : Nat) : Except Fault (List Access) :=
  bootWith (.everyReading rate) (.busyFor busy) device

end PolledAta.Rom
