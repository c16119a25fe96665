import PolledAta.Bank
import PolledAta.Host
import PolledAta.Rom.FrameCounter
import PolledAta.Rom.Uart
import PolledAta.Settings

/-!
The board as its programs find it: a console and one channel on the bus, and a tick counter in memory. Every access is
written down.
-/

namespace PolledAta.Rom

structure Machine (δ : Type) (frames looks : Nat) where
  counter : FrameCounter frames
  console : Console looks
  /-- What answers on the channel. -/
  device : δ
  accesses : Array Access

namespace Machine

variable {δ : Type} {frames looks : Nat}

def start (counter : FrameCounter frames) (console : Console looks) (device : δ) : Machine δ frames looks :=
  ⟨counter, console, device, #[]⟩

def record (machine : Machine δ frames looks) (access : Access) : Machine δ frames looks :=
  { machine with accesses := machine.accesses.push access }

def maskInterrupts (machine : Machine δ frames looks) (level : Nat) : Machine δ frames looks :=
  machine.record (.interruptMask level)

/-! ## The bus -/

/-- The register of the channel at a port. -/
def register? (port : Nat) : Option Register :=
  Register.all.find? fun reg => port == Board.controllerPort.toNat + reg.offset

/-- The port of the channel for words. -/
def dataPort : Nat := Board.controllerPort.toNat + dataOffset

/-- What is read where nothing answers. -/
def openBus : UInt8 := 0xff

variable [Bank δ]

def readPort (machine : Machine δ frames looks) (port : Nat) : UInt8 × Machine δ frames looks :=
  if port = Uart.Register.lineStatus.port then
    let (status, console) := machine.console.look
    (status, { machine with console })
  else
    match register? port with
    | some reg =>
      let (value, device) := Bank.read machine.device reg
      (value, { machine with device })
    | none => (openBus, machine)

/-- The console takes whatever it is sent. -/
def writePort (machine : Machine δ frames looks) (port : Nat) (value : UInt8) : Machine δ frames looks :=
  match register? port with
  | some reg => { machine with device := Bank.write machine.device reg value }
  | none => machine

def readByte (machine : Machine δ frames looks) (address : Nat) : UInt8 × Machine δ frames looks :=
  let (value, machine) :=
    match Isa.Window.board.bytePort? address with
    | some port => machine.readPort port
    | none => (openBus, machine)
  (value, machine.record (.readByte address value))

def writeByte (machine : Machine δ frames looks) (address : Nat) (value : UInt8) : Machine δ frames looks :=
  let machine :=
    match Isa.Window.board.bytePort? address with
    | some port => machine.writePort port value
    | none => machine
  machine.record (.writeByte address value)

def readWord (machine : Machine δ frames looks) (address : Nat) : Option UInt16 × Machine δ frames looks :=
  let (word, machine) :=
    if Isa.Window.board.wordPort? address = some dataPort then
      let (word, device) := Bank.readData machine.device
      (word, { machine with device })
    else (none, machine)
  (word, machine.record (.readWord address word))

def writeWord (machine : Machine δ frames looks) (address : Nat) (word : UInt16) : Machine δ frames looks :=
  let machine :=
    if Isa.Window.board.wordPort? address = some dataPort then
      { machine with device := Bank.writeData machine.device word }
    else machine
  machine.record (.writeWord address word)

instance : AddressSpace (Machine δ frames looks) where
  readByte := readByte
  writeByte := writeByte
  readWord := readWord
  writeWord := writeWord

/-! ## Time and log -/

/-- The log goes out over the console. -/
def print (record : Log.Record) (machine : Machine δ frames looks) : Except Fault (Machine δ frames looks) :=
  if Board.logCeiling.admits record.level then do
    let ((), machine) ← Uart.print looks record.line machine
    return machine
  else return machine

instance : Host (Machine δ frames looks) where
  rate machine := machine.counter.rate
  reading machine :=
    let (now, counter) := machine.counter.reading
    (now, { machine with counter })
  patience := Timer.patience (FrameCounter frames)
  print := print

end Machine

end PolledAta.Rom
