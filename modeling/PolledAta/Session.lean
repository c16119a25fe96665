import PolledAta.Host

/-!
A driver at work: the device it talks to, the clock it reads, or the whole machine that has one, and all that has
happened so far.
-/

namespace PolledAta

inductive Event where
  | cycle (cycle : Cycle)
  | reading (now : UInt32)
  | log (record : Log.Record)
  deriving DecidableEq

structure Session (δ : Type) (κ : Type := Clock) where
  device : δ
  clock : κ
  history : Array Event

/-- Programs that work with any timer. -/
abbrev TimedBusM (δ κ : Type) := StateT (Session δ κ) (Except Fault)

abbrev BusM (δ : Type) := TimedBusM δ Clock

namespace BusM

variable {δ κ : Type}

def read [Wiring δ κ] (reg : Register) : TimedBusM δ κ UInt8 := fun ⟨device, clock, history⟩ =>
  let (value, device, clock) := Wiring.read device clock reg
  .ok (value, ⟨device, clock, history.push (.cycle (.read reg value))⟩)

def write [Wiring δ κ] (reg : Register) (value : UInt8) : TimedBusM δ κ Unit := fun ⟨device, clock, history⟩ =>
  let (device, clock) := Wiring.write device clock reg value
  .ok ((), ⟨device, clock, history.push (.cycle (.write reg value))⟩)

def readData [Wiring δ κ] : TimedBusM δ κ UInt16 := fun ⟨device, clock, history⟩ =>
  let (driven, device, clock) := Wiring.readData device clock
  .ok (dataLines driven, ⟨device, clock, history.push (.cycle (.readData driven))⟩)

def writeData [Wiring δ κ] (word : UInt16) : TimedBusM δ κ Unit := fun ⟨device, clock, history⟩ =>
  let (device, clock) := Wiring.writeData device clock word
  .ok ((), ⟨device, clock, history.push (.cycle (.writeData word))⟩)

def readClock [Host κ] : TimedBusM δ κ UInt32 := fun ⟨device, clock, history⟩ =>
  let (now, clock) := Host.reading clock
  .ok (now, ⟨device, clock, history.push (.reading now)⟩)

def log [Host κ] (level : Log.Level) (text : String) : TimedBusM δ κ Unit := fun ⟨device, clock, history⟩ =>
  match Host.print ⟨level, text⟩ clock with
  | .error fault => .error fault
  | .ok clock => .ok ((), ⟨device, clock, history.push (.log ⟨level, text⟩)⟩)

end BusM

/-! ## Views of a history -/

def Event.cycle? : Event → Option Cycle
  | .cycle c => some c
  | _ => none

def Event.reading? : Event → Option UInt32
  | .reading now => some now
  | _ => none

def Event.record? : Event → Option Log.Record
  | .log record => some record
  | _ => none

namespace Session

variable {δ κ : Type}

def cycles (session : Session δ κ) : List Cycle := session.history.toList.filterMap Event.cycle?

def readings (session : Session δ κ) : List UInt32 := session.history.toList.filterMap Event.reading?

def records (session : Session δ κ) : List Log.Record := session.history.toList.filterMap Event.record?

end Session

end PolledAta
