import PolledAta.Bank
import PolledAta.Clock
import PolledAta.Fault
import PolledAta.Log

/-!
What a driver runs on. A device by itself and a counter are enough; but they may also be parts of one machine, where
every access and every line of the log goes over the same bus.
-/

namespace PolledAta

/-- How a device is reached on its machine, and what becomes of both. -/
class Wiring (δ κ : Type) where
  read : δ → κ → Register → UInt8 × δ × κ
  write : δ → κ → Register → UInt8 → δ × κ
  readData : δ → κ → Option UInt16 × δ × κ
  writeData : δ → κ → UInt16 → δ × κ

/-- A machine that counts ticks, and takes the log of its program. -/
class Host (κ : Type) where
  rate : κ → TimerRate
  reading : κ → UInt32 × κ
  patience : Nat
  print : Log.Record → κ → Except Fault κ

variable {δ κ : Type}

/-- A device by itself does not touch the machine. -/
instance [Bank δ] : Wiring δ κ where
  read device machine reg := ((Bank.read device reg).1, (Bank.read device reg).2, machine)
  write device machine reg value := (Bank.write device reg value, machine)
  readData device machine := ((Bank.readData device).1, (Bank.readData device).2, machine)
  writeData device machine word := (Bank.writeData device word, machine)

/-- A timer by itself prints nothing. -/
instance [Timer κ] : Host κ where
  rate := Timer.rate
  reading := Timer.reading
  patience := Timer.patience κ
  print _ timer := .ok timer

end PolledAta
