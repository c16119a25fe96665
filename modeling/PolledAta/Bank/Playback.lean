import PolledAta.Bank

/-!
A device that plays back what it was given, whatever is written to it.
-/

namespace PolledAta

structure Playback where
  /-- Answers of the status register; the last one repeats. -/
  statuses : List UInt8
  /-- Words of the data port, which nothing drives after the last one. -/
  words : List UInt16

namespace Playback

def readRegister (device : Playback) : Register → UInt8 × Playback
  | .status =>
    match device.statuses with
    | [] => (0, device)
    | [last] => (last, device)
    | status :: rest => (status, { device with statuses := rest })
  | _ => (0, device)

def readWord (device : Playback) : Option UInt16 × Playback :=
  (device.words.head?, { device with words := device.words.tail })

instance : Bank Playback where
  read := readRegister
  write device _ _ := device
  readData := readWord
  writeData device _ := device

end Playback

end PolledAta
