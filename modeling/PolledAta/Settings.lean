import PolledAta.Log

/-!
The settings of the driver, and the fixed equipment of the board.
-/

namespace PolledAta

structure Settings where
  commandTimeoutMs : UInt32
  resetHoldMs : UInt32
  resetSettleMs : UInt32
  dumpIdentify : Bool
  deriving DecidableEq

def Settings.standard : Settings where
  commandTimeoutMs := 3000
  resetHoldMs := 100
  resetSettleMs := 50
  dumpIdentify := false

namespace Board

def controllerPort : UInt16 := 0x1f0

def maxDisks : Nat := 4

def logCeiling : Log.Ceiling := .upTo .info

end Board

end PolledAta
