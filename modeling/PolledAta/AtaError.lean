import PolledAta.Text.Hex

/-!
Why a request to the driver fails.
-/

namespace PolledAta

inductive AtaError where
  /-- Nothing answered the device select. -/
  | noDevice
  /-- The device took a command but never asked for data. -/
  | notResponding
  | timeout (status : UInt8)
  /-- The device reported an error. -/
  | device (status : UInt8)
  /-- The device can be identified but not addressed by sector number. -/
  | unsupported
  | badIndex (index : Nat)
  | tableFull
  | badBuffer (len needed : Nat)
  deriving DecidableEq

def AtaError.message : AtaError → String
  | .noDevice => "no disk found"
  | .notResponding => "disk not responding"
  | .timeout status => "timeout, status=0x" ++ Text.hexByte status
  | .device status => "device error, status=0x" ++ Text.hexByte status
  | .unsupported => "LBA not supported"
  | .badIndex index => "bad disk " ++ toString index
  | .tableFull => "max disks reached"
  | .badBuffer len needed => "buffer of " ++ toString len ++ " bytes, need " ++ toString needed

end PolledAta
