import PolledAta.AtaError

/-!
What one sample of the status register says to a driver that waits for some of its bits.
-/

namespace PolledAta.Status

def busy : UInt8 := 0x80
def ready : UInt8 := 0x40
def fault : UInt8 := 0x20
def dataRequest : UInt8 := 0x08
def error : UInt8 := 0x01

inductive Verdict where
  | done
  | pending
  | failed (error : AtaError)
  deriving DecidableEq

/-- All zeros or all ones mean that nothing drives the bus. -/
def judge (status bits : UInt8) : Verdict :=
  if status &&& (busy ||| error ||| bits) = bits then .done
  else if status &&& (busy ||| error) = error then .failed (.device status)
  else if status = 0x00 ∨ status = 0xff then .failed .noDevice
  else .pending

end PolledAta.Status
