/-!
The two positions on a channel, and how the device register selects one.
-/

namespace PolledAta

inductive DriveSlot where
  | master
  | slave
  deriving DecidableEq

namespace DriveSlot

def both : List DriveSlot := [.master, .slave]

def number : DriveSlot → Nat
  | .master => 0
  | .slave => 1

/-- LBA addressing and the slot, with the address bits clear. -/
def selectBase : DriveSlot → UInt8
  | .master => 0xe0
  | .slave => 0xf0

/-- The device register also carries bits 27 to 24 of the address. -/
def deviceSelect (slot : DriveSlot) (lba : UInt32) : UInt8 :=
  slot.selectBase ||| ((lba >>> 24) &&& 0x0f).toUInt8

def ofDevice (value : UInt8) : DriveSlot := if value &&& 0x10 = 0 then .master else .slave

theorem ofDevice_selectBase (slot : DriveSlot) : ofDevice slot.selectBase = slot := by
  cases slot <;> decide

end DriveSlot

end PolledAta
