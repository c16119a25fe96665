import PolledAta.Identify.Page

/-!
What is kept of a drive's identify page.
-/

namespace PolledAta

structure DriveInfo where
  sectors : UInt32
  model : Identify.Field
  serial : Identify.Field
  firmware : Identify.Field
  deriving DecidableEq

namespace DriveInfo

def ofPage (page : Identify.Page) : DriveInfo where
  sectors := page.capacity
  model := page.model
  serial := page.serial
  firmware := page.firmware

/-- Whole megabytes of 2048 sectors. -/
def sizeMb (info : DriveInfo) : UInt32 := info.sectors >>> 11

end DriveInfo

end PolledAta
