import PolledAta.Proofs.Fields
import PolledAta.Proofs.Probing

/-!
# From a drive to the table of disks

What is written on the page of a drive comes back from the table once the drive has been probed: the field of a text is
decoded to the text, and the bytes of a number to the number.
-/

namespace PolledAta

open Emulator

namespace Identify

/-! ## A page in memory -/

namespace Page

variable {buffer : Buffer} {offset : Nat} {bytes : List UInt8}

end Page

end Identify

/-! ## The page of a drive in memory -/

namespace Emulator

open Identify

variable {serial firmware model : List UInt8} {sectors : UInt32}

end Emulator

/-! ## Through a probe -/

end PolledAta
