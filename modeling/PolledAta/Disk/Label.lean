import PolledAta.Fault

/-!
The names of volumes: a digit and a colon.
-/

namespace PolledAta

/-- The byte before the colon. -/
structure Label where
  digit : UInt8
  deriving DecidableEq

namespace Label

/-- Counting starts at '0'. Only the low eight bits of an index count, and from 208 on the sum does not fit a byte. -/
def ofIndex (index : Nat) : Except Fault Label :=
  if 0x30 + index % 256 < 256 then .ok ⟨UInt8.ofNat (0x30 + index % 256)⟩ else .error .overflow

/-- Only an ASCII byte makes a readable label. -/
def text (label : Label) : String :=
  if label.digit < 0x80 then String.ofList [Char.ofNat label.digit.toNat, ':'] else "?:"

end Label

end PolledAta
