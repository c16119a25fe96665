import PolledAta.Identify.Page
import PolledAta.Text.Hex

/-!
An identify page as 32 lines of sixteen bytes.
-/

namespace PolledAta.Identify

/-- A byte that is not a printable ASCII character shows as a dot. -/
def printable (byte : UInt8) : Char :=
  if 0x20 ≤ byte ∧ byte < 0x7f then Char.ofNat byte.toNat else '.'

def hexColumns (bytes : List UInt8) : List Char :=
  bytes.flatMap fun byte => Text.hexDigits 2 byte.toNat ++ [' ']

def dumpLine (offset : Nat) (bytes : List UInt8) : String :=
  String.ofList (Text.hexDigits 3 offset ++ [':', ' '] ++ hexColumns bytes ++ [' ', ' ', ' '] ++
    bytes.map printable)

def Page.dump (page : Page) : List String :=
  (List.range 32).map fun row =>
    dumpLine (row * 16) ((page.bytes.toList.drop (row * 16)).take 16)

end PolledAta.Identify
