import PolledAta.Fault
import PolledAta.Text.Utf8

/-!
Text fields of an identify page: fixed width, padded with blanks, the two characters of each word swapped.
-/

namespace PolledAta.Identify

/-- A byte without a partner belongs to no word and reads as 0. -/
def swapPairs : List UInt8 → List UInt8
  | first :: second :: rest => second :: first :: swapPairs rest
  | [_] => [0]
  | [] => []

def blank : UInt8 := 0x20

def trimBlanks (bytes : List UInt8) : List UInt8 :=
  (bytes.reverse.dropWhile (· == blank)).reverse

/-- The bytes of a field that count. They need not be well-formed text. -/
structure Field where
  bytes : List UInt8
  deriving DecidableEq

namespace Field

/-- A field ends before its first zero byte, and then loses its trailing blanks. -/
def ofRaw (raw : List UInt8) : Field :=
  ⟨trimBlanks ((swapPairs raw).takeWhile (· != 0))⟩

def decode (page : List UInt8) (offset width : Nat) : Except Fault Field :=
  if offset + width ≤ page.length then .ok (.ofRaw ((page.drop offset).take width))
  else .error .outOfRange

def text (field : Field) : String := Text.readable field.bytes

def isEmpty (field : Field) : Bool := field.bytes.isEmpty

/-- How a drive lays `text` out in `width` bytes, if it fits. -/
def encode (width : Nat) (text : String) : Except Fault (List UInt8) :=
  let bytes := text.toUTF8.toList
  if bytes.length ≤ width then .ok (swapPairs (bytes ++ List.replicate (width - bytes.length) blank))
  else .error .outOfRange

end Field

end PolledAta.Identify
