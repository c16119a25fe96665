import PolledAta.Identify.Field
import PolledAta.Sector

/-!
The 512-byte page that a device answers to an identify command. Offsets are in bytes of the page as it lies in
memory after a sector read, so numbers have their low byte first.
-/

namespace PolledAta.Identify

structure Span where
  offset : Nat
  width : Nat

def serialSpan : Span := ⟨20, 20⟩
def firmwareSpan : Span := ⟨46, 8⟩
def modelSpan : Span := ⟨54, 40⟩

def capabilityOffset : Nat := 98
def capacityOffset : Nat := 120

/-- The LBA bit in the high byte of the capability word. -/
def lbaCapable : UInt8 := 0x02

structure Page where
  bytes : Sector
  deriving DecidableEq

namespace Page

def supportsLba (page : Page) : Bool := page.bytes[99] &&& lbaCapable != 0

/-- How many sectors can be addressed with 28 bits. -/
def capacity (page : Page) : UInt32 :=
  page.bytes[120].toUInt32 ||| (page.bytes[121].toUInt32 <<< 8) |||
    (page.bytes[122].toUInt32 <<< 16) ||| (page.bytes[123].toUInt32 <<< 24)

def field (page : Page) (span : Span) : Field :=
  .ofRaw ((page.bytes.toList.drop span.offset).take span.width)

def model (page : Page) : Field := page.field modelSpan

def serial (page : Page) : Field := page.field serialSpan

def firmware (page : Page) : Field := page.field firmwareSpan

end Page

end PolledAta.Identify
