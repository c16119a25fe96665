/-!
Numbers in lower-case hexadecimal.
-/

namespace PolledAta.Text

def hexDigits : (width n : Nat) → List Char
  | 0, _ => []
  | width + 1, n => hexDigits width (n / 16) ++ [Nat.digitChar (n % 16)]

@[simp]
theorem length_hexDigits (width n : Nat) : (hexDigits width n).length = width := by
  induction width generalizing n with
  | zero => rfl
  | succ width ih => simp [hexDigits, ih]

def hexByte (byte : UInt8) : String := String.ofList (hexDigits 2 byte.toNat)

/-- As few digits as the number needs. -/
def hexNat (n : Nat) : String := String.ofList (Nat.toDigits 16 n)

end PolledAta.Text
