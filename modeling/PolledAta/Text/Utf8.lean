/-!
The readable part of a byte string.
-/

namespace PolledAta.Text

/-- The characters encoded from byte `i` on, up to the first byte that starts none. -/
def charsFrom (bytes : ByteArray) (i : Nat) : List Char :=
  match _h : bytes.utf8DecodeChar? i with
  | none => []
  | some c => c :: charsFrom bytes (i + c.utf8Size)
termination_by bytes.size - i
decreasing_by
  have := ByteArray.lt_size_of_isSome_utf8DecodeChar? (by simp [_h] : (bytes.utf8DecodeChar? i).isSome)
  have := c.utf8Size_pos
  omega

/-- The longest part from the start that is well-formed UTF-8. -/
def readable (bytes : List UInt8) : String := String.ofList (charsFrom ⟨bytes.toArray⟩ 0)

end PolledAta.Text
