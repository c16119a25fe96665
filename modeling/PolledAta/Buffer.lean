/-!
Bytes in memory: reading a part, and overwriting a part.
-/

namespace PolledAta

abbrev Buffer := Array UInt8

namespace Buffer

/-- Puts `bytes` from `offset` on; what would lie past the end is dropped. -/
def put (buffer : Buffer) (offset : Nat) : List UInt8 → Buffer
  | [] => buffer
  | byte :: bytes => put (buffer.setIfInBounds offset byte) (offset + 1) bytes

@[simp]
theorem size_put (buffer : Buffer) (offset : Nat) (bytes : List UInt8) :
    (buffer.put offset bytes).size = buffer.size := by
  induction bytes generalizing buffer offset with
  | nil => rfl
  | cons byte bytes ih => simp [put, ih]

theorem getElem?_put_of_lt (buffer : Buffer) {offset i : Nat} (bytes : List UInt8) (h : i < offset) :
    (buffer.put offset bytes)[i]? = buffer[i]? := by
  induction bytes generalizing buffer offset with
  | nil => rfl
  | cons byte bytes ih =>
    rw [put, ih _ (by omega), Array.getElem?_setIfInBounds_ne (by omega)]

theorem getElem?_put_of_le (buffer : Buffer) {offset i : Nat} (bytes : List UInt8)
    (h : offset + bytes.length ≤ i) : (buffer.put offset bytes)[i]? = buffer[i]? := by
  induction bytes generalizing buffer offset with
  | nil => rfl
  | cons byte bytes ih =>
    rw [List.length_cons] at h
    rw [put, ih _ (by omega), Array.getElem?_setIfInBounds_ne (by omega)]

theorem getElem?_put_of_mem (buffer : Buffer) {offset i : Nat} (bytes : List UInt8)
    (hi : i < bytes.length) (h : offset + i < buffer.size) :
    (buffer.put offset bytes)[offset + i]? = bytes[i]? := by
  induction bytes generalizing buffer offset i with
  | nil => simp at hi
  | cons byte bytes ih =>
    cases i with
    | zero =>
      rw [put, getElem?_put_of_lt _ _ (by omega)]
      simp at h
      simp [h]
    | succ i =>
      rw [put, show offset + (i + 1) = offset + 1 + i by omega,
        ih _ (by simpa using hi) (by simpa using (by omega : offset + 1 + i < buffer.size))]
      simp

end Buffer

end PolledAta
