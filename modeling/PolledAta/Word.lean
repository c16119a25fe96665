/-!
A 16-bit word as two bytes.
-/

namespace PolledAta.Word

def low (word : UInt16) : UInt8 := word.toUInt8

def high (word : UInt16) : UInt8 := (word >>> 8).toUInt8

/-- The word with `first` as its high byte. -/
def bigEndian (first second : UInt8) : UInt16 := (first.toUInt16 <<< 8) ||| second.toUInt16

/-- The word with `first` as its low byte. -/
def littleEndian (first second : UInt8) : UInt16 := (second.toUInt16 <<< 8) ||| first.toUInt16

def swap (word : UInt16) : UInt16 := (word <<< 8) ||| (word >>> 8)

/-! ## The numbers that bytes and words stand for -/

theorem toNat_low (word : UInt16) : (low word).toNat = word.toNat % 256 := by
  simp [low]

theorem toNat_high (word : UInt16) : (high word).toNat = word.toNat / 256 := by
  have h := word.toNat_lt
  simp only [high, UInt16.toNat_toUInt8, UInt16.toNat_shiftRight, UInt16.reduceToNat,
    Nat.shiftRight_eq_div_pow, Nat.reduceMod, Nat.reducePow]
  omega

theorem shiftLeft_or (upper lower : Nat) (h : lower < 256) : upper <<< 8 ||| lower = upper * 256 + lower := by
  rw [← Nat.shiftLeft_add_eq_or_of_lt h, Nat.shiftLeft_eq]

theorem toNat_littleEndian (first second : UInt8) :
    (littleEndian first second).toNat = second.toNat * 256 + first.toNat := by
  have h1 := first.toNat_lt
  have h2 := second.toNat_lt
  have h3 : second.toNat <<< 8 % 65536 = second.toNat <<< 8 := by
    rw [Nat.shiftLeft_eq]
    omega
  simp only [littleEndian, UInt16.toNat_or, UInt16.toNat_shiftLeft, UInt8.toNat_toUInt16, UInt16.reduceToNat,
    Nat.reduceMod, Nat.reducePow]
  rw [h3, shiftLeft_or second.toNat first.toNat h1]

theorem bigEndian_eq (first second : UInt8) : bigEndian first second = littleEndian second first := rfl

theorem toNat_swap (word : UInt16) : (swap word).toNat = word.toNat % 256 * 256 + word.toNat / 256 := by
  have h1 := word.toNat_lt
  have h2 : word.toNat <<< 8 % 65536 = (word.toNat % 256) <<< 8 := by
    rw [Nat.shiftLeft_eq, Nat.shiftLeft_eq]
    omega
  have h3 : word.toNat >>> 8 = word.toNat / 256 := by
    rw [Nat.shiftRight_eq_div_pow]
  simp only [swap, UInt16.toNat_or, UInt16.toNat_shiftLeft, UInt16.toNat_shiftRight, UInt16.reduceToNat,
    Nat.reduceMod, Nat.reducePow]
  rw [h2, h3, shiftLeft_or (word.toNat % 256) (word.toNat / 256) (by omega)]

/-! ## Taking a word apart and putting it together -/

theorem swap_swap (word : UInt16) : swap (swap word) = word := by
  apply UInt16.toNat_inj.mp
  have h := word.toNat_lt
  rw [toNat_swap, toNat_swap]
  omega

theorem swap_bigEndian (first second : UInt8) :
    swap (bigEndian first second) = littleEndian first second := by
  apply UInt16.toNat_inj.mp
  have h1 := first.toNat_lt
  have h2 := second.toNat_lt
  rw [bigEndian_eq, toNat_swap, toNat_littleEndian, toNat_littleEndian]
  omega

@[simp]
theorem high_swap (word : UInt16) : high (swap word) = low word := by
  apply UInt8.toNat_inj.mp
  have h := word.toNat_lt
  rw [toNat_high, toNat_swap, toNat_low]
  omega

@[simp]
theorem low_swap (word : UInt16) : low (swap word) = high word := by
  apply UInt8.toNat_inj.mp
  have h := word.toNat_lt
  rw [toNat_low, toNat_swap, toNat_high]
  omega

@[simp]
theorem low_littleEndian (first second : UInt8) : low (littleEndian first second) = first := by
  apply UInt8.toNat_inj.mp
  have h := first.toNat_lt
  rw [toNat_low, toNat_littleEndian]
  omega

@[simp]
theorem high_littleEndian (first second : UInt8) : high (littleEndian first second) = second := by
  apply UInt8.toNat_inj.mp
  have h := first.toNat_lt
  rw [toNat_high, toNat_littleEndian]
  omega

@[simp]
theorem littleEndian_low_high (word : UInt16) : littleEndian (low word) (high word) = word := by
  apply UInt16.toNat_inj.mp
  rw [toNat_littleEndian, toNat_low, toNat_high]
  omega

end PolledAta.Word
