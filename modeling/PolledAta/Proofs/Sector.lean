import Mathlib.Data.List.OfFn
import PolledAta.Sector

/-!
# Sectors in memory

Copying a stretch of one buffer into another, the sectors that a buffer holds, and the words that carry a sector.
-/

namespace PolledAta

namespace Buffer

variable {buffer source : Buffer}

/-! ## Copying -/

theorem put_append (buffer : Buffer) (offset : Nat) (xs ys : List UInt8) :
    buffer.put offset (xs ++ ys) = (buffer.put offset xs).put (offset + xs.length) ys := by
  induction xs generalizing buffer offset with
  | nil => rfl
  | cons x xs ih =>
      rw [List.cons_append, put, put, ih, List.length_cons, Nat.add_right_comm, Nat.add_assoc]

/-- The buffer with `length` bytes of `source`, from `start` on, put from `offset` on. -/
def copy (buffer : Buffer) (offset : Nat) (source : Buffer) (start length : Nat) : Buffer :=
  buffer.put offset (source.extract start (start + length)).toList

@[simp]
theorem size_copy (offset start length : Nat) : (buffer.copy offset source start length).size = buffer.size :=
  size_put ..

@[simp]
theorem copy_zero (offset start : Nat) : buffer.copy offset source start 0 = buffer := by
  simp [copy, put]

theorem length_extract {start length : Nat} (h : start + length ≤ source.size) :
    (source.extract start (start + length)).toList.length = length := by
  simp
  omega

theorem copy_copy {offset start m n : Nat} (h : start + m ≤ source.size) :
    (buffer.copy offset source start m).copy (offset + m) source (start + m) n =
      buffer.copy offset source start (m + n) := by
  have hsplit : source.extract start (start + (m + n)) =
      source.extract start (start + m) ++ source.extract (start + m) (start + m + n) := by
    rw [Array.extract_append_extract]
    congr 1 <;> omega
  rw [copy, copy, copy, hsplit, Array.toList_append, put_append, length_extract h]

theorem getElem?_copy_inside {offset start length i : Nat} (hi : i < length)
    (hs : start + length ≤ source.size) (hb : offset + length ≤ buffer.size) :
    (buffer.copy offset source start length)[offset + i]? = source[start + i]? := by
  rw [copy, getElem?_put_of_mem _ _ (by rw [length_extract hs]; exact hi) (by omega),
    Array.getElem?_toList, Array.getElem?_extract_of_lt (by omega), Array.getElem?_eq_getElem (by omega)]

theorem getElem?_copy_outside {offset start length j : Nat} (hs : start + length ≤ source.size)
    (hj : j < offset ∨ offset + length ≤ j) :
    (buffer.copy offset source start length)[j]? = buffer[j]? := by
  rcases hj with hj | hj
  · exact getElem?_put_of_lt _ _ hj
  · exact getElem?_put_of_le _ _ (by rw [length_extract hs]; exact hj)

/-! ## Sectors of a buffer -/

theorem exists_sector? {offset : Nat} (h : offset + sectorSize ≤ buffer.size) :
    ∃ sector, buffer.sector? offset = some sector := by
  rw [sector?, dif_pos (show offset + 512 ≤ buffer.size from h)]
  exact ⟨_, rfl⟩

theorem sector?_eq_some_iff {offset : Nat} {sector : Sector} :
    buffer.sector? offset = some sector ↔ ∀ i (h : i < 512), buffer[offset + i]? = some sector[i] := by
  unfold sector?
  constructor
  · intro h i hi
    split at h
    · rename_i hsize
      obtain rfl := Option.some.inj h
      rw [Vector.getElem_ofFn, Array.getElem?_eq_getElem (by omega)]
    · cases h
  · intro h
    obtain ⟨hlt, _⟩ := Array.getElem?_eq_some_iff.mp (h 511 (by decide))
    rw [dif_pos (by omega)]
    refine congrArg some (Vector.ext fun i hi => ?_)
    obtain ⟨_, heq⟩ := Array.getElem?_eq_some_iff.mp (h i hi)
    simpa using heq

theorem sector?_congr {offset start : Nat} (h : ∀ i < 512, buffer[offset + i]? = source[start + i]?) :
    buffer.sector? offset = source.sector? start := by
  refine Option.ext fun sector => ?_
  rw [sector?_eq_some_iff, sector?_eq_some_iff]
  exact forall₂_congr fun i hi => by rw [h i hi]

theorem sector?_copy_inside {offset start count i : Nat} (hi : i < count)
    (hs : start + count * sectorSize ≤ source.size) (hb : offset + count * sectorSize ≤ buffer.size) :
    (buffer.copy offset source start (count * sectorSize)).sector? (offset + i * sectorSize) =
      source.sector? (start + i * sectorSize) := by
  refine sector?_congr fun j hj => ?_
  have hij : i * sectorSize + j < count * sectorSize := by
    unfold sectorSize
    omega
  rw [Nat.add_assoc, Nat.add_assoc]
  exact getElem?_copy_inside hij hs hb

theorem sector?_copy_outside {offset start length place : Nat} (hs : start + length ≤ source.size)
    (h : place + sectorSize ≤ offset ∨ offset + length ≤ place) :
    (buffer.copy offset source start length).sector? place = buffer.sector? place := by
  refine sector?_congr fun j hj => getElem?_copy_outside hs ?_
  unfold sectorSize at h
  omega

theorem extract_of_sector? {offset : Nat} {sector : Sector} (h : buffer.sector? offset = some sector) :
    buffer.extract offset (offset + sectorSize) = sector.toArray := by
  rw [sector?_eq_some_iff] at h
  obtain ⟨hlt, _⟩ := Array.getElem?_eq_some_iff.mp (h 511 (by decide))
  refine Array.ext_getElem? fun i => ?_
  by_cases hi : i < 512
  · obtain ⟨_, heq⟩ := Array.getElem?_eq_some_iff.mp (h i hi)
    have hextract : i < min (offset + sectorSize) buffer.size - offset := by
      unfold sectorSize
      omega
    rw [Array.getElem?_extract_of_lt hextract, heq]
    simp [hi]
  · rw [Array.getElem?_eq_none (by simp [sectorSize]; omega), Array.getElem?_eq_none (by simp; omega)]

/-! A run of sectors is taken one sector after the other. -/

theorem extract_no_sectors (bytes buffer : Buffer) (offset : Nat) :
    bytes ++ buffer.extract offset (offset + 0 * sectorSize) = bytes := by
  rw [Nat.zero_mul, Nat.add_zero, Array.extract_empty_of_stop_le_start (Nat.le_refl _), Array.append_empty]

theorem extract_succ_sectors (bytes buffer : Buffer) (offset more : Nat) :
    bytes ++ buffer.extract offset (offset + (more + 1) * sectorSize) =
      bytes ++ buffer.extract offset (offset + sectorSize) ++
        buffer.extract (offset + sectorSize) (offset + sectorSize + more * sectorSize) := by
  rw [Array.append_assoc, Array.extract_append_extract, Nat.min_eq_left (Nat.le_add_right ..),
    Nat.max_eq_right (Nat.le_add_right ..), Nat.add_assoc, Nat.add_comm sectorSize, ← Nat.add_one_mul]

theorem size_append_sector (bytes : Buffer) {offset : Nat} (h : offset + sectorSize ≤ buffer.size) :
    (bytes ++ buffer.extract offset (offset + sectorSize)).size = bytes.size + sectorSize := by
  simp only [Array.size_append, Array.size_extract]
  omega

theorem put_sector {offset start : Nat} {sector : Sector} (h : source.sector? start = some sector) :
    buffer.put offset sector.toList = buffer.copy offset source start sectorSize := by
  rw [copy, extract_of_sector? h]
  rfl

/-! ## Filling a buffer -/

/-- `count` sectors from `source` replace what `before` holds from `offset` on. -/
structure Filled (before : Buffer) (offset count : Nat) (source : Nat → Option Sector) (after : Buffer) : Prop where
  size : after.size = before.size
  inside : ∀ i < count, after.sector? (offset + i * sectorSize) = source i
  outside : ∀ j, j < offset ∨ offset + count * sectorSize ≤ j → after[j]? = before[j]?

theorem Filled.none (buffer : Buffer) (offset : Nat) (origin : Nat → Option Sector) :
    buffer.Filled offset 0 origin buffer :=
  ⟨rfl, fun _ hi => absurd hi (Nat.not_lt_zero _), fun _ _ => rfl⟩

theorem Filled.congr {before after : Buffer} {offset count : Nat} {origin origin' : Nat → Option Sector}
    (h : before.Filled offset count origin after) (ho : ∀ i < count, origin i = origin' i) :
    before.Filled offset count origin' after :=
  ⟨h.size, fun i hi => (h.inside i hi).trans (ho i hi), h.outside⟩

theorem Filled.trans {before between after : Buffer} {offset m n : Nat} {origin : Nat → Option Sector}
    (h : before.Filled offset m origin between)
    (h' : between.Filled (offset + m * sectorSize) n (fun i => origin (m + i)) after) :
    before.Filled offset (m + n) origin after := by
  refine ⟨h'.size.trans h.size, fun i hi => ?_, fun j hj => ?_⟩
  · by_cases him : i < m
    · rw [← h.inside i him]
      refine sector?_congr fun j hj => h'.outside _ (.inl ?_)
      unfold sectorSize
      omega
    · obtain ⟨k, rfl⟩ : ∃ k, i = m + k := ⟨i - m, by omega⟩
      rw [Nat.add_mul, ← Nat.add_assoc]
      exact h'.inside k (by omega)
  · rw [Nat.add_mul] at hj
    rw [h'.outside j (by omega), h.outside j (by omega)]

theorem filled_copy {offset start count : Nat} (hs : start + count * sectorSize ≤ source.size)
    (hb : offset + count * sectorSize ≤ buffer.size) :
    buffer.Filled offset count (fun i => source.sector? (start + i * sectorSize))
      (buffer.copy offset source start (count * sectorSize)) :=
  ⟨size_copy .., fun _ hi => sector?_copy_inside hi hs hb, fun _ hj => getElem?_copy_outside hs hj⟩

end Buffer

/-! ## The words of a sector -/

/-- The bytes that words carry, each word with its low byte first. -/
def wordBytes (words : List UInt16) : List UInt8 := words.flatMap fun word => [Word.low word, Word.high word]

@[simp]
theorem wordBytes_cons (word : UInt16) (words : List UInt16) :
    wordBytes (word :: words) = Word.low word :: Word.high word :: wordBytes words := rfl

namespace Sector

theorem getElem_words (sector : Sector) {i : Nat} (h : i < 256) :
    sector.words[i] = Word.littleEndian sector[2 * i] sector[2 * i + 1] := by
  simp [words, Word.swap_bigEndian]

theorem words_ne_nil (sector : Sector) : sector.words.toList ≠ [] :=
  List.ne_nil_of_length_pos (by rw [Vector.length_toList]; decide)

theorem ofWords_words (sector : Sector) : ofWords sector.words = sector := by
  refine Vector.ext fun i hi => ?_
  simp only [ofWords, Vector.getElem_ofFn, getElem_words sector (show i / 2 < 256 by omega), Word.high_swap,
    Word.low_swap, Word.low_littleEndian, Word.high_littleEndian]
  split
  · exact getElem_congr_idx (by omega)
  · exact getElem_congr_idx (by omega)

theorem wordBytes_words (sector : Sector) : wordBytes sector.words.toList = sector.toList := by
  have hwords : sector.words.toList =
      List.ofFn fun i : Fin 256 => Word.littleEndian sector[i.val * 2] sector[i.val * 2 + 1] := by
    rw [words, Vector.toList_ofFn]
    simp only [Word.swap_bigEndian, Nat.mul_comm 2]
  have hbytes : sector.toList = List.ofFn fun i : Fin (256 * 2) => sector[i.val] := by
    rw [← Vector.toList_ofFn]
    exact congrArg _ (Vector.ext fun i hi => by simp)
  rw [hwords, hbytes, List.ofFn_mul, wordBytes, List.flatMap_def, List.map_ofFn]
  refine congrArg List.flatten (congrArg List.ofFn (funext fun i => ?_))
  simp

end Sector

end PolledAta
