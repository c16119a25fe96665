import PolledAta.Emulator.Drive
import PolledAta.Proofs.Sector

/-!
# The sectors of a drive

What a drive sends of its sectors, and what a write makes of them.
-/

namespace PolledAta.Emulator.Drive

variable {drive : Drive}

theorem le_sectorCount_iff {n : Nat} : n ≤ drive.sectorCount ↔ n * sectorSize ≤ drive.image.size :=
  Nat.le_div_iff_mul_le (by decide)

theorem exists_sector? {n : Nat} (h : n < drive.sectorCount) : ∃ sector, drive.sector? n = some sector := by
  have hle := le_sectorCount_iff.mp (show n + 1 ≤ drive.sectorCount from h)
  exact Buffer.exists_sector? (by rwa [Nat.add_mul, Nat.one_mul] at hle)

theorem words_succ {lba count : Nat} {sector : Sector} (h : drive.sector? lba = some sector) :
    drive.words lba (count + 1) = sector.words.toList ++ drive.words (lba + 1) count := by
  have hsplit : (count + 1) * sectorWords = sectorWords + count * sectorWords := by
    rw [Nat.add_mul, Nat.one_mul, Nat.add_comm]
  rw [words, words, hsplit, List.range_add, List.map_append, List.map_map]
  refine congrArg₂ (· ++ ·) ?_ ?_
  · have hbyte : ∀ i (hi : i < 512), drive.image.getD (lba * sectorSize + i) 0 = sector[i] := fun i hi => by
      rw [Array.getD_eq_getD_getElem?, Buffer.sector?_eq_some_iff.mp h i hi, Option.getD_some]
    refine List.ext_getElem (by simp [sectorWords]) fun i hi _ => ?_
    have hi : i < 256 := by simpa [sectorWords] using hi
    rw [List.getElem_map, List.getElem_range, Vector.getElem_toList, Sector.getElem_words sector hi,
      hbyte (2 * i) (by omega), Nat.add_assoc, hbyte (2 * i + 1) (by omega)]
  · refine List.map_congr_left fun i _ => ?_
    have hshift : lba * sectorSize + 2 * (sectorWords + i) = (lba + 1) * sectorSize + 2 * i := by
      unfold sectorSize sectorWords
      omega
    rw [Function.comp_apply, hshift]

/-! ## Writing -/

/-- The drive with `count` sectors of the buffer written to it. -/
def written (drive : Drive) (lba : Nat) (buffer : Buffer) (offset count : Nat) : Drive :=
  { drive with image := drive.image.copy (lba * sectorSize) buffer offset (count * sectorSize) }

@[simp]
theorem sectorCount_written (lba offset count : Nat) (buffer : Buffer) :
    (drive.written lba buffer offset count).sectorCount = drive.sectorCount := by
  simp [sectorCount, written]

theorem sector?_written_inside {lba offset count i : Nat} {buffer : Buffer} (hi : i < count)
    (hb : offset + count * sectorSize ≤ buffer.size) (hd : lba + count ≤ drive.sectorCount) :
    (drive.written lba buffer offset count).sector? (lba + i) = buffer.sector? (offset + i * sectorSize) := by
  rw [le_sectorCount_iff, Nat.add_mul] at hd
  rw [sector?, Nat.add_mul]
  exact Buffer.sector?_copy_inside hi hb hd

theorem sector?_written_outside {lba offset count n : Nat} {buffer : Buffer}
    (hb : offset + count * sectorSize ≤ buffer.size) (hn : n < lba ∨ lba + count ≤ n) :
    (drive.written lba buffer offset count).sector? n = drive.sector? n := by
  refine Buffer.sector?_copy_outside hb ?_
  unfold sectorSize
  omega

end PolledAta.Emulator.Drive

namespace PolledAta

/-! ## Overwriting -/

/-- `origin 0`, `origin 1` and so on replace what is at `address 0`, `address 1` and so on, one after the other: the
last one to go to an address stays there. -/
structure Overwritten (before : Nat → Option Sector) (address : Nat → Nat) (count : Nat)
    (origin after : Nat → Option Sector) : Prop where
  last : ∀ i < count, (∀ j < count, i < j → address j ≠ address i) → after (address i) = origin i
  others : ∀ n, (∀ i < count, address i ≠ n) → after n = before n

namespace Overwritten

variable {before between after origin : Nat → Option Sector} {address : Nat → Nat} {m n : Nat}

theorem none (before : Nat → Option Sector) (address : Nat → Nat) (origin : Nat → Option Sector) :
    Overwritten before address 0 origin before :=
  ⟨fun _ hi => absurd hi (Nat.not_lt_zero _), fun _ _ => rfl⟩

theorem trans (h : Overwritten before address m origin between)
    (h' : Overwritten between (fun i => address (m + i)) n (fun i => origin (m + i)) after) :
    Overwritten before address (m + n) origin after := by
  refine ⟨fun i hi hlast => ?_, fun k hk => ?_⟩
  · by_cases him : i < m
    · have hkept : after (address i) = between (address i) :=
        h'.others _ fun j hj => hlast (m + j) (by omega) (by omega)
      rw [hkept]
      exact h.last i him fun j hj hij => hlast j (by omega) hij
    · obtain ⟨j, rfl⟩ : ∃ j, i = m + j := ⟨i - m, by omega⟩
      exact h'.last j (by omega) fun k hk hjk => hlast (m + k) (by omega) (by omega)
  · rw [h'.others k fun i hi => hk (m + i) (by omega)]
    exact h.others k fun i hi => hk i (by omega)

end Overwritten

end PolledAta
