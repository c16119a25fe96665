/-!
Splitting a range of sectors into commands that a device accepts.
-/

namespace PolledAta

def maxSectorsPerCommand : UInt32 := 256

structure Chunk where
  lba : UInt32
  sectors : UInt32
  deriving DecidableEq

namespace Chunk

/-- The sector count register holds eight bits, and 256 is sent as 0. -/
def countRegister (chunk : Chunk) : UInt8 := (chunk.sectors % maxSectorsPerCommand).toUInt8

end Chunk

/-- The part of a range that is not yet covered by a chunk. -/
structure Chunks where
  next : UInt32
  remaining : UInt32
  deriving DecidableEq

def chunks (start count : UInt32) : Chunks := ⟨start, count⟩

namespace Chunks

/-- The next chunk takes all that is left, as far as one command goes. -/
def sectors (rest : Chunks) : UInt32 :=
  if rest.remaining ≤ maxSectorsPerCommand then rest.remaining else maxSectorsPerCommand

@[simp]
theorem toNat_sectors (rest : Chunks) : rest.sectors.toNat = min rest.remaining.toNat 256 := by
  have hmax : maxSectorsPerCommand.toNat = 256 := rfl
  by_cases h : rest.remaining ≤ maxSectorsPerCommand
  · rw [sectors, if_pos h, Nat.min_eq_left (hmax ▸ UInt32.le_iff_toNat_le.mp h)]
  · rw [sectors, if_neg h, Nat.min_eq_right (by grind [UInt32.le_iff_toNat_le]), hmax]

/-- The position wraps at the end of the 32-bit sector numbers. -/
def next? (rest : Chunks) : Option (Chunk × Chunks) :=
  if rest.remaining = 0 then none
  else some (⟨rest.next, rest.sectors⟩, ⟨rest.next + rest.sectors, rest.remaining - rest.sectors⟩)

def length (rest : Chunks) : Nat := (rest.remaining.toNat + 255) / 256

/-- A lower and an upper bound on how many chunks are still to come. -/
def sizeHint (rest : Chunks) : Nat × Option Nat := (rest.length, some rest.length)

theorem remaining_lt_of_next? {rest after : Chunks} {chunk : Chunk} (h : rest.next? = some (chunk, after)) :
    after.remaining.toNat < rest.remaining.toNat := by
  rw [next?] at h
  split at h
  · cases h
  · rename_i hne
    obtain ⟨_, rfl⟩ : _ ∧ _ := by simpa using h
    have hpos : rest.remaining.toNat ≠ 0 := fun h0 => hne (UInt32.toNat_inj.mp h0)
    have hle : rest.sectors ≤ rest.remaining :=
      UInt32.le_iff_toNat_le.mpr (toNat_sectors rest ▸ Nat.min_le_left ..)
    rw [UInt32.toNat_sub_of_le _ _ hle, toNat_sectors]
    omega

def toList (rest : Chunks) : List Chunk :=
  match _h : rest.next? with
  | none => []
  | some (chunk, after) => chunk :: after.toList
termination_by rest.remaining.toNat
decreasing_by exact remaining_lt_of_next? _h

end Chunks

end PolledAta
