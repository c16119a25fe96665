import PolledAta.Chunk

/-!
# The chunks of a range

Induction over what is left of a range, and what every chunk of a range satisfies.
-/

namespace PolledAta

namespace Chunks

theorem toList_eq_nil {rest : Chunks} (h : rest.remaining = 0) : rest.toList = [] := by
  rw [toList]
  split
  · rfl
  · rename_i hn
    simp [next?, h] at hn

theorem toList_eq_cons {rest : Chunks} (h : rest.remaining ≠ 0) :
    rest.toList = ⟨rest.next, rest.sectors⟩ ::
      toList ⟨rest.next + rest.sectors, rest.remaining - rest.sectors⟩ := by
  rw [toList]
  split
  · rename_i hn
    simp [next?, h] at hn
  · rename_i hn
    simp only [next?, h, ↓reduceIte, Option.some.injEq, Prod.mk.injEq] at hn
    obtain ⟨rfl, rfl⟩ := hn
    rfl

theorem toNat_remaining_sub (rest : Chunks) :
    (rest.remaining - rest.sectors).toNat = rest.remaining.toNat - min rest.remaining.toNat 256 := by
  have hle : rest.sectors ≤ rest.remaining := by
    rw [UInt32.le_iff_toNat_le, toNat_sectors]
    exact Nat.min_le_left ..
  rw [UInt32.toNat_sub_of_le _ _ hle, toNat_sectors]

theorem toNat_remaining (rest : Chunks) :
    rest.remaining.toNat = rest.sectors.toNat + (rest.remaining - rest.sectors).toNat := by
  rw [toNat_remaining_sub, toNat_sectors]
  omega

theorem toNat_remaining_ne_zero {rest : Chunks} (h : rest.remaining ≠ 0) : rest.remaining.toNat ≠ 0 :=
  fun h0 => h (UInt32.toNat_inj.mp h0)

theorem one_le_sectors {rest : Chunks} (h : rest.remaining ≠ 0) : 1 ≤ rest.sectors.toNat := by
  have hne := toNat_remaining_ne_zero h
  rw [toNat_sectors]
  omega

theorem sectors_le (rest : Chunks) : rest.sectors.toNat ≤ 256 := by
  rw [toNat_sectors]
  exact Nat.min_le_right ..

/-- Taking chunks off a range comes to an end. -/
theorem induction {motive : Chunks → Prop} (nil : ∀ rest, rest.remaining = 0 → motive rest)
    (cons : ∀ rest, rest.remaining ≠ 0 →
      motive ⟨rest.next + rest.sectors, rest.remaining - rest.sectors⟩ → motive rest)
    (rest : Chunks) : motive rest := by
  generalize hn : rest.remaining.toNat = n
  induction n using Nat.strongRecOn generalizing rest with
  | ind n ih =>
      by_cases h : rest.remaining = 0
      · exact nil rest h
      · refine cons rest h (ih _ ?_ _ rfl)
        have hne := toNat_remaining_ne_zero h
        rw [toNat_remaining_sub]
        omega

end Chunks

def sectorTotal : List Chunk → Nat
  | [] => 0
  | chunk :: list => chunk.sectors.toNat + sectorTotal list

@[simp]
theorem sectorTotal_nil : sectorTotal [] = 0 := rfl

@[simp]
theorem sectorTotal_cons (chunk : Chunk) (list : List Chunk) :
    sectorTotal (chunk :: list) = chunk.sectors.toNat + sectorTotal list := rfl

namespace Chunks

theorem sectorTotal_toList (rest : Chunks) : sectorTotal rest.toList = rest.remaining.toNat := by
  induction rest using Chunks.induction with
  | nil rest h => simp [toList_eq_nil h, h]
  | cons rest h ih =>
      rw [toList_eq_cons h, sectorTotal_cons, ih, toNat_remaining_sub, toNat_sectors]
      omega

theorem length_eq_succ {rest : Chunks} (h : rest.remaining ≠ 0) :
    rest.length = length ⟨rest.next + rest.sectors, rest.remaining - rest.sectors⟩ + 1 := by
  have hne := toNat_remaining_ne_zero h
  rw [length, length, toNat_remaining_sub]
  omega

theorem length_toList (rest : Chunks) : rest.toList.length = rest.length := by
  induction rest using Chunks.induction with
  | nil rest h =>
      rw [toList_eq_nil h, length, h]
      rfl
  | cons rest h ih => rw [toList_eq_cons h, List.length_cons, ih, length_eq_succ h]

theorem sectors_of_mem {rest : Chunks} {chunk : Chunk} (h : chunk ∈ rest.toList) :
    1 ≤ chunk.sectors.toNat ∧ chunk.sectors.toNat ≤ 256 := by
  induction rest using Chunks.induction with
  | nil rest h0 => rw [toList_eq_nil h0] at h; cases h
  | cons rest h0 ih =>
      rw [toList_eq_cons h0] at h
      cases h with
      | head => exact ⟨one_le_sectors h0, sectors_le rest⟩
      | tail _ h => exact ih h

end Chunks

end PolledAta
