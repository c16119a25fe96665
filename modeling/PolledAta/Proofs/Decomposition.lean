import PolledAta.Proofs.Completion

/-!
# Taking a range apart

The chunks of a range cover it sector by sector, in order and across the end of the sector numbers, and at every moment
it is known how many are still to come.
-/

namespace PolledAta

/-! ## The sectors of a chunk -/

/-- The sectors that a chunk is about. Their numbers wrap at 32 bits. -/
def Chunk.covered (chunk : Chunk) : List Nat :=
  (List.range chunk.sectors.toNat).map fun i => (chunk.lba.toNat + i) % 2 ^ 32

namespace Chunks

variable {rest : Chunks}

theorem sectorTotal_eq_sum (list : List Chunk) : sectorTotal list = (list.map (·.sectors.toNat)).sum := by
  induction list with
  | nil => rfl
  | cons chunk list ih => rw [sectorTotal_cons, List.map_cons, List.sum_cons, ih]

theorem flatMap_covered (rest : Chunks) :
    rest.toList.flatMap Chunk.covered =
      (List.range rest.remaining.toNat).map fun i => (rest.next.toNat + i) % 2 ^ 32 := by
  induction rest using Chunks.induction with
  | nil rest h => simp [toList_eq_nil h, h]
  | cons rest h ih =>
      rw [toList_eq_cons h, List.flatMap_cons, ih, rest.toNat_remaining, List.range_add, List.map_append, List.map_map]
      -- what the first chunk covers stands as it is; the others cover what comes after it
      congr 1
      apply List.map_congr_left
      intro i _
      simp only [UInt32.toNat_add, Function.comp_apply]
      omega

/-- No sector number comes twice in a range that is no longer than there are numbers. -/
theorem nodup_covered (start count : UInt32) :
    ((List.range count.toNat).map fun i => (start.toNat + i) % 2 ^ 32).Nodup := by
  refine List.nodup_range.map_on fun i hi j hj h => ?_
  have hcount := count.toNat_lt
  rw [List.mem_range] at hi hj
  omega

/-! ## One chunk after the other -/

/-- What is left after so many chunks have been asked for. At the end nothing changes any more. -/
def after (rest : Chunks) : Nat → Chunks
  | 0 => rest
  | k + 1 =>
    match rest.next? with
    | none => rest
    | some (_, later) => later.after k

theorem next?_eq_none (h : rest.remaining = 0) : rest.next? = none := if_pos h

theorem next?_eq_some (h : rest.remaining ≠ 0) :
    rest.next? = some (⟨rest.next, rest.sectors⟩, ⟨rest.next + rest.sectors, rest.remaining - rest.sectors⟩) :=
  if_neg h

theorem map_fst_next? (rest : Chunks) : rest.next?.map Prod.fst = rest.toList.head? := by
  by_cases h : rest.remaining = 0
  · simp [next?_eq_none h, toList_eq_nil h]
  · simp [next?_eq_some h, toList_eq_cons h]

theorem toList_after (rest : Chunks) (k : Nat) : (rest.after k).toList = rest.toList.drop k := by
  induction k generalizing rest with
  | zero => simp [after]
  | succ k ih =>
      by_cases h : rest.remaining = 0
      · simp [after, next?_eq_none h, toList_eq_nil h]
      · simp [after, next?_eq_some h, toList_eq_cons h, ih]

theorem length_after (rest : Chunks) (k : Nat) : (rest.after k).length = rest.length - k := by
  rw [← length_toList, toList_after, List.length_drop, length_toList]

theorem map_fst_next?_after (rest : Chunks) (k : Nat) : (rest.after k).next?.map Prod.fst = rest.toList[k]? := by
  rw [map_fst_next?, toList_after, List.head?_drop]

theorem toList_getElem? (rest : Chunks) {k : Nat} (hk : k < rest.length) : rest.toList[k]? = some (rest.chunkAt k) := by
  simp [toList_eq_map, hk]

end Chunks

/-- Any range of sectors is taken apart into as many chunks as are needed, all of them full but the last one, that cover
it in order and without a sector twice, across the end of the sector numbers as well. The count register tells the
length of every chunk. Before each chunk it is known how many are still to come, and after the last one none comes. -/
theorem chunks_cover_range (start count : UInt32) :
    (chunks start count).toList.length = (count.toNat + 255) / 256 ∧
    (∀ k < (count.toNat + 255) / 256, ∃ chunk, (chunks start count).toList[k]? = some chunk ∧
      chunk.lba.toNat = (start.toNat + 256 * k) % 2 ^ 32 ∧ 1 ≤ chunk.sectors.toNat ∧ chunk.sectors.toNat ≤ 256 ∧
      (k + 1 < (count.toNat + 255) / 256 → chunk.sectors.toNat = 256) ∧
      ∀ file : TaskFile, (file.set .sectorCount chunk.countRegister).sectorCount = chunk.sectors.toNat) ∧
    ((chunks start count).toList.map (·.sectors.toNat)).sum = count.toNat ∧
    (chunks start count).toList.flatMap Chunk.covered =
      ((List.range count.toNat).map fun i => (start.toNat + i) % 2 ^ 32) ∧
    ((chunks start count).toList.flatMap Chunk.covered).Nodup ∧
    ∀ k, ((chunks start count).after k).next?.map Prod.fst = (chunks start count).toList[k]? ∧
      ((chunks start count).after k).length = (count.toNat + 255) / 256 - k ∧
      ((chunks start count).after k).sizeHint =
        ((count.toNat + 255) / 256 - k, some ((count.toNat + 255) / 256 - k)) := by
  have hlength : (chunks start count).length = (count.toNat + 255) / 256 := rfl
  have hcovered : (chunks start count).toList.flatMap Chunk.covered =
      (List.range count.toNat).map fun i => (start.toNat + i) % 2 ^ 32 := Chunks.flatMap_covered _
  have hafter (k : Nat) : ((chunks start count).after k).length = (count.toNat + 255) / 256 - k :=
    Chunks.length_after _ k
  refine ⟨Chunks.length_toList _, ?each, ?total, hcovered, ?once, ?left⟩
  case each =>
    intro k hk
    have hget := Chunks.toList_getElem? (chunks start count) (hk.trans_eq hlength.symm)
    have hsectors : ((chunks start count).chunkAt k).sectors.toNat = min 256 (count.toNat - 256 * k) :=
      Chunks.toNat_sectors_chunkAt _ k
    obtain ⟨one_le, le⟩ := Chunks.sectors_of_mem (List.mem_of_getElem? hget)
    refine ⟨_, hget, ?_, one_le, le, ?_, ?_⟩
    · simp [Chunks.chunkAt, chunks]
    · intro hlater
      rw [hsectors]
      omega
    · intro file
      exact TaskFile.sectorCount_of_get _ _ (TaskFile.get_set_self ..) one_le le
  case total =>
    rw [← Chunks.sectorTotal_eq_sum]
    exact Chunks.sectorTotal_toList _
  case once =>
    rw [hcovered]
    exact Chunks.nodup_covered start count
  case left =>
    intro k
    refine ⟨Chunks.map_fst_next?_after _ k, hafter k, ?_⟩
    rw [Chunks.sizeHint, hafter]

end PolledAta
