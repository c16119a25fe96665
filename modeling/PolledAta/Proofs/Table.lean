import Mathlib.Data.List.Basic
import PolledAta.Disk.Table

/-!
# The table of disks

A table counts the slots it has filled. As long as it is filled from the front, the counter tells which slots hold a
disk, and the table can be read as the array of its disks.
-/

namespace PolledAta.DiskTable

variable {table : DiskTable} {disk : Disk} {index : Nat}

/-! ## What the slots hold -/

/-- The table with a further disk in the first slot after those in use. -/
def added (table : DiskTable) (disk : Disk) : DiskTable :=
  { table with slots := table.slots.setIfInBounds table.used (some disk), used := table.used + 1 }

/-- The table with another disk in one of its slots. -/
def marked (table : DiskTable) (index : Nat) (disk : Disk) : DiskTable :=
  { table with slots := table.slots.setIfInBounds index (some disk) }

@[simp]
theorem count_added (table : DiskTable) (disk : Disk) : (table.added disk).count = table.count + 1 := rfl

@[simp]
theorem count_marked (table : DiskTable) (index : Nat) (disk : Disk) : (table.marked index disk).count = table.count :=
  rfl

@[simp]
theorem get?_empty (capacity i : Nat) : (empty capacity).get? i = none := by
  rw [get?, empty, Vector.getElem?_replicate]
  split <;> rfl

theorem isFull_eq_false_iff : table.isFull = false ↔ table.count < table.capacity := by
  simp [isFull]

theorem lt_capacity_of_get? (h : table.get? index = some disk) : index < table.capacity := by
  refine Nat.lt_of_not_le fun hle => ?_
  rw [get?, Vector.getElem?_eq_none hle] at h
  cases h

theorem get?_added (room : table.count < table.capacity) (disk : Disk) (i : Nat) :
    (table.added disk).get? i = if i = table.count then some disk else table.get? i := by
  have hslot : (table.added disk).get? i = (table.slots.setIfInBounds table.count (some disk))[i]?.join := rfl
  rw [hslot, Vector.getElem?_setIfInBounds, if_pos room]
  by_cases h : i = table.count
  · rw [if_pos h, if_pos h.symm]
    rfl
  · rw [if_neg h, if_neg (Ne.symm h), get?]

theorem get?_marked (h : table.get? index = some disk) (new : Disk) (i : Nat) :
    (table.marked index new).get? i = if i = index then some new else table.get? i := by
  have hslot : (table.marked index new).get? i = (table.slots.setIfInBounds index (some new))[i]?.join := rfl
  rw [hslot, Vector.getElem?_setIfInBounds, if_pos (lt_capacity_of_get? h)]
  by_cases hi : i = index
  · rw [if_pos hi, if_pos hi.symm]
    rfl
  · rw [if_neg hi, if_neg (Ne.symm hi), get?]

theorem register_of_full (full : table.isFull = true) (controller : Nat) (slot : DriveSlot) (info : DriveInfo) :
    table.register controller slot info = .error .tableFull := by
  rw [register, dif_pos full]

theorem register_of_room (room : table.isFull = false) (controller : Nat) (slot : DriveSlot) (info : DriveInfo) :
    table.register controller slot info =
      .ok (⟨table.count, controller, slot, info, .uninitialized⟩,
        table.added ⟨table.count, controller, slot, info, .uninitialized⟩) := by
  have inside : table.used < table.capacity := isFull_eq_false_iff.mp room
  have hset (disk : Option Disk) : table.slots.set table.used disk inside =
      table.slots.setIfInBounds table.used disk := by
    apply Vector.ext
    intro i hi
    simp [Vector.getElem_set, Vector.getElem_setIfInBounds]
  rw [register, dif_neg (by rw [room]; nofun)]
  simp only [hset]
  rfl

/-! ## Filled from the front -/

/-- The slots in use are the first ones, and each of them holds the disk with its number. -/
structure Dense (table : DiskTable) : Prop where
  used_le : table.count ≤ table.capacity
  isSome_iff : ∀ i, (table.get? i).isSome ↔ i < table.count
  index_eq : ∀ i disk, table.get? i = some disk → disk.index = i

theorem dense_empty (capacity : Nat) : (empty capacity).Dense where
  used_le := Nat.zero_le _
  isSome_iff i := by
    rw [get?_empty]
    exact iff_of_false nofun (Nat.not_lt_zero i)
  index_eq i disk h := by simp at h

theorem Dense.exists_get?_of_lt (h : table.Dense) (hi : index < table.count) : ∃ disk, table.get? index = some disk :=
  Option.isSome_iff_exists.mp ((h.isSome_iff index).mpr hi)

theorem Dense.get?_eq_none (h : table.Dense) (hi : table.count ≤ index) : table.get? index = none := by
  rw [← Option.not_isSome_iff_eq_none, h.isSome_iff]
  exact Nat.not_lt.mpr hi

theorem Dense.lt_count_of_get? (h : table.Dense) (hd : table.get? index = some disk) : index < table.count :=
  (h.isSome_iff index).mp (hd ▸ rfl)

theorem Dense.added (h : table.Dense) (room : table.isFull = false) (hindex : disk.index = table.count) :
    (table.added disk).Dense := by
  have room := isFull_eq_false_iff.mp room
  refine ⟨room, fun i => ?_, fun i found hi => ?_⟩
  · rw [get?_added room, count_added]
    by_cases hi : i = table.count
    · simp [hi]
    · rw [if_neg hi, h.isSome_iff]
      omega
  · rw [get?_added room] at hi
    split at hi
    · rename_i hlast
      rw [← Option.some.inj hi, hindex, hlast]
    · exact h.index_eq i found hi

theorem Dense.marked (h : table.Dense) {new : Disk} (known : table.get? index = some disk) (hindex : new.index = index) :
    (table.marked index new).Dense := by
  refine ⟨h.used_le, fun i => ?_, fun i found hi => ?_⟩
  · rw [get?_marked known, count_marked]
    by_cases hi : i = index
    · subst hi
      exact iff_of_true (by rw [if_pos rfl]; rfl) (h.lt_count_of_get? known)
    · rw [if_neg hi, h.isSome_iff]
  · rw [get?_marked known] at hi
    split at hi
    · rename_i hself
      rw [← Option.some.inj hi, hindex, hself]
    · exact h.index_eq i found hi

/-- A disk that is added takes nothing away. -/
theorem Dense.get?_added_of_some (h : table.Dense) (room : table.isFull = false) {found : Disk}
    (hd : table.get? index = some found) (disk : Disk) : (table.added disk).get? index = some found := by
  rw [get?_added (isFull_eq_false_iff.mp room), if_neg (Nat.ne_of_lt (h.lt_count_of_get? hd)), hd]

/-! ## The array of the disks -/

/-- Whatever the counter says, the disks of the array are in slots. -/
theorem exists_get?_of_mem (h : disk ∈ table.disks) : ∃ i, table.get? i = some disk := by
  obtain ⟨_, hmem, rfl⟩ := List.mem_filterMap.mp (List.mem_toArray.mp h)
  obtain ⟨i, hi⟩ := List.mem_iff_getElem?.mp (List.mem_of_mem_take hmem)
  refine ⟨i, ?_⟩
  rw [get?, ← Vector.getElem?_toList, hi]
  rfl

/-- The array has the disk of each slot in use, in the order of the slots. -/
theorem Dense.map_some_disks (h : table.Dense) :
    table.disks.toList.map some = (List.range table.count).map table.get? := by
  have hslots : table.slots.toList.take table.count = (List.range table.count).map table.get? := by
    have hlength : (table.slots.toList.take table.count).length = table.count := by
      rw [List.length_take, Vector.length_toList, Nat.min_eq_left h.used_le]
    refine List.ext_getElem (by rw [hlength, List.length_map, List.length_range]) fun i hi _ => ?_
    rw [hlength] at hi
    have hslot : i < table.capacity := Nat.lt_of_lt_of_le hi h.used_le
    simp [get?, hslot]
  have hsome : ∀ i ∈ List.range table.count, (table.get? i).map some = some (table.get? i) := by
    intro i hi
    obtain ⟨disk, hd⟩ := h.exists_get?_of_lt (List.mem_range.mp hi)
    rw [hd]
    rfl
  have hdisks : table.disks.toList = (table.slots.toList.take table.count).filterMap id := rfl
  rw [hdisks, hslots, List.filterMap_map, List.map_filterMap]
  exact (List.filterMap_congr hsome).trans (congrFun List.filterMap_eq_map' _)

theorem Dense.size_disks (h : table.Dense) : table.disks.size = table.count := by
  simpa using congrArg List.length h.map_some_disks

/-- Reading the array is reading the slots. -/
theorem Dense.getElem?_disks (h : table.Dense) (i : Nat) : table.disks[i]? = table.get? i := by
  by_cases hi : i < table.count
  · have hentry := congrArg (·[i]?) h.map_some_disks
    simp only [List.getElem?_map, List.getElem?_range hi, Option.map_some, Array.getElem?_toList] at hentry
    obtain ⟨disk, hd, hsome⟩ := Option.map_eq_some_iff.mp hentry
    rw [hd, hsome]
  · rw [h.get?_eq_none (Nat.le_of_not_lt hi), Array.getElem?_eq_none (h.size_disks ▸ Nat.le_of_not_lt hi)]

theorem Dense.listing_eq (h : table.Dense) : table.listing = .ok table.disks.toList := if_pos h.used_le

theorem Dense.map_index_disks (h : table.Dense) : table.disks.toList.map (·.index) = List.range table.count := by
  refine List.ext_getElem? fun i => ?_
  rw [List.getElem?_map, Array.getElem?_toList, h.getElem?_disks]
  by_cases hi : i < table.count
  · obtain ⟨disk, hd⟩ := h.exists_get?_of_lt hi
    rw [hd, Option.map_some, h.index_eq i disk hd, List.getElem?_range hi]
  · rw [h.get?_eq_none (Nat.le_of_not_lt hi), List.getElem?_eq_none (by simpa using hi)]
    rfl

/-- Adding a disk to the table is adding it to the end of the array. -/
theorem Dense.index_lt (h : table.Dense) (hd : disk ∈ table.disks) : disk.index < table.capacity := by
  have hindex : disk.index ∈ table.disks.toList.map (·.index) := List.mem_map_of_mem (Array.mem_toList_iff.mpr hd)
  rw [h.map_index_disks] at hindex
  exact Nat.lt_of_lt_of_le (List.mem_range.mp hindex) h.used_le

theorem Dense.disks_added (h : table.Dense) (room : table.isFull = false) (hindex : disk.index = table.count) :
    (table.added disk).disks = table.disks.push disk := by
  refine Array.ext_getElem? fun i => ?_
  rw [(h.added room hindex).getElem?_disks, get?_added (isFull_eq_false_iff.mp room), Array.getElem?_push, h.size_disks,
    h.getElem?_disks]

theorem Dense.disks_marked (h : table.Dense) {new : Disk} (known : table.get? index = some disk)
    (hindex : new.index = index) : (table.marked index new).disks = table.disks.setIfInBounds index new := by
  refine Array.ext_getElem? fun i => ?_
  rw [(h.marked known hindex).getElem?_disks, get?_marked known, Array.getElem?_setIfInBounds, h.size_disks,
    if_pos (h.lt_count_of_get? known), h.getElem?_disks]
  exact if_congr eq_comm rfl rfl

end PolledAta.DiskTable
