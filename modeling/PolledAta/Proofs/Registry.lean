import Mathlib.Data.List.Nodup
import PolledAta.Proofs.Discovery
import PolledAta.Proofs.Moves

/-!
# The table of disks and the mounts

Disks are only ever added to the end of the table, and each of them is asked to be mounted as it is added. So the table
and the mounts tell the same story, whatever is asked of the driver and whatever the devices do.
-/

namespace PolledAta

variable {δ : Type}

/-! ## Labels -/

namespace Label

theorem text_ofIndex : ∀ i < 80, (ofIndex i).map text = .ok (String.ofList [Char.ofNat (0x30 + i), ':']) := by
  decide

/-- Every index below 208 has a label, and no other index below 256. -/
theorem exists_ofIndex {i : Nat} (hi : i % 256 < 208) : ∃ label, ofIndex i = .ok label := by
  rw [ofIndex, if_pos (by omega)]
  exact ⟨_, rfl⟩

theorem eq_overflow_of_error {i : Nat} {fault : Fault} (h : ofIndex i = .error fault) : fault = .overflow := by
  rw [ofIndex] at h
  split at h
  · cases h
  · cases h
    rfl

theorem ofIndex_eq_error {i : Nat} (hi : 208 ≤ i % 256) : ofIndex i = .error .overflow := by
  rw [ofIndex, if_neg (by omega)]

theorem toNat_char : ∀ i < 80, (Char.ofNat (0x30 + i)).toNat = 0x30 + i := by
  decide

/-- The first 80 labels differ in their texts. -/
theorem text_injective {i j : Nat} (hi : i < 80) (hj : j < 80)
    (h : (ofIndex i).map text = (ofIndex j).map text) : i = j := by
  rw [text_ofIndex i hi, text_ofIndex j hj] at h
  have hchars := String.ofList_injective (Except.ok.inj h)
  have hchar : Char.ofNat (0x30 + i) = Char.ofNat (0x30 + j) := by simpa using hchars
  have hnat := congrArg Char.toNat hchar
  rw [toNat_char i hi, toNat_char j hj] at hnat
  omega

end Label

namespace Ide

variable {ide ide' : Ide δ}

/-! ## Mounts -/

@[simp]
theorem mounts_worked (index : Nat) (controller : Controller δ) (session : Session δ) :
    (ide.worked index controller session).mounts = ide.mounts := by
  simp [worked, mounts, List.filterMap_map, Function.comp_def, Entry.mount?]

@[simp]
theorem mounts_noted (records : List Log.Record) : (ide.noted records).mounts = ide.mounts := by
  simp [noted, mounts, List.filterMap_map, Function.comp_def, Entry.mount?]

@[simp]
theorem mounts_enlisted (disk : Disk) (label : Label) :
    (ide.enlisted disk label).mounts = ide.mounts ++ [(disk.index, label)] := by
  simp [enlisted, mounts, List.filterMap_cons, Entry.mount?]

variable {writing : Prop}

/-! ## What every move keeps -/

/-- The later driver has all the disks of the earlier one, and as much room. -/
structure Grown (ide ide' : Ide δ) : Prop where
  controllers : ide'.controllers.size = ide.controllers.size
  capacity : ide'.table.capacity = ide.table.capacity
  initialised : ide.initialised → ide'.initialised
  dense : ide'.table.Dense
  entries : ∀ i disk, ide.table.get? i = some disk → ide'.table.get? i = some disk

theorem Move.grown [Bank δ] {origin : Ide δ} (h : origin.Grown ide) (move : ide.Move writing ide') :
    origin.Grown ide' := by
  cases move with
  | worked => exact ⟨(size_worked ..).trans h.controllers, h.capacity, h.initialised, h.dense, h.entries⟩
  | noted => exact ⟨h.controllers, h.capacity, h.initialised, h.dense, h.entries⟩
  | started => exact ⟨h.controllers, h.capacity, fun _ => rfl, h.dense, h.entries⟩
  | enlisted slot info present room labelled =>
      exact ⟨h.controllers, h.capacity, h.initialised, h.dense.added room rfl,
        fun i disk hd => h.dense.get?_added_of_some room (h.entries i disk hd) _⟩

theorem Moves.grown [Bank δ] (dense : ide.table.Dense) (h : ide.Moves writing ide') : ide.Grown ide' :=
  h.induction Move.grown ⟨rfl, rfl, id, dense, fun _ _ => id⟩

/-- The table is filled from the front with disks of the controllers that are there, and each of them has been asked to
be mounted once, under its own label, in the order of the table. -/
structure Registered (ide : Ide δ) : Prop where
  placed : ide.Placed
  mounts : ide.mounts.map (fun mount => (mount.1, Except.ok mount.2)) =
    (List.range ide.table.count).map fun i => (i, Label.ofIndex i)

theorem registered_fresh (controllers : Array (Controller δ)) (maxDisks : Nat) (clock : Clock)
    (settings : Settings) : (fresh controllers maxDisks clock settings).Registered :=
  ⟨placed_fresh controllers maxDisks clock settings, rfl⟩

/-- No two mounts have the same label. -/
theorem Registered.nodup_labels (h : ide.Registered) (hc : ide.table.capacity ≤ 80) :
    (ide.mounts.map fun mount => mount.2.text).Nodup := by
  have htexts : (ide.mounts.map fun mount => mount.2.text).map (Except.ok : String → Except Fault String) =
      (List.range ide.table.count).map fun i => (Label.ofIndex i).map Label.text := by
    have hmounts := congrArg (List.map fun mount => Except.map Label.text mount.2) h.mounts
    simpa [List.map_map, Function.comp_def, Except.map] using hmounts
  refine List.Nodup.of_map (Except.ok : String → Except Fault String) ?_
  rw [htexts]
  refine List.nodup_range.map_on fun i hi j hj => ?_
  have hle := h.placed.dense.used_le.trans hc
  exact Label.text_injective ((List.mem_range.mp hi).trans_le hle) ((List.mem_range.mp hj).trans_le hle)

theorem Registered.moved [Bank δ] (h : ide.Registered) (move : ide.Move writing ide') : ide'.Registered := by
  cases move with
  | worked => exact ⟨h.placed.worked _ _ _, by rw [mounts_worked]; exact h.mounts⟩
  | noted => exact ⟨h.placed.noted _, by rw [mounts_noted]; exact h.mounts⟩
  | started => exact ⟨⟨h.placed.dense, h.placed.inside⟩, h.mounts⟩
  | enlisted slot info present room labelled =>
      refine ⟨h.placed.enlisted room present _, ?_⟩
      have hcount : ∀ disk label, (ide.enlisted disk label).table.count = ide.table.count + 1 := fun _ _ => rfl
      rw [mounts_enlisted, hcount, List.map_append, h.mounts, List.range_succ, List.map_append, List.map_singleton,
        List.map_singleton, labelled]

theorem Registered.marked (h : ide.Registered) {index : Nat} {disk : Disk} (hd : ide.table.get? index = some disk)
    (status : MountStatus) : (ide.marked index disk status).Registered := by
  have hindex : disk.index = index := h.placed.dense.index_eq index disk hd
  refine ⟨⟨h.placed.dense.marked hd hindex, fun i found hi => ?_⟩, h.mounts⟩
  have hi : (ide.table.marked index { disk with status }).get? i = some found := hi
  rw [DiskTable.get?_marked hd] at hi
  split at hi
  · rw [← Option.some.inj hi]
    exact h.placed.inside index disk hd
  · exact h.placed.inside i found hi

/-! ## Over a history -/

section

variable [Bank δ]

/-- What a step leaves of the disks that are there: only marking a disk changes anything about it, and only its
status. -/
theorem grown_performed (dense : ide.table.Dense) (step : Step δ) (h : step.Done ide ide') :
    ide'.controllers.size = ide.controllers.size ∧ ide'.table.capacity = ide.table.capacity ∧
      (ide.initialised → ide'.initialised) ∧
      ∀ i disk, ide.table.get? i = some disk → ∃ status, ide'.table.get? i = some { disk with status } ∧
        (step ≠ .setStatus i status → status = disk.status) := by
  cases h with
  | moved moves =>
      have h := moves.grown dense
      refine ⟨h.controllers, h.capacity, h.initialised, fun i disk hi => ?_⟩
      exact ⟨disk.status, h.entries i disk hi, fun _ => rfl⟩
  | @marked index disk status _ known =>
      have hget (i : Nat) : (ide.marked index disk status).table.get? i =
          if i = index then some { disk with status } else ide.table.get? i := DiskTable.get?_marked known _ i
      refine ⟨rfl, rfl, id, fun i other hi => ?_⟩
      rw [hget]
      by_cases hne : i = index
      · subst hne
        cases known.symm.trans hi
        exact ⟨status, if_pos rfl, fun hstep => absurd rfl hstep⟩
      · exact ⟨other.status, (if_neg hne).trans hi, fun _ => rfl⟩
  | altered => exact ⟨Array.size_modify, rfl, id, fun i disk hi => ⟨disk.status, hi, fun _ => rfl⟩⟩
  | advanced => exact ⟨rfl, rfl, id, fun i disk hi => ⟨disk.status, hi, fun _ => rfl⟩⟩

theorem Registered.performed (h : ide.Registered) {step : Step δ} (done : step.Done ide ide') : ide'.Registered := by
  cases done with
  | moved moves => exact moves.induction Registered.moved h
  | marked known => exact h.marked known _
  | altered =>
      exact ⟨⟨h.placed.dense, fun i disk hd => (h.placed.inside i disk hd).trans_eq Array.size_modify.symm⟩, h.mounts⟩
  | advanced => exact ⟨⟨h.placed.dense, h.placed.inside⟩, h.mounts⟩

theorem registered_history {controllers : Array (Controller δ)} {maxDisks : Nat} {clock : Clock} {settings : Settings}
    {steps : List (Step δ)} {answers : List Answer}
    (run : history steps (fresh controllers maxDisks clock settings) = .ok (answers, ide)) : ide.Registered :=
  history_done_induction (fun _ _ _ _ h done => h.performed done) (registered_fresh ..) run

/-! ## Probes and starts -/

/-- A probe that answers with an index has filled the slot of that index, and no other. -/
theorem probed_registers (dense : ide.table.Dense) {index : Nat} {slot : DriveSlot} {answer : Except AtaError Nat}
    (h : IdeM.Probed ide index slot answer ide') :
    (∀ i, answer = .ok i → i = ide.table.count ∧ ∃ info label, Label.ofIndex i = .ok label ∧
      ide'.table.capacity = ide.table.capacity ∧ ide'.table.count = i + 1 ∧
      (∀ j, ide'.table.get? j = if j = i then some ⟨i, index, slot, info, .uninitialized⟩ else ide.table.get? j) ∧
      ide'.table.disks = ide.table.disks.push ⟨i, index, slot, info, .uninitialized⟩ ∧
      ide'.mounts = ide.mounts ++ [(i, label)]) ∧
    ∀ error, answer = .error error → ide'.table = ide.table ∧ ide'.mounts = ide.mounts := by
  cases h with
  | missing => exact ⟨nofun, fun _ _ => ⟨rfl, rfl⟩⟩
  | refused => exact ⟨nofun, fun _ _ => ⟨rfl, by simp⟩⟩
  | enrolled found identified enrolment =>
      rcases IdeM.enrol_eq_ok enrolment with ⟨_, rfl, rfl⟩ | ⟨label, room, hlabel, rfl, rfl⟩
      · exact ⟨nofun, fun _ _ => ⟨rfl, by simp⟩⟩
      · refine ⟨fun i hi => ?_, nofun⟩
        cases hi
        have room : ide.table.isFull = false := room
        refine ⟨rfl, _, label, hlabel, rfl, rfl, fun j => ?_, dense.disks_added room rfl, by simp⟩
        exact DiskTable.get?_added (DiskTable.isFull_eq_false_iff.mp room) _ j

theorem initialised_of_init (dense : ide.table.Dense) (h : IdeM.init ide = .ok ((), ide')) : ide'.initialised := by
  rcases IdeM.init_eq_ok h with ⟨hi, rfl⟩ | ⟨_, h⟩
  · exact hi
  · have hmoves : Moves False { ide with initialised := true } ide' := IdeM.moves_initControllers h
    have hgrown : Grown { ide with initialised := true } ide' := hmoves.grown dense
    exact hgrown.initialised rfl

/-- Once the driver is started, it stays so. -/
theorem Registered.initialised_of_mem (registered : ide.Registered) {steps : List (Step δ)} {answers : List Answer}
    (h : history steps ide = .ok (answers, ide'))
    (hinit : ide.initialised ∨ .init ∈ steps) : ide'.initialised := by
  induction steps generalizing ide answers with
  | nil =>
      cases h
      exact hinit.resolve_right List.not_mem_nil
  | cons step rest ih =>
      obtain ⟨answer, mid, later, hstep, hrest, rfl⟩ := history_cons_eq_ok h
      have dense := registered.placed.dense
      refine ih (registered.performed (step.done hstep)) hrest ?_
      rcases hinit with hinit | hinit
      · exact .inl ((grown_performed dense step (step.done hstep)).2.2.1 hinit)
      · rcases List.mem_cons.mp hinit with rfl | hinit
        · obtain ⟨_, _, hinit, h⟩ := Program.bind_eq_ok.mp hstep
          cases h
          exact .inl (initialised_of_init dense hinit)
        · exact .inr hinit

end

end Ide

/-- Whatever is asked of a driver and whatever its devices do, exactly the slots of its table below the counter hold a
disk, with the number of the slot and one of the controllers, and each of them has been asked to be mounted once, in
order and under a label of its own. A step keeps what is known of the disks and only marks those it is asked to mark, a
probe fills the slot it answers with and no other, and a start after the first one fills none. -/
theorem registry_stays_consistent [Bank δ] {controllers : Array (Controller δ)} {maxDisks : Nat} {clock : Clock}
    {settings : Settings} (capacity : maxDisks ≤ 80) {steps : List (Step δ)} {answers : List Answer} {ide : Ide δ}
    (run : history steps (.fresh controllers maxDisks clock settings) = .ok (answers, ide)) :
    (ide.table.count ≤ maxDisks ∧ (∀ i, (ide.table.get? i).isSome ↔ i < ide.table.count) ∧
      (∀ i disk, ide.table.get? i = some disk → disk.index = i ∧ disk.controller < controllers.size) ∧
      (∃ disks, ide.table.listing = .ok disks ∧ disks.map some = (List.range ide.table.count).map ide.table.get?) ∧
      ide.mounts.map (fun mount => (mount.1, .ok mount.2)) =
        (List.range ide.table.count).map (fun i => (i, Label.ofIndex i)) ∧
      (ide.mounts.map fun mount => mount.2.text).Nodup) ∧
    (∀ (step : Step δ) answer ide', step.perform ide = .ok (answer, ide') → ∀ i disk, ide.table.get? i = some disk →
      ∃ status, ide'.table.get? i = some { disk with status } ∧
        (step ≠ .setStatus i status → status = disk.status)) ∧
    (∀ i status, ide.table.count ≤ i → IdeM.setStatus i status ide = .ok (.error (.badIndex i), ide)) ∧
    (∀ controller slot answer ide', IdeM.probe controller slot ide = .ok (answer, ide') →
      (∀ i, answer = .ok i → i = ide.table.count ∧ ∃ info label, Label.ofIndex i = .ok label ∧
        ide'.table.capacity = ide.table.capacity ∧ ide'.table.count = i + 1 ∧
        (∀ j, ide'.table.get? j =
          if j = i then some ⟨i, controller, slot, info, .uninitialized⟩ else ide.table.get? j) ∧
        ide'.table.disks = ide.table.disks.push ⟨i, controller, slot, info, .uninitialized⟩ ∧
        ide'.mounts = ide.mounts ++ [(i, label)]) ∧
      ∀ error, answer = .error error → ide'.table = ide.table ∧ ide'.mounts = ide.mounts) ∧
    (.init ∈ steps → ∀ ide', IdeM.init ide = .ok ((), ide') → ide'.table = ide.table ∧ ide'.mounts = ide.mounts) := by
  have hreg := Ide.registered_history run
  have hdense := hreg.placed.dense
  obtain ⟨_, hsize, hcapacity⟩ : ide.Registered ∧ ide.controllers.size = controllers.size ∧
      ide.table.capacity = maxDisks := by
    refine history_done_induction (P := fun ide => ide.Registered ∧ ide.controllers.size = controllers.size ∧
      ide.table.capacity = maxDisks) (fun step _ _ _ h done => ?_) ⟨Ide.registered_fresh .., rfl, rfl⟩ run
    obtain ⟨hs, hc, _⟩ := Ide.grown_performed h.1.placed.dense step done
    exact ⟨h.1.performed done, hs.trans h.2.1, hc.trans h.2.2⟩
  refine ⟨⟨?_, hdense.isSome_iff, ?_, ?_, hreg.mounts, ?_⟩, ?_, ?_, ?_, ?_⟩
  · exact hdense.used_le.trans_eq hcapacity
  · intro i disk hd
    exact ⟨hdense.index_eq i disk hd, (hreg.placed.inside i disk hd).trans_eq hsize⟩
  · exact ⟨_, hdense.listing_eq, hdense.map_some_disks⟩
  · exact hreg.nodup_labels (hcapacity.trans_le capacity)
  · intro step answer ide' hstep
    exact (Ide.grown_performed hdense step (step.done hstep)).2.2.2
  · intro i status hi
    exact IdeM.setStatus_of_unknown (hdense.get?_eq_none hi) status
  · intro controller slot answer ide' hprobe
    exact Ide.probed_registers hdense (IdeM.probe_eq_ok hprobe)
  · intro hinit ide' hagain
    have hstarted := (Ide.registered_fresh ..).initialised_of_mem run (.inr hinit)
    rcases IdeM.init_eq_ok hagain with ⟨_, rfl⟩ | ⟨hnot, _⟩
    · exact ⟨rfl, Ide.mounts_noted _⟩
    · rw [hstarted] at hnot
      cases hnot

/-- A start, a mark, a probe that finds nothing, a second start, and a probe that finds the table full. -/
def Ide.sampleCrowded : List (Step Emulator.Channel) :=
  [.init, .setStatus 0 .mounted, .probe 0 .slave, .init, .probe 0 .master]

theorem Ide.exists_sampleCrowded : ∃ answers ide disk, history sampleCrowded sample = .ok (answers, ide) ∧
    ide.table.count = 1 ∧ ide.table.get? 0 = some disk ∧ disk.status = .mounted ∧
    ∃ ide', IdeM.probe 0 .master ide = .ok (.error .tableFull, ide') := by
  have hrun : (match history sampleCrowded sample with
      | .ok (_, ide) => (ide.table.get? 0).any fun disk =>
          decide (ide.table.count = 1 ∧ disk.status = .mounted) &&
            match IdeM.probe 0 .master ide with
            | .ok (answer, _) => answer = .error .tableFull
            | .error _ => false
      | .error _ => false) = true := by decide +kernel
  split at hrun
  · rename_i answers ide run
    obtain ⟨disk, known, hrun⟩ := (Option.any_eq_true _ _).mp hrun
    obtain ⟨hstate, hrun⟩ := Bool.and_eq_true_iff.mp hrun
    obtain ⟨count, status⟩ := of_decide_eq_true hstate
    split at hrun
    · rename_i answer ide' probed
      rw [of_decide_eq_true hrun] at probed
      exact ⟨answers, ide, disk, run, count, known, status, ide', probed⟩
    · cases hrun
  · cases hrun

theorem sample_registry_consistent : ∃ answers ide disk, 1 ≤ 80 ∧
    history Ide.sampleCrowded Ide.sample = .ok (answers, ide) ∧
    ide.table.listing = .ok [disk] ∧ disk.index = 0 ∧ disk.status = .mounted ∧
    ide.mounts.map (fun mount => (mount.1, .ok mount.2)) = [(0, Label.ofIndex 0)] ∧
    (∃ ide', IdeM.probe 0 .master ide = .ok (.error .tableFull, ide') ∧ ide'.table = ide.table ∧
      ide'.mounts = ide.mounts) ∧
    ∀ ide', IdeM.init ide = .ok ((), ide') → ide'.table = ide.table ∧ ide'.mounts = ide.mounts := by
  obtain ⟨answers, ide, disk, run, count, known, status, ide', probed⟩ := Ide.exists_sampleCrowded
  obtain ⟨⟨_, _, hentries, ⟨disks, hlisting, hdisks⟩, hmounts, _⟩, _, _, hprobe, hagain⟩ :=
    registry_stays_consistent (by decide) run
  have hone : disks.map some = [disk].map some := by
    rw [hdisks, count, List.map_singleton, ← known]
    rfl
  obtain rfl := List.map_injective_iff.mpr (Option.some_injective _) hone
  rw [count] at hmounts
  exact ⟨answers, ide, disk, by decide, run, hlisting, (hentries 0 disk known).1, status, hmounts,
    ⟨ide', probed, (hprobe _ _ _ _ probed).2 _ rfl⟩, hagain List.mem_cons_self⟩

end PolledAta
