import PolledAta.Proofs.Registry

/-!
# What a start finds

On channels without faults a start visits the slots in order, whatever was left unfinished there. It asks each drive to
identify itself once, and enters the drives with LBA addressing in the table as long as there is room.
-/

namespace PolledAta

open Emulator

/-! ## Asking a slot -/

/-- What a slot answers when its drive is to be identified. -/
def identity : Option Drive → Except AtaError Identify.Page
  | none => .error .noDevice
  | some drive => if drive.page.supportsLba then .ok drive.page else .error .unsupported

theorem identity_ne_noDevice (drive : Drive) : identity (some drive) ≠ .error .noDevice := by
  rw [identity]
  split <;> nofun

theorem identity_eq_ok {drive : Option Drive} {page : Identify.Page} (h : identity drive = .ok page) :
    ∃ found, drive = some found ∧ found.page.supportsLba = true ∧ page = found.page := by
  cases drive with
  | none => cases h
  | some found =>
      rw [identity] at h
      split at h
      · rename_i hlba
        cases h
        exact ⟨found, rfl, hlba, rfl⟩
      · cases h

/-- The commands that a slot is sent to find out what is in it. -/
def enquiry (slot : DriveSlot) (drive : Option Drive) : List (DriveSlot × UInt8) :=
  if drive.isSome then [(slot, Command.identify)] else []

theorem Emulator.Channel.identify_ends {s : Session Channel} (hf : s.device.faults = .none)
    (hp : s.device.phase = .idle) (slot : DriveSlot) (timeoutMs : UInt32) :
    ∃ t trace, BusM.identify slot timeoutMs s = .ok (identity (s.device.drive slot), t) ∧ s.Runs t trace ∧
      s.device.Rested t.device ∧ ∀ selected, commands selected trace = enquiry slot (s.device.drive slot) := by
  have hends : ∃ t, BusM.identify slot timeoutMs s = .ok (identity (s.device.drive slot), t) := by
    cases hd : s.device.drive slot with
    | none =>
        obtain ⟨t, hrun, _⟩ := (leads_identify_of_absent timeoutMs hf hd).run s rfl
        exact ⟨t, hrun⟩
    | some drive =>
        obtain ⟨t, hrun, _⟩ := (leads_identify_of_present timeoutMs hf (ne_of_eq_of_ne hp nofun) hd).run s rfl
        exact ⟨t, hrun⟩
  obtain ⟨t, hrun⟩ := hends
  obtain ⟨trace, hidentified, hruns⟩ := BusM.identify_eq_ok hrun
  refine ⟨t, trace, hrun, hruns, (identify_eq_ok hf hp hrun).1, fun selected => ?_⟩
  cases hd : s.device.drive slot with
  | none =>
      rw [hd] at hidentified
      rcases hidentified.commands_eq selected with ⟨_, hnone⟩ | ⟨habsurd, _⟩
      · exact hnone
      · exact absurd rfl habsurd
  | some drive =>
      rw [hd] at hidentified
      rcases hidentified.commands_eq selected with ⟨habsurd, _⟩ | ⟨_, hone⟩
      · exact absurd habsurd (identity_ne_noDevice drive)
      · exact hone

/-! ## The slots in order -/

/-- The slots of the first controllers, each by its controller and its place on the channel. -/
def slotsBelow (controllers : Nat) : List (Nat × DriveSlot) :=
  (List.range controllers).flatMap fun controller => DriveSlot.both.map fun slot => (controller, slot)

theorem slotsBelow_succ (controllers : Nat) :
    slotsBelow (controllers + 1) = slotsBelow controllers ++ [(controllers, .master)] ++ [(controllers, .slave)] := by
  rw [slotsBelow, List.range_succ, List.flatMap_append, List.append_assoc]
  rfl

namespace Ide

variable {origin ide ide' : Ide Channel} {visited : List (Nat × DriveSlot)} {started index : Nat} {slot : DriveSlot}
  {controller : Controller Channel} {session : Session Channel} {trace : List Cycle}

/-- The commands of all visits to the slots of one controller. -/
def enquiries (origin : Ide Channel) (visited : List (Nat × DriveSlot)) (index : Nat) : List (DriveSlot × UInt8) :=
  visited.flatMap fun place => if place.1 = index then enquiry place.2 (origin.drive? place.1 place.2) else []

/-- So many controllers have been reset and so many slots have been visited, and nothing else has been done to the
channels. -/
structure Surveyed (origin : Ide Channel) (started : Nat) (visited : List (Nat × DriveSlot)) (ide : Ide Channel) :
    Prop where
  size : ide.controllers.size = origin.controllers.size
  moving : ide.clock.Moving
  faults : ∀ (i : Nat) (c : Controller Channel), ide.controllers[i]? = some c → c.device.faults = .none
  idle : ∀ (i : Nat) (c : Controller Channel), i < started → ide.controllers[i]? = some c → c.device.phase = .idle
  drives : ide.drive? = origin.drive?
  commands : ∀ i selected, commands selected (ide.cycles i) = origin.enquiries visited i

theorem Surveyed.worked {visited' : List (Nat × DriveSlot)} {started' : Nat} (h : origin.Surveyed started visited ide)
    (hc : ide.controllers[index]? = some controller) (hruns : (ide.opened controller).Runs session trace)
    (hrested : controller.device.Rested session.device) (hstarted : ∀ i, i < started' → i = index ∨ i < started)
    (hself : ∀ selected, origin.enquiries visited' index =
      origin.enquiries visited index ++ PolledAta.commands selected trace)
    (hothers : ∀ i, i ≠ index → origin.enquiries visited' i = origin.enquiries visited i) :
    origin.Surveyed started' visited' (ide.worked index controller session) where
  size := (size_worked ..).trans h.size
  moving := hruns.moving h.moving
  faults := forall_worked ide controller session hc (hrested.faults.trans (h.faults _ _ hc)) fun i c _ => h.faults i c
  idle := by
    have hidle := forall_worked ide controller session hc (fun _ => hrested.phase) fun i c hne hi hlt =>
      h.idle i c ((hstarted i hlt).resolve_left hne) hi
    exact fun i c hlt hi => hidle i c hi hlt
  drives := (drive?_worked hc hrested.drives).trans h.drives
  commands i selected := by
    by_cases hi : i = index
    · subst hi
      rw [worked_cycles_self, commands_append, h.commands, hself, hruns.cycles, opened_cycles, List.nil_append]
    · rw [worked_cycles_of_ne _ _ _ hi, h.commands, hothers i hi]

theorem Surveyed.noted (h : origin.Surveyed started visited ide) (records : List Log.Record) :
    origin.Surveyed started visited (ide.noted records) :=
  ⟨h.size, h.moving, h.faults, h.idle, h.drives, fun i selected => by rw [cycles_noted]; exact h.commands i selected⟩

theorem Surveyed.enlisted (h : origin.Surveyed started visited ide) (disk : Disk) (label : Label) :
    origin.Surveyed started visited (ide.enlisted disk label) :=
  ⟨h.size, h.moving, h.faults, h.idle, h.drives, fun i selected => by rw [cycles_enlisted]; exact h.commands i selected⟩

theorem Surveyed.exists_controller (h : origin.Surveyed started visited ide) (hi : index < origin.controllers.size) :
    ∃ controller, ide.controllers[index]? = some controller :=
  ⟨_, Array.getElem?_eq_getElem (hi.trans_eq h.size.symm)⟩

theorem Surveyed.reset (h : origin.Surveyed started visited ide) (hi : started < origin.controllers.size) :
    ∃ ide', IdeM.reset started ide = .ok ((), ide') ∧ origin.Surveyed (started + 1) visited ide' ∧
      ide'.table = ide.table := by
  obtain ⟨controller, hc⟩ := h.exists_controller hi
  have hmoving : (ide.opened controller).clock.Moving := h.moving
  obtain ⟨session, hrun⟩ := BusM.reset_ends controller.base ide.settings hmoving
  refine ⟨ide.worked started controller session, ?_, ?_, rfl⟩
  · rw [IdeM.reset, Program.bind_of_ok rfl, Program.bind_of_ok rfl, hc]
    exact IdeM.onController_of_ok hc hrun
  · refine h.worked hc (BusM.reset_eq_ok hrun) (Channel.reset_eq_ok hrun) (fun i hlt => by omega) ?_ fun _ _ => rfl
    intro selected
    rw [commands_resetCycles, List.append_nil]

/-! ## The table -/

/-- The drive in this place has LBA addressing. -/
def hasLba (ide : Ide Channel) (place : Nat × DriveSlot) : Bool :=
  (ide.drive? place.1 place.2).any fun drive => drive.page.supportsLba

theorem hasLba_of_error {error : AtaError} (h : identity (origin.drive? index slot) = .error error) :
    origin.hasLba (index, slot) = false := by
  rw [hasLba]
  cases hd : origin.drive? index slot with
  | none => rfl
  | some drive =>
      rw [hd, identity] at h
      split at h
      · cases h
      · rename_i hlba
        simpa using hlba

/-- The table holds the first drives with LBA addressing among the slots visited, as far as it has room for them. -/
structure Listed (origin : Ide Channel) (limit : Nat) (visited : List (Nat × DriveSlot)) (table : DiskTable) :
    Prop where
  dense : table.Dense
  capacity : table.capacity = limit
  places : table.disks.toList.map (fun disk => (disk.controller, disk.slot)) =
    (visited.filter origin.hasLba).take limit
  entries : ∀ k disk, table.get? k = some disk → disk.index = k ∧ disk.status = .uninitialized ∧
    ∃ drive, origin.drive? disk.controller disk.slot = some drive ∧ disk.info = .ofPage drive.page

variable {limit : Nat} {table : DiskTable} {place : Nat × DriveSlot}

theorem Listed.count_eq (h : origin.Listed limit visited table) :
    table.count = min limit (visited.filter origin.hasLba).length := by
  have hlength := congrArg List.length h.places
  rw [List.length_map, Array.length_toList, h.dense.size_disks, List.length_take] at hlength
  exact hlength

theorem Listed.isFull_iff (h : origin.Listed limit visited table) :
    table.isFull = true ↔ limit ≤ (visited.filter origin.hasLba).length := by
  rw [DiskTable.isFull, decide_eq_true_iff, h.capacity, h.count_eq]
  omega

theorem Listed.count_lt (h : origin.Listed limit visited table) (hroom : table.isFull = false) :
    table.count < limit := by
  have hlt := mt h.isFull_iff.mpr (by simp [hroom])
  rw [h.count_eq]
  omega

/-- A slot without such a drive adds nothing, and neither does any slot once the table is full. -/
theorem Listed.pass (h : origin.Listed limit visited table)
    (hpass : origin.hasLba place = false ∨ table.isFull = true) : origin.Listed limit (visited ++ [place]) table := by
  refine ⟨h.dense, h.capacity, ?_, h.entries⟩
  rw [h.places, List.filter_append]
  rcases hpass with hlba | hfull
  · simp [hlba]
  · rw [List.take_append_of_le_length (h.isFull_iff.mp hfull)]

theorem Listed.push (h : origin.Listed limit visited table) (hroom : table.isFull = false) {drive : Drive}
    (hd : origin.drive? place.1 place.2 = some drive) (hlba : drive.page.supportsLba = true) :
    origin.Listed limit (visited ++ [place])
      (table.added ⟨table.count, place.1, place.2, .ofPage drive.page, .uninitialized⟩) := by
  refine ⟨h.dense.added hroom rfl, h.capacity, ?_, fun k disk hk => ?_⟩
  · have hplace : origin.hasLba place = true := by simp [hasLba, hd, hlba]
    have hshort : (visited.filter origin.hasLba).length < limit :=
      Nat.lt_of_not_le (mt h.isFull_iff.mpr (by simp [hroom]))
    rw [h.dense.disks_added hroom rfl, Array.toList_push, List.map_append, h.places, List.filter_append,
      List.take_of_length_le hshort.le, List.take_of_length_le]
    · simp [hplace]
    · simpa [hplace, Nat.add_one_le_iff] using hshort
  · rw [DiskTable.get?_added (DiskTable.isFull_eq_false_iff.mp hroom)] at hk
    split at hk
    · rename_i hlast
      cases hk
      exact ⟨hlast.symm, rfl, drive, hd, rfl⟩
    · exact h.entries k disk hk

/-! ## Visits -/

theorem Surveyed.probe (h : origin.Surveyed started visited ide) (hl : origin.Listed limit visited ide.table)
    (hlimit : limit ≤ 80) (hi : index < started) (hsize : index < origin.controllers.size) (slot : DriveSlot) :
    ∃ answer ide', IdeM.probe index slot ide = .ok (answer, ide') ∧
      origin.Surveyed started (visited ++ [(index, slot)]) ide' ∧
      origin.Listed limit (visited ++ [(index, slot)]) ide'.table := by
  obtain ⟨controller, hc⟩ := h.exists_controller hsize
  obtain ⟨session, trace, hrun, hruns, hrested, hcommands⟩ := Channel.identify_ends (s := ide.opened controller)
    (h.faults _ _ hc) (h.idle _ _ hi hc) slot ide.settings.commandTimeoutMs
  have hdrive : (ide.opened controller).device.drive slot = origin.drive? index slot := by
    rw [← h.drives, drive?_of_found hc]
    rfl
  rw [hdrive] at hrun hcommands
  have hlabel : ide.table.isFull = false → ∃ label, Label.ofIndex ide.table.count = .ok label := fun hroom =>
    Label.exists_ofIndex (by have hlt := hl.count_lt hroom; omega)
  obtain ⟨⟨answer, ide'⟩, hprobe⟩ := IdeM.probe_ends hc hrun hlabel
  refine ⟨answer, ide', hprobe, ?_⟩
  have hworked : origin.Surveyed started (visited ++ [(index, slot)]) (ide.worked index controller session) := by
    refine h.worked hc hruns hrested (fun i hlt => .inr hlt) (fun selected => ?_) fun i hne => ?_
    · rw [hcommands, enquiries, List.flatMap_append]
      simp [enquiries]
    · simp [enquiries, Ne.symm hne]
  have hprobed := IdeM.probe_eq_ok hprobe
  cases hprobed with
  | missing absent =>
      rw [hc] at absent
      cases absent
  | @refused _ _ error found identified =>
      cases hc.symm.trans found
      obtain ⟨hanswer, rfl⟩ := Prod.mk.inj (Except.ok.inj (hrun.symm.trans identified))
      exact ⟨hworked.noted _, hl.pass (.inl (hasLba_of_error hanswer))⟩
  | @enrolled _ _ page _ _ found identified enrolment =>
      cases hc.symm.trans found
      obtain ⟨hanswer, rfl⟩ := Prod.mk.inj (Except.ok.inj (hrun.symm.trans identified))
      obtain ⟨drive, hd, hlba, rfl⟩ := identity_eq_ok hanswer
      rcases IdeM.enrol_eq_ok enrolment with ⟨hfull, _, rfl⟩ | ⟨label, hroom, _, _, rfl⟩
      · exact ⟨(hworked.noted _).noted _, hl.pass (.inr hfull)⟩
      · exact ⟨(hworked.noted _).enlisted _ label, hl.push hroom hd hlba⟩

theorem Surveyed.initController (h : origin.Surveyed started (slotsBelow started) ide)
    (hl : origin.Listed limit (slotsBelow started) ide.table) (hlimit : limit ≤ 80)
    (hsize : started < origin.controllers.size) :
    ∃ ide', IdeM.initController started ide = .ok ((), ide') ∧
      origin.Surveyed (started + 1) (slotsBelow (started + 1)) ide' ∧
      origin.Listed limit (slotsBelow (started + 1)) ide'.table := by
  obtain ⟨afterReset, hreset, h, htable⟩ := h.reset hsize
  rw [← htable] at hl
  obtain ⟨_, afterMaster, hmaster, h, hl⟩ := h.probe hl hlimit (Nat.lt_succ_self _) hsize .master
  obtain ⟨_, afterSlave, hslave, h, hl⟩ := h.probe hl hlimit (Nat.lt_succ_self _) hsize .slave
  rw [← slotsBelow_succ] at h hl
  refine ⟨afterSlave, ?_, h, hl⟩
  rw [IdeM.initController, Program.bind_of_ok hreset, Program.bind_of_ok hmaster, Program.bind_of_ok hslave]
  rfl

theorem Surveyed.initControllers {count : Nat} (h : origin.Surveyed started (slotsBelow started) ide)
    (hl : origin.Listed limit (slotsBelow started) ide.table) (hlimit : limit ≤ 80)
    (hsize : started + count = origin.controllers.size) :
    ∃ ide', IdeM.initControllers (List.range' started count) ide = .ok ((), ide') ∧
      origin.Surveyed origin.controllers.size (slotsBelow origin.controllers.size) ide' ∧
      origin.Listed limit (slotsBelow origin.controllers.size) ide'.table := by
  induction count generalizing started ide with
  | zero =>
      have hsize : started = origin.controllers.size := hsize
      subst hsize
      exact ⟨ide, rfl, h, hl⟩
  | succ count ih =>
      obtain ⟨between, hfirst, h, hl⟩ := h.initController hl hlimit (by omega)
      obtain ⟨ide', hrest, h, hl⟩ := ih h hl (by omega)
      refine ⟨ide', ?_, h, hl⟩
      rw [List.range'_succ, IdeM.initControllers, Program.bind_of_ok hfirst, hrest]

end Ide

end PolledAta
