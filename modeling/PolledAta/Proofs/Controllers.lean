import PolledAta.Ide.Probe
import PolledAta.Proofs.Session
import PolledAta.Proofs.Table

/-!
# Work on the controllers

A program on one channel changes the device of that controller, the clock and the journal of the driver, and nothing
else. Probing a slot does such work, reports on it, and may add one disk at the end of the table.
-/

namespace PolledAta

variable {δ : Type}

namespace Ide

/-- The driver after a session on one of its controllers. -/
def worked (ide : Ide δ) (index : Nat) (controller : Controller δ) (session : Session δ) : Ide δ :=
  { ide with
    controllers := ide.controllers.setIfInBounds index { controller with device := session.device }
    clock := session.clock
    journal := ide.journal ++ session.history.map (Entry.line index) }

/-- The state in which a program on a controller starts. -/
def opened (ide : Ide δ) (controller : Controller δ) : Session δ := ⟨controller.device, ide.clock, #[]⟩

variable (ide : Ide δ) (controller : Controller δ) (session : Session δ)

@[simp]
theorem opened_cycles : (ide.opened controller).cycles = [] := rfl

@[simp]
theorem size_worked (index : Nat) :
    (ide.worked index controller session).controllers.size = ide.controllers.size := by
  simp [worked]

theorem worked_controllers_self {index : Nat} (h : ide.controllers[index]? = some controller) :
    (ide.worked index controller session).controllers[index]? =
      some { controller with device := session.device } := by
  obtain ⟨hlt, _⟩ := Array.getElem?_eq_some_iff.mp h
  simp [worked, hlt]

theorem worked_controllers_of_ne {index other : Nat} (h : other ≠ index) :
    (ide.worked index controller session).controllers[other]? = ide.controllers[other]? := by
  simp [worked, Array.getElem?_setIfInBounds_ne (Ne.symm h)]

theorem forall_worked {P : Nat → Controller δ → Prop} {index : Nat} (h : ide.controllers[index]? = some controller)
    (self : P index { controller with device := session.device })
    (others : ∀ i found, i ≠ index → ide.controllers[i]? = some found → P i found) :
    ∀ i found, (ide.worked index controller session).controllers[i]? = some found → P i found := by
  intro i found hf
  by_cases hi : i = index
  · subst hi
    rw [worked_controllers_self ide controller session h] at hf
    exact Option.some.inj hf ▸ self
  · rw [worked_controllers_of_ne ide controller session hi] at hf
    exact others i found hi hf

theorem worked_opened {index : Nat} (h : ide.controllers[index]? = some controller) :
    ide.worked index controller (ide.opened controller) = ide := by
  have hset : ide.controllers.setIfInBounds index controller = ide.controllers := by
    refine Array.ext_getElem? fun i => ?_
    by_cases hi : index = i
    · subst hi
      obtain ⟨hlt, _⟩ := Array.getElem?_eq_some_iff.mp h
      rw [Array.getElem?_setIfInBounds_self_of_lt hlt, h]
    · rw [Array.getElem?_setIfInBounds_ne hi]
  simp [worked, opened, hset]

theorem worked_cycles_self (index : Nat) :
    (ide.worked index controller session).cycles index = ide.cycles index ++ session.cycles := by
  simp [worked, cycles, Session.cycles, List.filterMap_map, Function.comp_def, Entry.cycleOn?]

theorem worked_cycles_of_ne {index other : Nat} (h : other ≠ index) :
    (ide.worked index controller session).cycles other = ide.cycles other := by
  simp [worked, cycles, List.filterMap_map, Function.comp_def, Entry.cycleOn?, Ne.symm h]

theorem cycles_worked (index other : Nat) :
    (ide.worked index controller session).cycles other =
      ide.cycles other ++ if other = index then session.cycles else [] := by
  by_cases h : other = index
  · rw [if_pos h, h, worked_cycles_self]
  · rw [if_neg h, worked_cycles_of_ne _ _ _ h, List.append_nil]

/-! ## The journal -/

def noted (records : List Log.Record) : Ide δ :=
  { ide with journal := ide.journal ++ (records.map Entry.log).toArray }

@[simp]
theorem noted_nil : ide.noted [] = ide := by
  simp [noted]

@[simp]
theorem noted_noted (first second : List Log.Record) :
    (ide.noted first).noted second = ide.noted (first ++ second) := by
  simp [noted]

/-- The driver once it has a further disk and has asked for it to be mounted. -/
def enlisted (disk : Disk) (label : Label) : Ide δ :=
  { ide with
    table := ide.table.added disk
    journal := (ide.journal.push
      (.log ⟨.debug, "requesting lazy mount of " ++ label.text⟩)).push (.mount disk.index label) }

@[simp]
theorem cycles_noted (records : List Log.Record) (index : Nat) :
    (ide.noted records).cycles index = ide.cycles index := by
  simp [noted, cycles, List.filterMap_map, Function.comp_def, Entry.cycleOn?]

@[simp]
theorem cycles_enlisted (disk : Disk) (label : Label) (index : Nat) :
    (ide.enlisted disk label).cycles index = ide.cycles index := by
  simp [enlisted, cycles, List.filterMap_cons, Entry.cycleOn?]

end Ide

namespace IdeM

variable {α : Type} {program : BusM δ α} {ide ide' : Ide δ} {index : Nat} {a : α}

theorem onController_of_ok {controller : Controller δ} {session : Session δ}
    (hc : ide.controllers[index]? = some controller)
    (hr : program (ide.opened controller) = .ok (a, session)) :
    onController index program ide = .ok (a, ide.worked index controller session) := by
  unfold Ide.opened at hr
  simp only [onController, hc, hr]
  rfl

theorem onController_of_error {controller : Controller δ} {fault : Fault}
    (hc : ide.controllers[index]? = some controller) (hr : program (ide.opened controller) = .error fault) :
    onController index program ide = .error fault := by
  unfold Ide.opened at hr
  simp only [onController, hc, hr]

theorem onController_eq_ok (h : onController index program ide = .ok (a, ide')) :
    ∃ controller session, ide.controllers[index]? = some controller ∧
      program (ide.opened controller) = .ok (a, session) ∧ ide' = ide.worked index controller session := by
  unfold onController at h
  split at h
  · cases h
  · rename_i controller hc
    split at h
    · cases h
    · rename_i result session hr
      cases h
      exact ⟨controller, session, hc, hr, rfl⟩

theorem log_run (ide : Ide δ) (level : Log.Level) (text : String) :
    log level text ide = .ok ((), ide.noted [⟨level, text⟩]) :=
  rfl

theorem dumpPage_run (ide : Ide δ) (lines : List String) :
    dumpPage lines ide = .ok ((), ide.noted (lines.map (⟨.trace, ·⟩))) := by
  induction lines generalizing ide with
  | nil =>
      rw [List.map_nil, Ide.noted_nil]
      rfl
  | cons line lines ih =>
      rw [dumpPage, Program.bind_of_ok (log_run ..), ih, Ide.noted_noted]
      rfl

/-! ## Probing -/

/-- What is logged of a drive that was identified. -/
def report (base : UInt16) (slot : DriveSlot) (dump : Bool) (page : Identify.Page) : List Log.Record :=
  (if dump then page.dump.map (⟨.trace, ·⟩) else []) ++
    [⟨.info, probeText base slot (page.model.text ++ " (" ++ toString page.capacity.toNat ++
      " sectors, " ++ toString (page.capacity >>> 11).toNat ++ " MB)")⟩]

theorem enrol_of_full (full : ide.table.isFull = true) (controller : Nat) (slot : DriveSlot) (info : DriveInfo) :
    enrol controller slot info ide = .ok (.error .tableFull, ide.noted [⟨.warn, AtaError.tableFull.message⟩]) := by
  rw [enrol, Program.bind_of_ok rfl, DiskTable.register_of_full full]
  rfl

theorem enrol_of_labelled {label : Label} (room : ide.table.isFull = false)
    (labelled : Label.ofIndex ide.table.count = .ok label) (controller : Nat) (slot : DriveSlot) (info : DriveInfo) :
    enrol controller slot info ide =
      .ok (.ok ide.table.count, ide.enlisted ⟨ide.table.count, controller, slot, info, .uninitialized⟩ label) := by
  rw [enrol, Program.bind_of_ok rfl, DiskTable.register_of_room room]
  have hlift : (liftM (Label.ofIndex ide.table.count) : IdeM δ Label) ide = .ok (label, ide) :=
    Program.lift_eq_ok.mpr ⟨labelled, rfl⟩
  exact Program.bind_of_ok hlift

theorem enrol_of_unlabelled {fault : Fault} (room : ide.table.isFull = false)
    (unlabelled : Label.ofIndex ide.table.count = .error fault) (controller : Nat) (slot : DriveSlot)
    (info : DriveInfo) : enrol controller slot info ide = .error fault := by
  rw [enrol, Program.bind_of_ok rfl, DiskTable.register_of_room room]
  have hlift : (liftM (Label.ofIndex ide.table.count) : IdeM δ Label) ide = .error fault := by
    rw [unlabelled]
    rfl
  exact Program.bind_of_error hlift

theorem enrol_eq_ok {controller : Nat} {slot : DriveSlot} {info : DriveInfo} {answer : Except AtaError Nat}
    (h : enrol controller slot info ide = .ok (answer, ide')) :
    (ide.table.isFull ∧ answer = .error .tableFull ∧ ide' = ide.noted [⟨.warn, AtaError.tableFull.message⟩]) ∨
    ∃ label, ide.table.isFull = false ∧ Label.ofIndex ide.table.count = .ok label ∧
      answer = .ok ide.table.count ∧
      ide' = ide.enlisted ⟨ide.table.count, controller, slot, info, .uninitialized⟩ label := by
  cases hfull : ide.table.isFull with
  | true =>
      rw [enrol_of_full hfull] at h
      cases h
      exact .inl ⟨rfl, rfl, rfl⟩
  | false =>
      cases hlabel : Label.ofIndex ide.table.count with
      | error fault =>
          rw [enrol_of_unlabelled hfull hlabel] at h
          cases h
      | ok label =>
          rw [enrol_of_labelled hfull hlabel] at h
          cases h
          exact .inr ⟨label, rfl, rfl, rfl, rfl⟩

theorem enrol_ends (labelled : ide.table.isFull = false → ∃ label, Label.ofIndex ide.table.count = .ok label)
    (controller : Nat) (slot : DriveSlot) (info : DriveInfo) :
    ∃ result, enrol controller slot info ide = .ok result := by
  cases hfull : ide.table.isFull with
  | true => exact ⟨_, enrol_of_full hfull ..⟩
  | false =>
      obtain ⟨label, hlabel⟩ := labelled hfull
      exact ⟨_, enrol_of_labelled hfull hlabel ..⟩

/-! ## What comes of a probe -/

section

variable [Bank δ] {controller : Controller δ} {session : Session δ} {slot : DriveSlot}

theorem probe_of_absent (absent : ide.controllers[index]? = none) :
    probe index slot ide = .ok (.error (.badIndex index), ide) := by
  rw [probe, Program.bind_of_ok rfl, Program.bind_of_ok rfl, absent]
  rfl

theorem probe_of_fault {fault : Fault} (found : ide.controllers[index]? = some controller)
    (broken : BusM.identify slot ide.settings.commandTimeoutMs (ide.opened controller) = .error fault) :
    probe index slot ide = .error fault := by
  rw [probe, Program.bind_of_ok rfl, Program.bind_of_ok rfl]
  simp only [found, Option.map_some, Program.bind_of_error (onController_of_error found broken)]

theorem probe_of_error {error : AtaError} (found : ide.controllers[index]? = some controller)
    (identified : BusM.identify slot ide.settings.commandTimeoutMs (ide.opened controller) =
      .ok (.error error, session)) :
    probe index slot ide = .ok (.error error, (ide.worked index controller session).noted
      [⟨probeFailureLevel error, probeText controller.base slot error.message⟩]) := by
  rw [probe, Program.bind_of_ok rfl, Program.bind_of_ok rfl]
  simp only [found, Option.map_some, Program.bind_of_ok (onController_of_ok found identified)]
  rfl

/-- A drive that has been identified is reported and then registered. -/
theorem probe_of_page {page : Identify.Page} (found : ide.controllers[index]? = some controller)
    (identified : BusM.identify slot ide.settings.commandTimeoutMs (ide.opened controller) =
      .ok (.ok page, session)) :
    probe index slot ide = enrol index slot (.ofPage page) ((ide.worked index controller session).noted
      (report controller.base slot ide.settings.dumpIdentify page)) := by
  rw [probe, Program.bind_of_ok rfl, Program.bind_of_ok rfl]
  simp only [found, Option.map_some, Program.bind_of_ok (onController_of_ok found identified)]
  cases ide.settings.dumpIdentify with
  | false =>
      simp only [Bool.false_eq_true, if_false, Program.bind_of_ok (log_run ..)]
      rfl
  | true =>
      simp only [if_true, Program.bind_of_ok (dumpPage_run ..), Program.bind_of_ok (log_run ..), Ide.noted_noted]
      rfl

/-- The driver once it has identified a drive and reported it. -/
def reported (ide : Ide δ) (index : Nat) (slot : DriveSlot) (controller : Controller δ) (session : Session δ)
    (page : Identify.Page) : Ide δ :=
  (ide.worked index controller session).noted (report controller.base slot ide.settings.dumpIdentify page)

theorem probe_of_full {page : Identify.Page} (found : ide.controllers[index]? = some controller)
    (identified : BusM.identify slot ide.settings.commandTimeoutMs (ide.opened controller) = .ok (.ok page, session))
    (full : ide.table.isFull = true) :
    probe index slot ide = .ok (.error .tableFull,
      (reported ide index slot controller session page).noted [⟨.warn, AtaError.tableFull.message⟩]) := by
  have full : (reported ide index slot controller session page).table.isFull = true := full
  exact (probe_of_page found identified).trans (enrol_of_full full ..)

theorem probe_of_labelled {page : Identify.Page} {label : Label} (found : ide.controllers[index]? = some controller)
    (identified : BusM.identify slot ide.settings.commandTimeoutMs (ide.opened controller) = .ok (.ok page, session))
    (room : ide.table.isFull = false) (labelled : Label.ofIndex ide.table.count = .ok label) :
    probe index slot ide = .ok (.ok ide.table.count, (reported ide index slot controller session page).enlisted
      ⟨ide.table.count, index, slot, .ofPage page, .uninitialized⟩ label) := by
  have room : (reported ide index slot controller session page).table.isFull = false := room
  exact (probe_of_page found identified).trans (enrol_of_labelled room labelled ..)

theorem probe_of_unlabelled {page : Identify.Page} {fault : Fault} (found : ide.controllers[index]? = some controller)
    (identified : BusM.identify slot ide.settings.commandTimeoutMs (ide.opened controller) = .ok (.ok page, session))
    (room : ide.table.isFull = false) (unlabelled : Label.ofIndex ide.table.count = .error fault) :
    probe index slot ide = .error fault := by
  have room : (reported ide index slot controller session page).table.isFull = false := room
  exact (probe_of_page found identified).trans (enrol_of_unlabelled room unlabelled ..)

/-- A drive that has been identified is registered, unless it finds no label. -/
theorem probe_ends {identity : Except AtaError Identify.Page} (found : ide.controllers[index]? = some controller)
    (identified : BusM.identify slot ide.settings.commandTimeoutMs (ide.opened controller) = .ok (identity, session))
    (labelled : ide.table.isFull = false → ∃ label, Label.ofIndex ide.table.count = .ok label) :
    ∃ result, probe index slot ide = .ok result := by
  cases identity with
  | error error => exact ⟨_, probe_of_error found identified⟩
  | ok page =>
      rw [probe_of_page found identified]
      refine enrol_ends ?_ ..
      exact labelled

/-- What a probe has done when it answers. -/
inductive Probed (ide : Ide δ) (index : Nat) (slot : DriveSlot) :
    Except AtaError Nat → Ide δ → Prop where
  | missing (absent : ide.controllers[index]? = none) : Probed ide index slot (.error (.badIndex index)) ide
  | refused {controller : Controller δ} {session : Session δ} {error : AtaError}
      (found : ide.controllers[index]? = some controller)
      (identified : BusM.identify slot ide.settings.commandTimeoutMs (ide.opened controller) =
        .ok (.error error, session)) :
      Probed ide index slot (.error error) ((ide.worked index controller session).noted
        [⟨probeFailureLevel error, probeText controller.base slot error.message⟩])
  | enrolled {controller : Controller δ} {session : Session δ} {page : Identify.Page}
      {answer : Except AtaError Nat} {after : Ide δ}
      (found : ide.controllers[index]? = some controller)
      (identified : BusM.identify slot ide.settings.commandTimeoutMs (ide.opened controller) =
        .ok (.ok page, session))
      (enrolment : enrol index slot (.ofPage page) ((ide.worked index controller session).noted
        (report controller.base slot ide.settings.dumpIdentify page)) = .ok (answer, after)) :
      Probed ide index slot answer after

theorem probe_eq_ok {answer : Except AtaError Nat} (h : probe index slot ide = .ok (answer, ide')) :
    Probed ide index slot answer ide' := by
  cases hc : ide.controllers[index]? with
  | none =>
      rw [probe_of_absent hc] at h
      cases h
      exact .missing hc
  | some controller =>
      cases hrun : BusM.identify slot ide.settings.commandTimeoutMs (ide.opened controller) with
      | error fault =>
          rw [probe_of_fault hc hrun] at h
          cases h
      | ok result =>
          obtain ⟨answer | page, session⟩ := result
          · rw [probe_of_error hc hrun] at h
            cases h
            exact .refused hc hrun
          · rw [probe_of_page hc hrun] at h
            exact .enrolled hc hrun h

end

end IdeM

end PolledAta
