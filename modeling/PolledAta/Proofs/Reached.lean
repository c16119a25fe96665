import PolledAta.Proofs.Controllers

/-!
# What discovery leaves behind

Starting the driver resets every controller and probes both its slots, one after the other. Whatever these steps keep,
a start keeps. The table only grows, and every disk in it belongs to a controller that is there.
-/

namespace PolledAta

variable {δ : Type}

/-! ## Starting -/

namespace IdeM

variable [Bank δ]

theorem reset_eq_ok {ide ide' : Ide δ} {index : Nat} (h : reset index ide = .ok ((), ide')) :
    ∃ controller session, ide.controllers[index]? = some controller ∧
      BusM.reset controller.base ide.settings (ide.opened controller) = .ok ((), session) ∧
      ide' = ide.worked index controller session := by
  unfold reset at h
  obtain ⟨_, _, hget, h⟩ := Program.bind_eq_ok.mp h
  cases hget
  obtain ⟨_, _, hget, h⟩ := Program.bind_eq_ok.mp h
  cases hget
  cases hc : ide.controllers[index]? with
  | none =>
      simp only [hc] at h
      cases h
  | some controller =>
      simp only [hc, Option.map_some] at h
      obtain ⟨controller', session, hc', hrun, hafter⟩ := onController_eq_ok h
      cases hc.symm.trans hc'
      exact ⟨controller, session, rfl, hrun, hafter⟩

theorem initController_eq_ok {ide ide' : Ide δ} {index : Nat}
    (h : initController index ide = .ok ((), ide')) :
    ∃ afterReset afterMaster master slave, reset index ide = .ok ((), afterReset) ∧
      probe index .master afterReset = .ok (master, afterMaster) ∧
      probe index .slave afterMaster = .ok (slave, ide') := by
  unfold initController at h
  obtain ⟨_, afterReset, hreset, h⟩ := Program.bind_eq_ok.mp h
  obtain ⟨master, afterMaster, hmaster, h⟩ := Program.bind_eq_ok.mp h
  obtain ⟨slave, _, hslave, h⟩ := Program.bind_eq_ok.mp h
  cases h
  exact ⟨afterReset, afterMaster, master, slave, hreset, hmaster, hslave⟩

theorem init_eq_ok {ide ide' : Ide δ} (h : init ide = .ok ((), ide')) :
    (ide.initialised ∧ ide' = ide.noted [⟨.warn, "IDE init: already done"⟩]) ∨
    (ide.initialised = false ∧
      initControllers (List.range ide.controllers.size) { ide with initialised := true } = .ok ((), ide')) := by
  unfold init at h
  obtain ⟨_, _, hget, h⟩ := Program.bind_eq_ok.mp h
  cases hget
  cases hi : ide.initialised with
  | true =>
      rw [hi, if_pos rfl, log_run] at h
      cases h
      exact .inl ⟨rfl, rfl⟩
  | false =>
      rw [hi] at h
      exact .inr ⟨rfl, h⟩

/-- What the start of each controller in turn keeps, with the controllers that are still to come. -/
theorem initControllers_induction {P : List Nat → Ide δ → Prop}
    (step : ∀ {index rest ide ide'}, P (index :: rest) ide → initController index ide = .ok ((), ide') →
      P rest ide') :
    ∀ {indices : List Nat} {ide ide' : Ide δ}, P indices ide →
      initControllers indices ide = .ok ((), ide') → P [] ide'
  | [], _, _, hp, h => by cases h; exact hp
  | index :: rest, _, _, hp, h => by
      obtain ⟨_, _, hfirst, h⟩ := Program.bind_eq_ok.mp h
      exact initControllers_induction step (step hp hfirst) h

end IdeM

namespace Ide

/-! ## Disks and controllers -/

/-- The table is filled from the front, with disks of the controllers that are there. -/
structure Placed (ide : Ide δ) : Prop where
  dense : ide.table.Dense
  inside : ∀ index disk, ide.table.get? index = some disk → disk.controller < ide.controllers.size

theorem placed_fresh (controllers : Array (Controller δ)) (maxDisks : Nat) (clock : Clock)
    (settings : Settings) : (fresh controllers maxDisks clock settings).Placed where
  dense := DiskTable.dense_empty maxDisks
  inside index disk h := by
    rw [fresh, DiskTable.get?_empty] at h
    cases h

variable {ide : Ide δ} {index : Nat} {disk : Disk}

theorem Placed.exists_get?_of_lt (h : ide.Placed) (hi : index < ide.table.count) :
    ∃ disk, ide.table.get? index = some disk :=
  h.dense.exists_get?_of_lt hi

theorem Placed.of_get? (h : ide.Placed) (hd : ide.table.get? index = some disk) :
    ∃ controller, ide.controllers[disk.controller]? = some controller :=
  ⟨_, Array.getElem?_eq_getElem (h.inside index disk hd)⟩

theorem Placed.of_mem (h : ide.Placed) (hd : disk ∈ ide.table.disks) : disk.controller < ide.controllers.size := by
  obtain ⟨index, hd⟩ := DiskTable.exists_get?_of_mem hd
  exact h.inside index disk hd

theorem Placed.worked (h : ide.Placed) (index : Nat) (controller : Controller δ)
    (session : Session δ) : (ide.worked index controller session).Placed :=
  ⟨h.dense, fun i disk hd => (h.inside i disk hd).trans_eq (size_worked ..).symm⟩

theorem Placed.noted (h : ide.Placed) (records : List Log.Record) : (ide.noted records).Placed := ⟨h.dense, h.inside⟩

theorem Placed.enlisted (h : ide.Placed) (room : ide.table.isFull = false) {slot : DriveSlot} {info : DriveInfo}
    {controller : Nat} (present : controller < ide.controllers.size) (label : Label) :
    (ide.enlisted ⟨ide.table.count, controller, slot, info, .uninitialized⟩ label).Placed := by
  refine ⟨h.dense.added room rfl, fun i found hd => ?_⟩
  have hd : (ide.table.added _).get? i = some found := hd
  rw [DiskTable.get?_added (DiskTable.isFull_eq_false_iff.mp room)] at hd
  split at hd
  · rw [← Option.some.inj hd]
    exact present
  · exact h.inside i found hd

variable [Bank δ]

theorem Placed.probed {ide ide' : Ide δ} (h : ide.Placed) {index : Nat} {slot : DriveSlot}
    {answer : Except AtaError Nat} (hp : IdeM.Probed ide index slot answer ide') : ide'.Placed := by
  cases hp with
  | missing => exact h
  | refused found identified => exact (h.worked _ _ _).noted _
  | @enrolled controller session page _ _ found identified enrolment =>
      obtain ⟨hlt, _⟩ := Array.getElem?_eq_some_iff.mp found
      have hw := (h.worked index controller session).noted
        (IdeM.report controller.base slot ide.settings.dumpIdentify page)
      rcases IdeM.enrol_eq_ok enrolment with ⟨_, _, rfl⟩ | ⟨label, room, _, _, rfl⟩
      · exact hw.noted _
      · exact hw.enlisted room (hlt.trans_eq (size_worked ..).symm) label

theorem Placed.init {ide ide' : Ide δ} (h : ide.Placed) (hi : IdeM.init ide = .ok ((), ide')) :
    ide'.Placed := by
  rcases IdeM.init_eq_ok hi with ⟨_, rfl⟩ | ⟨_, hi⟩
  · exact h.noted _
  · have h' : Ide.Placed { ide with initialised := true } := ⟨h.dense, h.inside⟩
    refine IdeM.initControllers_induction (P := fun _ ide => ide.Placed) ?_ h' hi
    intro index rest before after hb hstep
    obtain ⟨afterReset, afterMaster, _, _, hreset, hmaster, hslave⟩ := IdeM.initController_eq_ok hstep
    obtain ⟨controller, session, _, _, rfl⟩ := IdeM.reset_eq_ok hreset
    exact ((hb.worked _ _ _).probed (IdeM.probe_eq_ok hmaster)).probed (IdeM.probe_eq_ok hslave)

/-- The states that starting the driver and probing lead to. -/
inductive Reached : Ide δ → Prop where
  | fresh (controllers : Array (Controller δ)) (maxDisks : Nat) (clock : Clock) (settings : Settings) :
      Reached (.fresh controllers maxDisks clock settings)
  | init {before after : Ide δ} (reached : Reached before) (run : IdeM.init before = .ok ((), after)) :
      Reached after
  | probe {before after : Ide δ} {index : Nat} {slot : DriveSlot} {answer : Except AtaError Nat}
      (reached : Reached before) (run : IdeM.probe index slot before = .ok (answer, after)) : Reached after

theorem Reached.placed {ide : Ide δ} (h : ide.Reached) : ide.Placed := by
  induction h with
  | fresh controllers maxDisks clock settings => exact placed_fresh controllers maxDisks clock settings
  | init _ run ih => exact ih.init run
  | probe _ run ih => exact ih.probed (IdeM.probe_eq_ok run)

end Ide

end PolledAta
