import PolledAta.Proofs.Moves
import PolledAta.Proofs.Readings

/-!
# What a history never changes

Whatever is asked of a driver, its clock goes on counting as it did, its settings stay, and so do the controllers that it
was given. The work on a channel reads the clock no more often than its waits need.
-/

namespace PolledAta

variable {δ : Type}

namespace Ide

variable {ide ide' : Ide δ} {writing : Prop}

/-! ## Readings in the journal -/

@[simp]
theorem readings_worked (index : Nat) (controller : Controller δ) (session : Session δ) :
    (ide.worked index controller session).readings = ide.readings ++ session.readings := by
  simp [worked, readings, Session.readings, List.filterMap_map, Function.comp_def, Entry.reading?]

@[simp]
theorem readings_noted (records : List Log.Record) : (ide.noted records).readings = ide.readings := by
  simp [noted, readings, List.filterMap_map, Function.comp_def, Entry.reading?]

@[simp]
theorem readings_enlisted (disk : Disk) (label : Label) : (ide.enlisted disk label).readings = ide.readings := by
  simp [enlisted, readings, List.filterMap_cons, Entry.reading?]

/-- The later driver counts as the earlier one, with its settings, as many controllers and room for as many disks. -/
structure Kept (ide ide' : Ide δ) : Prop where
  pace : ide.clock.SamePace ide'.clock
  settings : ide'.settings = ide.settings
  controllers : ide'.controllers.size = ide.controllers.size
  capacity : ide'.table.capacity = ide.table.capacity

theorem Kept.refl (ide : Ide δ) : ide.Kept ide := ⟨.refl _, rfl, rfl, rfl⟩

theorem Kept.moving (h : ide.Kept ide') (hm : ide.clock.Moving) : ide'.clock.Moving := h.pace.moving hm

end Ide

/-! ## Work on a channel -/

variable [Bank δ]

namespace Work

/-- How often the work can read a clock like this one. -/
def limit (clock : Clock) : Work → Nat
  | .reset _ settings => clock.waitLimit settings.resetHoldMs + clock.waitLimit settings.resetSettleMs
  | .identify _ timeoutMs => 2 * clock.waitLimit timeoutMs
  | .move _ timeoutMs chunks _ => (sectorTotal chunks + chunks.length) * clock.waitLimit timeoutMs

theorem reads {work : Work} {clock : Clock} {s t : Session δ} (h : work.Run s t) (hp : clock.SamePace s.clock) :
    ∃ n, s.Reads t n ∧ (clock.Moving → n ≤ work.limit clock) := by
  cases work with
  | reset base settings => exact (BusM.spends_reset base settings).run h hp
  | identify slot timeoutMs =>
      obtain ⟨answer, h⟩ := h
      exact (BusM.spends_identify slot).run h hp
  | move slot timeoutMs chunks payload =>
      obtain ⟨answer, h⟩ := h
      exact (BusM.spends_moveChunks slot chunks 0 payload).run h hp

end Work

/-! ## Histories -/

namespace Ide

variable {origin ide ide' : Ide δ} {writing : Prop}

theorem Move.kept (h : origin.Kept ide) (move : ide.Move writing ide') : origin.Kept ide' := by
  cases move with
  | worked work allowed found run =>
      obtain ⟨n, hreads, _⟩ := Work.reads run (.refl _)
      exact ⟨hreads.samePace h.pace, h.settings, (size_worked ..).trans h.controllers, h.capacity⟩
  | noted => exact ⟨h.pace, h.settings, h.controllers, h.capacity⟩
  | started => exact ⟨h.pace, h.settings, h.controllers, h.capacity⟩
  | enlisted => exact ⟨h.pace, h.settings, h.controllers, h.capacity⟩

theorem Moves.kept (h : ide.Moves writing ide') : ide.Kept ide' := h.induction Move.kept (.refl ide)

theorem Kept.performed (h : origin.Kept ide) {step : Step δ} (done : step.Done ide ide') : origin.Kept ide' := by
  cases done with
  | moved moves => exact moves.induction Move.kept h
  | marked => exact ⟨h.pace, h.settings, h.controllers, h.capacity⟩
  | altered => exact ⟨h.pace, h.settings, Array.size_modify.trans h.controllers, h.capacity⟩
  | advanced => exact ⟨⟨h.pace.rate, h.pace.step⟩, h.settings, h.controllers, h.capacity⟩

theorem kept_history {steps : List (Step δ)} {answers : List Answer} (run : history steps ide = .ok (answers, ide')) :
    ide.Kept ide' :=
  history_done_induction (fun _ _ _ _ h done => h.performed done) (.refl ide) run

end Ide

end PolledAta
