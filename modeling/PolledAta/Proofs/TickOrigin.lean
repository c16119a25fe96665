import PolledAta.Proofs.History
import PolledAta.Proofs.Steady

/-!
# Where the tick counter stands

Two histories that differ only in where their clocks stand when they start do the same, and their clocks stay as far
apart.
-/

namespace PolledAta

variable {δ α : Type} {distance : UInt32}

def Entry.undated : Entry → Entry
  | .line controller event => .line controller event.undated
  | entry => entry

/-- The clocks stand apart, and but for the ticks read the drivers are the same. -/
abbrev Ide.Apart (distance : UInt32) (x y : Ide δ) : Prop := x.Like (.apart distance) y

namespace Ide.Apart

variable {x y : Ide δ}

theorem clock (h : x.Apart distance y) : y.clock = x.clock.advance distance := h.timers

/-! ## Views of the journal -/

theorem shown_undated (entry : Entry) : entry.shown (some ∘ Event.undated) = some entry.undated := by
  cases entry <;> rfl

theorem journal (h : x.Apart distance y) : y.journal.map Entry.undated = x.journal.map Entry.undated := by
  have hjournal := Ide.Like.journal h
  rw [show Entry.shown (Comparison.apart distance : Comparison δ Clock Clock).shown = some ∘ Entry.undated from
    funext shown_undated, List.filterMap_eq_map] at hjournal
  apply Array.toList_inj.mp
  rw [Array.toList_map, Array.toList_map, hjournal]

theorem filterMap_journal {β : Type} (h : x.Apart distance y) {view : Entry → Option β}
    (hview : ∀ entry, view entry.undated = view entry) :
    y.journal.toList.filterMap view = x.journal.toList.filterMap view :=
  Ide.Like.filterMap_journal h fun entry => by
    show view entry = (entry.shown (some ∘ Event.undated)).bind view
    rw [shown_undated, Option.bind_some, hview]

theorem cycles (h : x.Apart distance y) (controller : Nat) : y.cycles controller = x.cycles controller := by
  refine filterMap_journal h fun entry => ?_
  rcases entry with ⟨_, event⟩ | _ | _
  · cases event <;> rfl
  · rfl
  · rfl

theorem mounts (h : x.Apart distance y) : y.mounts = x.mounts := by
  refine filterMap_journal h fun entry => ?_
  cases entry <;> rfl

theorem records (h : x.Apart distance y) : y.records = x.records := by
  refine filterMap_journal h fun entry => ?_
  rcases entry with ⟨_, event⟩ | _ | _
  · cases event <;> rfl
  · rfl
  · rfl

end Ide.Apart

/-- The program does the same from drivers whose clocks stand apart. -/
abbrev IdeM.Steady (distance : UInt32) (program : IdeM δ α) : Prop :=
  Parallel (Ide.Apart distance) Eq program program

/-! ## Histories -/

section

open IdeM

/-- The driver with its counter at `tick`. -/
def Ide.startingAt (ide : Ide δ) (tick : UInt32) : Ide δ := { ide with clock := { ide.clock with now := tick } }

theorem Ide.apart_startingAt (ide : Ide δ) (a b : UInt32) :
    (ide.startingAt a).Apart (b - a) (ide.startingAt b) where
  controllers := rfl
  table := rfl
  known _ _ := trivial
  timers := by
    show ({ ide.clock with now := b } : Clock) = Clock.advance { ide.clock with now := a } (b - a)
    rw [Clock.advance, show a + (b - a) = b by grind]
  settings := rfl
  initialised := rfl
  journal := rfl

namespace Step

theorem steady_whenPresent {controller : Nat} {program : IdeM δ Answer} (h : Steady distance program) :
    Steady distance (whenPresent controller program) := by
  refine parallel_get_bind fun x y hxy => ?_
  rw [hxy.controllers]
  cases x.controllers[controller]? with
  | none => exact parallel_pure rfl
  | some _ => exact h

theorem steady_onVolume {index : Nat} {program : Volume → IdeM δ Answer}
    (h : ∀ volume, Steady distance (program volume)) : Steady distance (onVolume index program) := by
  refine parallel_get_bind fun x y hxy => ?_
  have hvolume : y.volume? index = x.volume? index := by rw [Ide.volume?, Ide.volume?, hxy.table]
  rw [hvolume]
  cases x.volume? index with
  | none => exact parallel_pure rfl
  | some volume => exact h volume

end Step

variable [Bank δ]

theorem Volume.steady_readBlocks (volume : Volume) (lba : UInt32) (buffer : Buffer) :
    Steady distance (volume.readBlocks lba buffer : IdeM δ _) := by
  unfold readBlocks
  split
  · exact parallel_pure rfl
  · exact BusM.corresponds_apart.readSectors ..

theorem Volume.steady_writeBlocks (volume : Volume) (lba : UInt32) (buffer : Buffer) :
    Steady distance (volume.writeBlocks lba buffer : IdeM δ _) := by
  unfold writeBlocks
  split
  · exact parallel_pure rfl
  · exact BusM.corresponds_apart.writeSectors ..

theorem Request.steady_perform (request : Request) : Steady distance (request.perform : IdeM δ _) := by
  obtain ⟨index, lba, count, payload⟩ := request
  cases payload with
  | read buffer => exact BusM.corresponds_apart.readSectors ..
  | write buffer => exact (BusM.corresponds_apart.writeSectors ..).bind_eq fun _ => parallel_pure rfl

namespace Step

theorem steady_perform (step : Step δ) : Steady distance step.perform := by
  cases step with
  | init => exact BusM.corresponds_apart.init.bind_eq fun _ => parallel_pure rfl
  | probe controller slot => exact (BusM.corresponds_apart.probe ..).bind_eq fun _ => parallel_pure rfl
  | identify controller slot timeoutMs =>
      refine steady_whenPresent ?_
      refine Parallel.bind_eq ?_ fun _ => parallel_pure rfl
      exact BusM.corresponds_apart.onController _ (BusM.corresponds_apart.identify ..)
  | reset controller =>
      exact steady_whenPresent ((BusM.corresponds_apart.resetController _).bind_eq fun _ => parallel_pure rfl)
  | transfer request => exact request.steady_perform.bind_eq fun _ => parallel_pure rfl
  | readBlocks index lba buffer =>
      exact steady_onVolume fun volume => (volume.steady_readBlocks ..).bind_eq fun _ => parallel_pure rfl
  | writeBlocks index lba buffer =>
      exact steady_onVolume fun volume => (volume.steady_writeBlocks ..).bind_eq fun _ => parallel_pure rfl
  | setStatus index status => exact (BusM.corresponds_apart.setStatus ..).bind_eq fun _ => parallel_pure rfl
  | alter controller change =>
      refine Parallel.bind_eq (parallel_modify fun x y h => ?_) fun _ => parallel_pure rfl
      refine { h with controllers := ?_, known := fun _ _ => trivial }
      rw [Ide.altered, Ide.altered, h.controllers]
  | advance ticks =>
      refine (parallel_modify fun x y h => { h with timers := ?_ }).bind_eq fun _ => parallel_pure rfl
      show y.clock.advance ticks = (x.clock.advance ticks).advance distance
      rw [Ide.Apart.clock h]
      simp only [Clock.advance, UInt32.add_assoc, UInt32.add_comm distance]

end Step

theorem steady_history (steps : List (Step δ)) : Steady distance (history steps) := by
  induction steps with
  | nil => exact parallel_pure rfl
  | cons step rest ih => exact step.steady_perform.bind_eq fun _ => ih.bind_eq fun _ => parallel_pure rfl

/-- It makes no difference to a history where the tick counter stands when it starts: its answers, the devices, the
table of disks and all that is in the journal but the ticks read, such as the cycles on every bus, the mounts and the
log, are the same, and the counters stay as far apart. A history that is cut short is a history, so this is so after
each of its steps. -/
theorem tick_origin_never_matters (ide : Ide δ) (steps : List (Step δ)) (a b : UInt32) :
    EndAlike (fun x y => y.1 = x.1 ∧ y.2.controllers = x.2.controllers ∧ y.2.table = x.2.table ∧
        y.2.journal.map Entry.undated = x.2.journal.map Entry.undated ∧
        (∀ controller, y.2.cycles controller = x.2.cycles controller) ∧ y.2.mounts = x.2.mounts ∧
        y.2.records = x.2.records ∧ y.2.clock.now - x.2.clock.now = b - a)
      (history steps (ide.startingAt a)) (history steps (ide.startingAt b)) := by
  refine ((steady_history steps).run _ _ (ide.apart_startingAt a b)).mono fun x y h => ?_
  obtain ⟨hanswers, hapart⟩ : x.1 = y.1 ∧ x.2.Apart (b - a) y.2 := h
  refine ⟨hanswers.symm, hapart.controllers, hapart.table, hapart.journal, hapart.cycles, hapart.mounts,
    hapart.records, ?_⟩
  rw [hapart.clock, Clock.advance]
  grind

end

end PolledAta
