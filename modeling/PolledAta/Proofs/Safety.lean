import PolledAta.Proofs.Endings
import PolledAta.Proofs.Ranges
import PolledAta.Proofs.Recovery
import PolledAta.Proofs.Room

/-!
# No run goes wrong

Every call of a driver is answered, on any channels and under any faults, and no access that it makes of a channel is out
of range there. A run in this model ends in a fault when it indexes a controller, a buffer or a page past its end, or
when a label does not fit a byte.
-/

namespace PolledAta

open Emulator

/-! ## Work on a channel -/

theorem Work.safe {work : Work} {s t : Session Channel} (h : work.Run s t) (sound : s.device.Sound) :
    ∃ trace, t.cycles = s.cycles ++ trace ∧ SafeCourse s.device trace t.device ∧ t.device.Sound := by
  cases work with
  | reset base settings =>
      have hruns := BusM.reset_eq_ok h
      exact ⟨_, hruns.cycles, Channel.safe_of_silent hruns.course sound silent_resetCycles⟩
  | identify slot timeoutMs =>
      obtain ⟨answer, h⟩ := h
      obtain ⟨trace, hidentified, hruns⟩ := BusM.identify_eq_ok h
      exact ⟨trace, hruns.cycles, Channel.safe_of_silent hruns.course sound hidentified.sends_nothing⟩
  | move slot timeoutMs chunks payload =>
      obtain ⟨⟨result, payload'⟩, h⟩ := h
      obtain ⟨trace, hmoved, hruns⟩ := BusM.moveChunks_eq_ok h
      exact ⟨trace, hruns.cycles, hmoved.safe hruns.course sound⟩

namespace Ide

variable {ide ide' between : Ide Channel} {writing : Prop}

def Sound (ide : Ide Channel) : Prop :=
  ∀ (i : Nat) (controller : Controller Channel), ide.controllers[i]? = some controller → controller.device.Sound

/-- Between the two states each channel has only been accessed in range. -/
def Safe (ide ide' : Ide Channel) : Prop :=
  ∀ (i : Nat) (controller : Controller Channel), ide.controllers[i]? = some controller → ∃ trace controller',
    ide'.controllers[i]? = some controller' ∧ ide'.cycles i = ide.cycles i ++ trace ∧
    SafeCourse controller.device trace controller'.device

theorem safe_of_same (hcontrollers : ide'.controllers = ide.controllers) (hcycles : ∀ i, ide'.cycles i = ide.cycles i) :
    ide.Safe ide' := by
  intro i controller hc
  refine ⟨[], controller, by rw [hcontrollers, hc], ?_, .nil _⟩
  rw [hcycles, List.append_nil]

theorem Safe.trans (h : ide.Safe between) (h' : between.Safe ide') : ide.Safe ide' := by
  intro i controller hc
  obtain ⟨trace, controller₁, hc₁, hcycles, hsafe⟩ := h i controller hc
  obtain ⟨trace', controller₂, hc₂, hcycles', hsafe'⟩ := h' i controller₁ hc₁
  refine ⟨trace ++ trace', controller₂, hc₂, ?_, hsafe.append hsafe'⟩
  rw [hcycles', hcycles, List.append_assoc]

theorem Move.safe (sound : ide.Sound) (move : ide.Move writing ide') : ide.Safe ide' ∧ ide'.Sound := by
  cases move with
  | @worked index controller session work allowed found run =>
      obtain ⟨trace, hcycles, hsafe, hsound⟩ := work.safe run (sound index controller found)
      refine ⟨fun i other hc => ?_, ?_⟩
      · -- the work runs on one channel and leaves the others alone
        by_cases hi : i = index
        · subst hi
          cases found.symm.trans hc
          refine ⟨trace, _, worked_controllers_self ide controller session found, ?_, hsafe⟩
          rw [worked_cycles_self, hcycles, opened_cycles, List.nil_append]
        · refine ⟨[], other, (worked_controllers_of_ne ide controller session hi).trans hc, ?_, .nil _⟩
          rw [worked_cycles_of_ne ide controller session hi, List.append_nil]
      · exact forall_worked ide controller session found hsound fun i other _ => sound i other
  | noted records => exact ⟨safe_of_same rfl (cycles_noted ide records), sound⟩
  | started => exact ⟨safe_of_same rfl fun _ => rfl, sound⟩
  | enlisted slot info present room labelled => exact ⟨safe_of_same rfl (cycles_enlisted ide _ _), sound⟩

theorem Moves.safe (sound : ide.Sound) (moves : ide.Moves writing ide') : ide.Safe ide' ∧ ide'.Sound := by
  have start : ide.Safe ide ∧ ide.Sound := ⟨safe_of_same rfl fun _ => rfl, sound⟩
  refine moves.induction (P := fun ide' => ide.Safe ide' ∧ ide'.Sound) (fun hb move => ?_) start
  obtain ⟨hsafe, hsound⟩ := move.safe hb.2
  exact ⟨hb.1.trans hsafe, hsound⟩

end Ide

/-! ## Steps -/

namespace Step

/-- A step whose buffer a machine can hold, and which changes no more of a channel than its faults. -/
structure Tame (step : Step Channel) : Prop where
  room : ∀ room, step.room? = some room → room < 2 ^ 63
  faults : ∀ controller change, step = .alter controller change →
    ∀ channel, ∃ faults, change channel = { channel with faults }

variable {step : Step Channel} {ide ide' : Ide Channel}

theorem Done.safe (done : step.Done ide ide') (sound : ide.Sound)
    (unaltered : ∀ controller change, step ≠ .alter controller change) : ide.Safe ide' ∧ ide'.Sound := by
  cases done with
  | moved moves => exact moves.safe sound
  | marked => exact ⟨Ide.safe_of_same rfl fun _ => rfl, sound⟩
  | altered => exact absurd rfl (unaltered _ _)
  | advanced => exact ⟨Ide.safe_of_same rfl fun _ => rfl, sound⟩

theorem Done.sound (done : step.Done ide ide') (tame : step.Tame) (sound : ide.Sound) : ide'.Sound := by
  cases done with
  | moved moves => exact (moves.safe sound).2
  | marked => exact sound
  | @altered index change _ =>
      intro i controller hc
      have hc : (ide.controllers.modify index fun c => { c with device := change c.device })[i]? = some controller := hc
      rw [Array.getElem?_modify] at hc
      split at hc
      · obtain ⟨before, hbefore, rfl⟩ := Option.map_eq_some_iff.mp hc
        obtain ⟨faults, hchange⟩ := tame.faults index change rfl before.device
        obtain ⟨hready, hoverrun⟩ := sound i before hbefore
        rw [hchange]
        exact ⟨hready, hoverrun⟩
      · exact sound i controller hc
  | advanced => exact sound

end Step

/-! ## Runs -/

theorem Ide.sound_fresh {controllers : Array (Controller Channel)}
    (built : ∀ controller ∈ controllers, ∃ master slave faults, controller.device = .idle master slave faults)
    (maxDisks : Nat) (clock : Clock) (settings : Settings) : (Ide.fresh controllers maxDisks clock settings).Sound := by
  intro i controller hc
  obtain ⟨master, slave, faults, hidle⟩ := built controller (Array.mem_of_getElem? hc)
  rw [hidle]
  exact ⟨trivial, rfl⟩

/-- No run goes wrong: on channels with any drives and any faults, which may change at any time, every call of a driver
of at most 208 disks is answered, whatever its arguments, as long as the clock moves and its buffer fits a machine. So no
controller, buffer or page is indexed past its end, and no label overflows. The controllers of all disks are there, no
write has run past the end of an image, and every access of every call is in range of the channel. A call moves no more
bytes than its buffer has, and asks for no more than a machine word can count. -/
theorem runs_stay_in_range {controllers : Array (Controller Channel)} {maxDisks : Nat} {clock : Clock}
    {settings : Settings}
    (built : ∀ controller ∈ controllers, ∃ master slave faults, controller.device = .idle master slave faults)
    (capacity : maxDisks ≤ 208) (moving : clock.Moving) {steps : List (Step Channel)}
    (tame : ∀ step ∈ steps, step.Tame) :
    ∃ answers ide, history steps (.fresh controllers maxDisks clock settings) = .ok (answers, ide) ∧
      ide.table.count ≤ maxDisks ∧ (∀ disk ∈ ide.table.disks, disk.controller < ide.controllers.size) ∧
      (∀ controller ∈ ide.controllers, controller.device.overrun = false) ∧
      ∀ step : Step Channel, step.Tame → ∃ answer ide', step.perform ide = .ok (answer, ide') ∧
        ((∀ controller change, step ≠ .alter controller change) → ide.Safe ide') ∧
        ∀ room, step.room? = some room → (answer = .absent ∧ ide' = ide) ∨
          ∃ result buffer, answer = .moved result buffer ∧ ide.KeepsTo ide' room result := by
  obtain ⟨answers, ide, run⟩ :=
    history_ends (Ide.registered_fresh controllers maxDisks clock settings) capacity moving steps
  have hreg := Ide.registered_history run
  have hkept := Ide.kept_history run
  have hcapacity : ide.table.capacity = maxDisks := hkept.capacity
  have hsound : ide.Sound :=
    history_done_induction (fun step hstep _ _ hsound done => done.sound (tame step hstep) hsound)
      (Ide.sound_fresh built maxDisks clock settings) run
  refine ⟨answers, ide, run, hreg.placed.dense.used_le.trans_eq hcapacity, fun disk hd => hreg.placed.of_mem hd,
    fun controller hc => ?_, fun step htame => ?_⟩
  · obtain ⟨i, hi⟩ := Array.mem_iff_getElem?.mp hc
    exact (hsound i controller hi).overrun
  · obtain ⟨answer, ide', hstep⟩ := step.ends hreg.placed (hcapacity.trans_le capacity) (hkept.moving moving)
    refine ⟨answer, ide', hstep, fun unaltered => ((step.done hstep).safe hsound unaltered).1, fun room hroom => ?_⟩
    exact Step.keeps hroom (htame.room room hroom) hstep

theorem tame_sampleAborted : ∀ step ∈ Ide.sampleAborted, step.Tame := by
  intro step hstep
  simp only [Ide.sampleAborted, List.mem_cons, List.not_mem_nil, or_false] at hstep
  rcases hstep with rfl | rfl | rfl | rfl
  · exact ⟨nofun, nofun⟩
  · refine ⟨nofun, fun controller change h channel => ?_⟩
    cases h
    exact ⟨_, rfl⟩
  · refine ⟨fun room h => ?_, nofun⟩
    cases h
    show (Array.replicate 512 7 : Buffer).size < 2 ^ 63
    rw [Array.size_replicate]
    decide
  · refine ⟨nofun, fun controller change h channel => ?_⟩
    cases h
    exact ⟨_, rfl⟩

theorem sample_stays_in_range : ∃ answers ide, (∀ step ∈ Ide.sampleAborted, step.Tame) ∧
    history Ide.sampleAborted Ide.sample = .ok (answers, ide) ∧
    (∀ controller ∈ ide.controllers, controller.device.overrun = false) ∧
    ∃ answer ide', (Step.probe 0 .slave).perform ide = .ok (answer, ide') ∧ ide.Safe ide' := by
  have built : ∀ controller ∈ Ide.sample.controllers, ∃ master slave faults,
      controller.device = .idle master slave faults := by
    intro controller hc
    obtain rfl := Array.mem_singleton.mp hc
    exact ⟨_, _, _, rfl⟩
  have moving : Ide.sample.clock.Moving := ⟨by decide, by decide⟩
  have tame := tame_sampleAborted
  obtain ⟨answers, ide, run, _, _, hoverrun, hnext⟩ :=
    runs_stay_in_range built (by decide : 1 ≤ 208) moving tame
  obtain ⟨answer, ide', hstep, hsafe, _⟩ := hnext (.probe 0 .slave) ⟨nofun, nofun⟩
  exact ⟨answers, ide, tame, run, hoverrun, answer, ide', hstep, hsafe nofun⟩

end PolledAta
