import PolledAta.Proofs.Pace
import PolledAta.Proofs.Registry
import PolledAta.Proofs.SectorStore

/-!
# Resetting after faults

A run may leave a channel in the middle of a data phase, with a refusal on show, or with the wrong drive selected. A
reset ends the phase whatever it is, and each command spells all of its request anew, so nothing of that is left.
-/

namespace PolledAta

open Emulator

namespace Ide

variable {ide : Ide Channel} {disk : Disk} {controller : Controller Channel} {drive : Drive}

/-- A reset brings a channel to rest from every state. -/
theorem exists_reset {index : Nat} (found : ide.controllers[index]? = some controller) (moving : ide.clock.Moving)
    (base : UInt16) (settings : Settings) :
    ∃ session, IdeM.onController index (BusM.reset base settings) ide = .ok ((), ide.worked index controller session) ∧
      controller.device.Rested session.device := by
  have hmoving : (ide.opened controller).clock.Moving := moving
  obtain ⟨session, hrun⟩ := BusM.reset_ends base settings hmoving
  exact ⟨session, IdeM.onController_of_ok found hrun, Channel.reset_eq_ok hrun⟩

theorem stands_of_rested (found : ide.controllers[disk.controller]? = some controller)
    (cleared : controller.device.faults = .none) (present : ide.drive? disk.controller disk.slot = some drive)
    {session : Session Channel} (rested : controller.device.Rested session.device) :
    (ide.worked disk.controller controller session).Stands disk { controller with device := session.device } drive
      .idle where
  found := worked_controllers_self ide controller session found
  faults := rested.faults.trans cleared
  phase := rested.phase
  drive := (rested.drives disk.slot).trans ((drive?_of_found found disk.slot).symm.trans present)

theorem sectors_of_rested {index : Nat} (found : ide.controllers[index]? = some controller) {session : Session Channel}
    (rested : controller.device.Rested session.device) :
    (ide.worked index controller session).sectors = ide.sectors := by
  funext other slot n
  rw [sectors, sectors, drive?_worked found rested.drives]

end Ide

/-- Whatever has been asked of a driver and whatever faults its channels have had meanwhile: once a channel has no faults
any more, a reset of it, however long its delays, changes no sector, and then every request to one of its drives that
keeps to the drive is answered without an error. A read delivers the sectors that the drive holds, and a write changes
these sectors and no others on any drive. -/
theorem reset_restores_service {controllers : Array (Controller Channel)} {maxDisks : Nat} {clock : Clock}
    {settings : Settings} (moving : clock.Moving) {steps : List (Step Channel)} {answers : List Answer}
    {ide : Ide Channel} (run : history steps (.fresh controllers maxDisks clock settings) = .ok (answers, ide))
    {request : Request} {disk : Disk} (known : ide.table.get? request.index = some disk)
    (cleared : ∀ controller, ide.controllers[disk.controller]? = some controller → controller.device.faults = .none)
    {drive : Drive} (present : ide.drive? disk.controller disk.slot = some drive)
    (room : request.bytes ≤ request.buffer.size)
    (inside : request.lba.toNat + request.count.toNat ≤ drive.sectorCount) (addressable : drive.sectorCount ≤ 2 ^ 28)
    (base : UInt16) (other : Settings) :
    ∃ after buffer final, IdeM.onController disk.controller (BusM.reset base other) ide = .ok ((), after) ∧
      after.sectors = ide.sectors ∧ request.perform after = .ok ((.ok (), buffer), final) ∧
      SectorStore.Serves disk ide.sectors request buffer final.sectors := by
  obtain ⟨controller, found⟩ := (Ide.registered_history run).placed.of_get? known
  obtain ⟨session, hreset, hrested⟩ :=
    Ide.exists_reset found ((Ide.kept_history run).moving moving) base other
  have hstands := Ide.stands_of_rested found (cleared controller found) present hrested
  have hsectors := Ide.sectors_of_rested found hrested
  have hknown : (ide.worked disk.controller controller session).table.get? request.index = some disk := known
  obtain ⟨buffer, session', drive', hperform, hturned, _, hmoved⟩ :=
    Request.perform_of_reaches hknown hstands room addressable (Drive.reaches_toList_of_le addressable inside)
  have hserves := hmoved.serves hstands hturned (inside.trans addressable)
  rw [hsectors] at hserves
  exact ⟨_, buffer, _, hreset, hsectors, hperform, hserves⟩

/-- A write that the drive does not ask the data of, on the sample driver. Once its faults are cleared the channel asks
for them, as nothing has ended the data phase. -/
def Ide.sampleAborted : List (Step Channel) :=
  [.init, .alter 0 fun channel => { channel with faults := { channel.faults with withholdRequest := true } },
    .transfer ⟨0, 0, 1, .write (.replicate 512 7)⟩, .alter 0 fun channel => { channel with faults := .none }]

theorem Ide.exists_sampleAborted : ∃ answers ide disk controller drive,
    history sampleAborted sample = .ok (answers, ide) ∧ ide.table.get? 0 = some disk ∧
    ide.controllers[disk.controller]? = some controller ∧ controller.device.faults = .none ∧
    controller.device.status = Status.ready ||| Status.dataRequest ∧
    ide.drive? disk.controller disk.slot = some drive ∧ drive.sectorCount = 2 := by
  have hrun : (match history sampleAborted sample with
      | .ok (_, ide) => (ide.table.get? 0).any fun disk =>
          ide.controllers[disk.controller]?.any fun controller =>
            (ide.drive? disk.controller disk.slot).any fun drive =>
              decide ((controller.device.faults.statusOverride = none ∧
                  controller.device.faults.withholdRequest = false ∧ controller.device.faults.failCommands = false ∧
                  controller.device.faults.script = []) ∧
                controller.device.status = Status.ready ||| Status.dataRequest ∧ drive.sectorCount = 2)
      | .error _ => false) = true := by decide +kernel
  split at hrun
  · rename_i answers ide run
    obtain ⟨disk, known, hrun⟩ := (Option.any_eq_true _ _).mp hrun
    obtain ⟨controller, found, hrun⟩ := (Option.any_eq_true _ _).mp hrun
    obtain ⟨drive, present, hrun⟩ := (Option.any_eq_true _ _).mp hrun
    obtain ⟨cleared, asks, size⟩ := of_decide_eq_true hrun
    exact ⟨answers, ide, disk, controller, drive, run, known, found, Faults.eq_none cleared, asks, present, size⟩
  · cases hrun

theorem sample_reset_restores : ∃ answers ide disk controller, Ide.sample.clock.Moving ∧
    history Ide.sampleAborted Ide.sample = .ok (answers, ide) ∧ ide.table.get? 0 = some disk ∧
    ide.controllers[disk.controller]? = some controller ∧
    controller.device.status = Status.ready ||| Status.dataRequest ∧
    ∃ after buffer final, IdeM.onController disk.controller (BusM.reset 0x1f0 .standard) ide = .ok ((), after) ∧
      after.sectors = ide.sectors ∧
      (Request.mk 0 0 2 (.read (.replicate 1024 0))).perform after = .ok ((.ok (), buffer), final) ∧
      SectorStore.Serves disk ide.sectors ⟨0, 0, 2, .read (.replicate 1024 0)⟩ buffer final.sectors := by
  obtain ⟨answers, ide, disk, controller, drive, run, known, found, cleared, asks, present, size⟩ :=
    Ide.exists_sampleAborted
  have moving : Ide.sample.clock.Moving := ⟨by decide, by decide⟩
  refine ⟨answers, ide, disk, controller, moving, run, known, found, asks, ?_⟩
  refine reset_restores_service moving run known (fun other hother => ?_) present ?_ ?_ ?_ _ _
  · cases found.symm.trans hother
    exact cleared
  · show 2 * 512 ≤ (Array.replicate 1024 0 : Buffer).size
    rw [Array.size_replicate]
  · rw [size]
    decide
  · rw [size]
    decide

end PolledAta
