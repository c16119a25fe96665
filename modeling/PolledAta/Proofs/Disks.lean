import PolledAta.Proofs.Request
import PolledAta.Proofs.Served

/-!
# Requests to disks of channels without faults

A request reaches the channel of its disk, changes the drive in the slot of the disk at most, and leaves every other
drive of the driver alone.
-/

namespace PolledAta

open Emulator

namespace Ide

def drive? (ide : Ide Channel) (controller : Nat) (slot : DriveSlot) : Option Drive :=
  ide.controllers[controller]?.bind (·.device.drive slot)

/-- The channel of the disk is without faults and in `phase`, and `drive` is in the slot of the disk. -/
structure Stands (ide : Ide Channel) (disk : Disk) (controller : Controller Channel) (drive : Drive) (phase : Phase) :
    Prop where
  found : ide.controllers[disk.controller]? = some controller
  faults : controller.device.faults = .none
  phase : controller.device.phase = phase
  drive : controller.device.drive disk.slot = some drive

variable {ide : Ide Channel} {disk : Disk} {controller : Controller Channel} {session : Session Channel}
  {drive drive' : Drive} {phase phase' : Phase}

theorem Stands.drive?_eq (h : ide.Stands disk controller drive phase) :
    ide.drive? disk.controller disk.slot = some drive := by
  rw [drive?, h.found]
  exact h.drive

theorem drive?_of_found {index : Nat} (hc : ide.controllers[index]? = some controller) (slot : DriveSlot) :
    ide.drive? index slot = controller.device.drive slot := by
  rw [drive?, hc]
  rfl

theorem drive?_worked_self {index : Nat} (hc : ide.controllers[index]? = some controller) (slot : DriveSlot) :
    (ide.worked index controller session).drive? index slot = session.device.drive slot :=
  drive?_of_found (worked_controllers_self ide controller session hc) slot

theorem drive?_worked_elsewhere {index other : Nat} (h : other ≠ index) (slot : DriveSlot) :
    (ide.worked index controller session).drive? other slot = ide.drive? other slot := by
  rw [drive?, drive?, worked_controllers_of_ne ide controller session h]

theorem drive?_worked {index : Nat} (hc : ide.controllers[index]? = some controller)
    (hd : ∀ slot, session.device.drive slot = controller.device.drive slot) :
    (ide.worked index controller session).drive? = ide.drive? := by
  funext other slot
  by_cases ho : other = index
  · subst ho
    rw [drive?_worked_self hc, drive?_of_found hc, hd]
  · exact drive?_worked_elsewhere ho slot

/-! ## After a transfer -/

theorem Stands.worked (h : ide.Stands disk controller drive phase)
    (ht : controller.device.Turned disk.slot drive' phase' session.device) :
    (ide.worked disk.controller controller session).Stands disk { controller with device := session.device } drive'
      phase' where
  found := worked_controllers_self ide controller session h.found
  faults := ht.faults.trans h.faults
  phase := ht.phase
  drive := ht.drive

theorem Stands.drive?_worked_of_ne (h : ide.Stands disk controller drive phase)
    (ht : controller.device.Turned disk.slot drive' phase' session.device) {other : Nat} {slot : DriveSlot}
    (hne : (other, slot) ≠ (disk.controller, disk.slot)) :
    (ide.worked disk.controller controller session).drive? other slot = ide.drive? other slot := by
  by_cases ho : other = disk.controller
  · subst ho
    have hslot : slot ≠ disk.slot := fun hs => hne (by rw [hs])
    rw [drive?_worked_self h.found, drive?_of_found h.found]
    exact ht.others slot hslot
  · exact drive?_worked_elsewhere ho slot

/-! ## Sectors -/

/-- The sectors in a slot of a controller, by their numbers. -/
def sectors (ide : Ide Channel) (controller : Nat) (slot : DriveSlot) (n : Nat) : Option Sector :=
  (ide.drive? controller slot).bind (·.sector? n)

theorem Stands.sectors_eq (h : ide.Stands disk controller drive phase) :
    ide.sectors disk.controller disk.slot = drive.sector? := by
  funext n
  rw [sectors, h.drive?_eq]
  rfl

theorem Stands.sectors_worked (h : ide.Stands disk controller drive phase)
    (ht : controller.device.Turned disk.slot drive' phase' session.device) :
    (ide.worked disk.controller controller session).sectors disk.controller disk.slot = drive'.sector? :=
  (h.worked ht).sectors_eq

theorem Stands.sectors_worked_of_ne (h : ide.Stands disk controller drive phase)
    (ht : controller.device.Turned disk.slot drive' phase' session.device) {other : Nat} {slot : DriveSlot}
    (hne : (other, slot) ≠ (disk.controller, disk.slot)) :
    (ide.worked disk.controller controller session).sectors other slot = ide.sectors other slot := by
  funext n
  rw [sectors, sectors, h.drive?_worked_of_ne ht hne]

theorem Stands.sectors_worked_eq (h : ide.Stands disk controller drive phase)
    (ht : controller.device.Turned disk.slot drive' phase' session.device) (hsame : drive'.sector? = drive.sector?) :
    (ide.worked disk.controller controller session).sectors = ide.sectors := by
  funext other slot
  by_cases hne : (other, slot) = (disk.controller, disk.slot)
  · obtain ⟨rfl, rfl⟩ := Prod.mk.inj hne
    rw [h.sectors_worked ht, h.sectors_eq, hsame]
  · exact h.sectors_worked_of_ne ht hne

end Ide

namespace Request

variable {request : Request} {ide : Ide Channel} {disk : Disk} {controller : Controller Channel} {drive : Drive}

def service (request : Request) (drive : Drive) : Service :=
  drive.serve (chunks request.lba request.count).toList 0 request.payload

theorem became_serve {list : List Chunk} {offset : Nat} {payload : Payload} :
    payload.Became (drive.serve list offset payload).payload := by
  induction list generalizing drive offset payload with
  | nil => exact .refl _
  | cons chunk list ih =>
      by_cases h : drive.Reaches chunk
      · rw [Drive.serve_of_reaches h]
        refine Payload.Became.trans ?_ ih
        cases payload with
        | read buffer => exact .read ..
        | write buffer => exact .write _
      · rw [Drive.serve_of_not_reaches h]
        exact .refl _

theorem perform_of_idle (hd : ide.table.get? request.index = some disk)
    (hs : ide.Stands disk controller drive .idle) (hb : request.bytes ≤ request.buffer.size) :
    ∃ session, request.perform ide = .ok (((request.service drive).result, (request.service drive).payload.buffer),
        ide.worked disk.controller controller session) ∧
      controller.device.Turned disk.slot (request.service drive).drive (request.service drive).phase
        session.device := by
  obtain ⟨after, hleads, hturned⟩ := Channel.leads_moveChunks ide.settings.commandTimeoutMs hs.faults hs.phase hs.drive
    (fun _ hc => Chunks.sectors_of_mem hc) (sectorTotal_le hb)
  obtain ⟨session, hrun, rfl⟩ := hleads.run (ide.opened controller) rfl
  exact ⟨session, perform_of_moveChunks hd hb hs.found became_serve hrun, hturned⟩

/-- What passes between a drive and the buffer of a request that is served, with the sectors of the drive before and
after it. -/
inductive Moved (before : Nat → Option Sector) : Request → Buffer → (Nat → Option Sector) → Prop where
  | read {index : Nat} {lba count : UInt32} {buffer buffer' : Buffer}
      (filled : buffer.Filled 0 count.toNat (fun i => before (sentAddress lba i)) buffer') :
      Moved before ⟨index, lba, count, .read buffer⟩ buffer' before
  | written {index : Nat} {lba count : UInt32} {buffer : Buffer} {after : Nat → Option Sector}
      (overwritten : Overwritten before (sentAddress lba) count.toNat (fun i => buffer.sector? (i * sectorSize)) after) :
      Moved before ⟨index, lba, count, .write buffer⟩ buffer after

theorem Moved.of_read {index : Nat} {lba count : UInt32} {buffer buffer' : Buffer} {before after : Nat → Option Sector}
    (h : Moved before ⟨index, lba, count, .read buffer⟩ buffer' after) :
    buffer.Filled 0 count.toNat (fun i => before (sentAddress lba i)) buffer' ∧ after = before := by
  cases h with
  | read filled => exact ⟨filled, rfl⟩

theorem Moved.of_write {index : Nat} {lba count : UInt32} {buffer buffer' : Buffer}
    {before after : Nat → Option Sector} (h : Moved before ⟨index, lba, count, .write buffer⟩ buffer' after) :
    Overwritten before (sentAddress lba) count.toNat (fun i => buffer.sector? (i * sectorSize)) after ∧
      buffer' = buffer := by
  cases h with
  | written overwritten => exact ⟨overwritten, rfl⟩

theorem service_moved (hS : drive.sectorCount ≤ 2 ^ 28) (hb : request.bytes ≤ request.buffer.size)
    (hr : ∀ chunk ∈ (chunks request.lba request.count).toList, drive.Reaches chunk) :
    (request.service drive).served = true ∧
      request.Moved drive.sector? (request.service drive).payload.buffer (request.service drive).drive.sector? := by
  obtain ⟨index, lba, count, payload⟩ := request
  cases payload with
  | read buffer =>
      have hsize : 0 + count.toNat * sectorSize ≤ buffer.size := (Nat.zero_add _).trans_le hb
      obtain ⟨after, hserve, hfilled⟩ := Drive.serve_read hS (chunks lba count) hsize hr
      have hserve : service ⟨index, lba, count, .read buffer⟩ drive = ⟨drive, .read after, true⟩ := hserve
      rw [hserve]
      exact ⟨rfl, .read hfilled⟩
  | write buffer =>
      have hsize : 0 + count.toNat * sectorSize ≤ buffer.size := (Nat.zero_add _).trans_le hb
      obtain ⟨drive', hserve, hwritten⟩ := Drive.serve_write hS (chunks lba count) hsize hr
      have hserve : service ⟨index, lba, count, .write buffer⟩ drive = ⟨drive', .write buffer, true⟩ := hserve
      simp only [Nat.zero_add] at hwritten
      rw [hserve]
      exact ⟨rfl, .written hwritten⟩

theorem perform_of_reaches (hd : ide.table.get? request.index = some disk)
    (hs : ide.Stands disk controller drive .idle) (hb : request.bytes ≤ request.buffer.size)
    (hS : drive.sectorCount ≤ 2 ^ 28)
    (hr : ∀ chunk ∈ (chunks request.lba request.count).toList, drive.Reaches chunk) :
    ∃ buffer session drive',
      request.perform ide = .ok ((.ok (), buffer), ide.worked disk.controller controller session) ∧
      controller.device.Turned disk.slot drive' .idle session.device ∧ drive'.sectorCount = drive.sectorCount ∧
      request.Moved drive.sector? buffer drive'.sector? := by
  obtain ⟨session, hrun, hturned⟩ := perform_of_idle hd hs hb
  obtain ⟨hserved, hmoved⟩ := service_moved hS hb hr
  rw [Service.result, if_pos hserved] at hrun
  rw [Service.phase, if_pos hserved] at hturned
  exact ⟨_, session, _, hrun, hturned, Drive.sectorCount_serve, hmoved⟩

theorem perform_of_not_reaches (hd : ide.table.get? request.index = some disk)
    (hs : ide.Stands disk controller drive .idle) (hb : request.bytes ≤ request.buffer.size)
    (hr : ¬∀ chunk ∈ (chunks request.lba request.count).toList, drive.Reaches chunk) :
    ∃ buffer session drive',
      request.perform ide = .ok ((.error (.device Service.refusal), buffer),
        ide.worked disk.controller controller session) ∧
      controller.device.Turned disk.slot drive' .failed session.device ∧ drive'.sectorCount = drive.sectorCount := by
  obtain ⟨session, hrun, hturned⟩ := perform_of_idle hd hs hb
  have hserved : ¬(request.service drive).served = true := mt Drive.served_serve.mp hr
  rw [Service.result, if_neg hserved] at hrun
  rw [Service.phase, if_neg hserved] at hturned
  exact ⟨_, session, _, hrun, hturned, Drive.sectorCount_serve⟩

/-- A request to a disk on a channel that is not at work is answered, and without an error exactly when its range is in
reach of the drive. -/
theorem perform_answered (hd : ide.table.get? request.index = some disk)
    (hs : ide.Stands disk controller drive .idle) (hb : request.bytes ≤ request.buffer.size)
    (hS : drive.sectorCount ≤ 2 ^ 28) :
    ∃ result buffer session drive' phase,
      request.perform ide = .ok ((result, buffer), ide.worked disk.controller controller session) ∧
      controller.device.Turned disk.slot drive' phase session.device ∧
      (result = .ok () ↔ InReach drive.sectorCount request.lba request.count) ∧
      (result = .ok () → request.Moved drive.sector? buffer drive'.sector?) := by
  have hreach := Drive.reaches_toList_iff hS request.lba request.count
  by_cases hin : InReach drive.sectorCount request.lba request.count
  · obtain ⟨buffer, session, drive', hrun, hturned, _, hmoved⟩ := perform_of_reaches hd hs hb hS (hreach.mpr hin)
    exact ⟨_, buffer, session, drive', _, hrun, hturned, iff_of_true rfl hin, fun _ => hmoved⟩
  · obtain ⟨buffer, session, drive', hrun, hturned, _⟩ := perform_of_not_reaches hd hs hb (mt hreach.mp hin)
    exact ⟨_, buffer, session, drive', _, hrun, hturned, iff_of_false nofun hin, nofun⟩

/-- While a refusal stands, a request that is about any sectors at all ends in it. -/
theorem perform_of_failed (hd : ide.table.get? request.index = some disk)
    (hs : ide.Stands disk controller drive .failed) (hb : request.bytes ≤ request.buffer.size)
    (hc : request.count ≠ 0) :
    ∃ session, request.perform ide = .ok ((.error (.device Service.refusal), request.buffer),
        ide.worked disk.controller controller session) ∧
      controller.device.Turned disk.slot drive .failed session.device := by
  have hcons := Chunks.toList_eq_cons (show (chunks request.lba request.count).remaining ≠ 0 from hc)
  obtain ⟨after, hleads, hturned⟩ := Channel.leads_moveChunks_failed ide.settings.commandTimeoutMs hs.faults hs.phase
    hs.drive _ _ 0 request.payload
  rw [← hcons] at hleads
  obtain ⟨session, hrun, rfl⟩ := hleads.run (ide.opened controller) rfl
  exact ⟨session, perform_of_moveChunks hd hb hs.found (.refl _) hrun, hturned⟩

end Request

end PolledAta
