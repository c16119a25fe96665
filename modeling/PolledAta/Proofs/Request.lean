import PolledAta.Proofs.Controllers
import PolledAta.Proofs.Transfer

/-!
# Requests

Reading and writing sectors of a disk, with the buffer the caller has afterwards.
-/

namespace PolledAta

structure Request where
  index : Nat
  lba : UInt32
  count : UInt32
  payload : Payload

namespace Request

def buffer (request : Request) : Buffer := request.payload.buffer

/-- How many bytes of its buffer a request is about. -/
def bytes (request : Request) : Nat := request.count.toNat * sectorSize

variable {δ : Type} [Bank δ]

def perform : Request → IdeM δ (Except AtaError Unit × Buffer)
  | ⟨index, lba, count, .read buffer⟩ => IdeM.readSectors index buffer lba count
  | ⟨index, lba, count, .write buffer⟩ => do return (← IdeM.writeSectors index buffer lba count, buffer)

theorem sectorTotal_le {request : Request} (h : request.bytes ≤ request.buffer.size) :
    0 + sectorTotal (chunks request.lba request.count).toList * sectorSize ≤ request.payload.buffer.size := by
  rw [Chunks.sectorTotal_toList, Nat.zero_add]
  exact h

end Request

/-- A buffer that is written from stays as it is. -/
inductive Payload.Became : Payload → Payload → Prop where
  | read (before after : Buffer) : Became (.read before) (.read after)
  | write (buffer : Buffer) : Became (.write buffer) (.write buffer)

namespace Payload.Became

theorem refl (payload : Payload) : payload.Became payload := by
  cases payload with
  | read => exact .read ..
  | write => exact .write _

theorem trans {first second third : Payload} (h₁ : first.Became second) (h₂ : second.Became third) :
    first.Became third := by
  cases h₁ with
  | read => cases h₂; exact .read ..
  | write => exact h₂

end Payload.Became

theorem SectorMoved.became {offset : Nat} {payload payload' : Payload} {words : List Cycle}
    (h : SectorMoved offset payload words payload') : payload.Became payload' := by
  cases h with
  | filled => exact .read ..
  | sent => exact .write _

theorem SectorsMoved.became {count offset : Nat} {payload payload' : Payload} {trace : List Cycle}
    {result : Except AtaError Unit} (h : SectorsMoved count offset payload trace result payload') :
    payload.Became payload' := by
  induction h with
  | finished => exact .refl _
  | cutOff => exact .refl _
  | moved _ sector _ ih => exact sector.became.trans ih

theorem ChunksMoved.became {slot : DriveSlot} {chunks : List Chunk} {offset : Nat}
    {payload payload' : Payload} {trace : List Cycle} {result : Except AtaError Unit}
    (h : ChunksMoved slot chunks offset payload trace result payload') : payload.Became payload' := by
  induction h with
  | finished => exact .refl _
  | cutOff => exact .refl _
  | cutOffInside _ moved => exact moved.became
  | moved _ moved _ ih => exact moved.became.trans ih

namespace Request

variable {δ : Type} [Bank δ] {request : Request} {ide ide' : Ide δ} {result : Except AtaError Unit}
  {payload : Payload}

theorem perform_of_transfer (hb : request.payload.Became payload)
    (h : IdeM.transfer request.index request.lba request.count request.payload ide = .ok ((result, payload), ide')) :
    request.perform ide = .ok ((result, payload.buffer), ide') := by
  obtain ⟨index, lba, count, before⟩ := request
  cases hb with
  | read => exact Program.bind_of_ok h
  | write buffer =>
      have hw : IdeM.writeSectors index buffer lba count ide = .ok (result, ide') := Program.bind_of_ok h
      exact Program.bind_of_ok hw

theorem writeSectors_of_perform {index : Nat} {lba count : UInt32} {buffer after : Buffer}
    (h : perform ⟨index, lba, count, .write buffer⟩ ide = .ok ((result, after), ide')) :
    IdeM.writeSectors index buffer lba count ide = .ok (result, ide') ∧ after = buffer := by
  obtain ⟨answer, mid, hw, hreturn⟩ := Program.bind_eq_ok.mp h
  cases hreturn
  exact ⟨hw, rfl⟩

/-! ## Requests that are turned down, and requests that reach their controller -/

theorem perform_of_unknown (h : ide.table.get? request.index = none) :
    request.perform ide = .ok ((.error (.badIndex request.index), request.buffer),
      ide.noted [⟨.warn, "bad disk " ++ toString request.index⟩]) := by
  refine perform_of_transfer (.refl _) ?_
  unfold IdeM.transfer
  refine (Program.bind_of_ok rfl).trans ?_
  rw [h]
  exact Program.bind_of_ok (IdeM.log_run ..)

variable {disk : Disk} (hd : ide.table.get? request.index = some disk)

include hd

/-- A disk of the table turns a request down only for its buffer. -/
theorem transfer_of_known :
    IdeM.transfer request.index request.lba request.count request.payload ide =
      if request.buffer.size < request.bytes then
        .ok ((.error (.badBuffer request.buffer.size request.bytes), request.payload), ide)
      else IdeM.onController disk.controller (BusM.moveChunks disk.slot ide.settings.commandTimeoutMs
        (chunks request.lba request.count).toList 0 request.payload) ide := by
  unfold IdeM.transfer
  refine (Program.bind_of_ok rfl).trans ?_
  rw [hd]
  exact apply_ite (fun program : IdeM δ _ => program ide) ..

theorem perform_of_short (h : request.buffer.size < request.bytes) :
    request.perform ide = .ok ((.error (.badBuffer request.buffer.size request.bytes), request.buffer), ide) := by
  refine perform_of_transfer (.refl _) ?_
  rw [transfer_of_known hd, if_pos h]

theorem perform_of_moveChunks (h : request.bytes ≤ request.buffer.size) {controller : Controller δ}
    (hc : ide.controllers[disk.controller]? = some controller) {session : Session δ}
    (hb : request.payload.Became payload)
    (hr : BusM.moveChunks disk.slot ide.settings.commandTimeoutMs (chunks request.lba request.count).toList 0
      request.payload (ide.opened controller) = .ok ((result, payload), session)) :
    request.perform ide = .ok ((result, payload.buffer), ide.worked disk.controller controller session) := by
  refine perform_of_transfer hb ?_
  rw [transfer_of_known hd, if_neg (Nat.not_lt.mpr h)]
  exact IdeM.onController_of_ok hc hr

theorem perform_of_count_eq_zero (h : request.bytes ≤ request.buffer.size) {controller : Controller δ}
    (hc : ide.controllers[disk.controller]? = some controller) (hz : request.count = 0) :
    request.perform ide = .ok ((.ok (), request.buffer), ide) := by
  have hnil : (chunks request.lba request.count).toList = [] := Chunks.toList_eq_nil hz
  have hrun := perform_of_moveChunks hd h hc (.refl request.payload) (by rw [hnil]; rfl)
  rwa [Ide.worked_opened _ _ hc] at hrun

end Request

/-! ## Transfers that end -/

section

variable {δ : Type} [Bank δ]

/-- What a transfer has done when it answers. -/
inductive Transferred (ide : Ide δ) (index : Nat) (lba count : UInt32) (payload : Payload) :
    Except AtaError Unit × Payload → Ide δ → Prop where
  | unknown (absent : ide.table.get? index = none) :
      Transferred ide index lba count payload (.error (.badIndex index), payload)
        (ide.noted [⟨.warn, "bad disk " ++ toString index⟩])
  | short {disk : Disk} (known : ide.table.get? index = some disk)
      (small : payload.buffer.size < count.toNat * sectorSize) :
      Transferred ide index lba count payload
        (.error (.badBuffer payload.buffer.size (count.toNat * sectorSize)), payload) ide
  | moved {disk : Disk} {controller : Controller δ} {session : Session δ} {answer : Except AtaError Unit × Payload}
      (known : ide.table.get? index = some disk) (fits : count.toNat * sectorSize ≤ payload.buffer.size)
      (found : ide.controllers[disk.controller]? = some controller)
      (run : BusM.moveChunks disk.slot ide.settings.commandTimeoutMs (chunks lba count).toList 0 payload
        (ide.opened controller) = .ok (answer, session)) :
      Transferred ide index lba count payload answer (ide.worked disk.controller controller session)

theorem IdeM.transfer_eq_ok {ide ide' : Ide δ} {index : Nat} {lba count : UInt32} {payload : Payload}
    {answer : Except AtaError Unit × Payload} (h : transfer index lba count payload ide = .ok (answer, ide')) :
    Transferred ide index lba count payload answer ide' := by
  cases hd : ide.table.get? index with
  | none =>
      unfold transfer at h
      obtain ⟨_, _, hget, h⟩ := Program.bind_eq_ok.mp h
      cases hget
      rw [hd] at h
      obtain ⟨_, _, hlog, h⟩ := Program.bind_eq_ok.mp h
      cases hlog.symm.trans (log_run ..)
      cases h
      exact .unknown hd
  | some disk =>
      have hd' : ide.table.get? (Request.mk index lba count payload).index = some disk := hd
      have hknown := Request.transfer_of_known hd'
      rw [h] at hknown
      split at hknown
      · rename_i hsmall
        cases hknown
        exact .short hd hsmall
      · rename_i hfits
        obtain ⟨controller, session, hc, hr, rfl⟩ := onController_eq_ok hknown.symm
        exact .moved hd (Nat.le_of_not_lt hfits) hc hr

namespace IdeM

variable {ide ide' : Ide δ} {index : Nat} {buffer : Buffer} {lba count : UInt32} {result : Except AtaError Unit}

theorem readSectors_eq_ok {after : Buffer} (h : readSectors index buffer lba count ide = .ok ((result, after), ide')) :
    ∃ payload, Transferred ide index lba count (.read buffer) (result, payload) ide' ∧ after = payload.buffer := by
  obtain ⟨⟨_, payload⟩, _, htransfer, h⟩ := Program.bind_eq_ok.mp h
  cases h
  exact ⟨payload, transfer_eq_ok htransfer, rfl⟩

theorem writeSectors_eq_ok (h : writeSectors index buffer lba count ide = .ok (result, ide')) :
    ∃ payload, Transferred ide index lba count (.write buffer) (result, payload) ide' := by
  obtain ⟨⟨_, payload⟩, _, htransfer, h⟩ := Program.bind_eq_ok.mp h
  cases h
  exact ⟨payload, transfer_eq_ok htransfer⟩

end IdeM

end

end PolledAta
