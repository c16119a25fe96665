import PolledAta.Proofs.Channel
import PolledAta.Proofs.Service

/-!
# Transfers on a channel without faults

A channel without faults does with the chunks of a transfer what its drive makes of them. The last phase tells the
next command whether this one was refused.
-/

namespace PolledAta.Emulator

open BusM

variable {channel : Channel} {drive : Drive} {slot : DriveSlot} {chunk : Chunk} (timeoutMs : UInt32)

/-- What a transfer on the drive in `slot` leaves behind. -/
structure Channel.Turned (before : Channel) (slot : DriveSlot) (drive : Drive) (phase : Phase) (after : Channel) :
    Prop where
  faults : after.faults = before.faults
  overrun : after.overrun = before.overrun
  phase : after.phase = phase
  drive : after.drive slot = some drive
  others : ∀ other, other ≠ slot → after.drive other = before.drive other

theorem Channel.Turned.trans {before between after : Channel} {drive' : Drive} {phase phase' : Phase}
    (h : before.Turned slot drive phase between) (h' : between.Turned slot drive' phase' after) :
    before.Turned slot drive' phase' after where
  faults := h'.faults.trans h.faults
  overrun := h'.overrun.trans h.overrun
  phase := h'.phase
  drive := h'.drive
  others other ho := (h'.others other ho).trans (h.others other ho)

namespace Channel

/-! ## One command -/

def announced (channel : Channel) (slot : DriveSlot) (chunk : Chunk) : Channel :=
  { channel with taskFile := channel.taskFile.spell slot chunk, latch := .ofDevice (slot.deviceSelect chunk.lba) }

@[simp]
theorem latch_announced (channel : Channel) (slot : DriveSlot) (chunk : Chunk) :
    (channel.announced slot chunk).latch = slot := DriveSlot.ofDevice_deviceSelect ..

theorem leads_selectSectors (channel : Channel) (slot : DriveSlot) (chunk : Chunk) :
    (selectSectors slot chunk).Leads channel () (channel.announced slot chunk) := by
  unfold selectSectors
  exact (leads_write ..).bind ((leads_write ..).bind ((leads_write ..).bind ((leads_write ..).bind
    (leads_write ..))))

theorem selected_announced (hd : channel.drive slot = some drive) :
    (channel.announced slot chunk).selected = some drive := by
  rw [selected, latch_announced]
  exact hd

theorem turned_announced (hd : channel.drive slot = some drive) (phase : Phase) :
    channel.Turned slot drive phase ((channel.announced slot chunk).inPhase phase) where
  faults := rfl
  overrun := rfl
  phase := rfl
  drive := hd
  others _ _ := rfl

def startPhase (drive : Drive) (chunk : Chunk) : Payload → Phase
  | .read _ => sendingPhase (drive.words chunk.sentLba chunk.sectors.toNat)
  | .write _ => .receiving chunk.sentLba chunk.sectors.toNat #[]

theorem accept_announced (hc : 1 ≤ chunk.sectors.toNat ∧ chunk.sectors.toNat ≤ 256) (payload : Payload) :
    accept drive (channel.announced slot chunk).taskFile payload.command =
      if drive.Reaches chunk then startPhase drive chunk payload else .failed := by
  unfold accept
  rw [show (channel.announced slot chunk).taskFile = channel.taskFile.spell slot chunk from rfl,
    TaskFile.lba_spell, TaskFile.sectorCount_spell _ _ _ hc.1 hc.2]
  cases payload with
  | read buffer =>
      have hwords : drive.words chunk.sentLba chunk.sectors.toNat ≠ [] := by
        refine List.ne_nil_of_length_pos ?_
        simp only [Drive.words, List.length_map, List.length_range, sectorWords]
        omega
      rw [startPhase, sendingPhase_of_ne_nil hwords]
      simp only [← Drive.le_sectorCount_iff]
      rfl
  | write buffer =>
      simp only [← Drive.le_sectorCount_iff]
      rfl

theorem leads_command (hf : channel.faults = .none) (hd : channel.drive slot = some drive)
    (hc : 1 ≤ chunk.sectors.toNat ∧ chunk.sectors.toNat ≤ 256) (payload : Payload) :
    (write .command payload.command).Leads (channel.announced slot chunk) () ((channel.announced slot chunk).inPhase
      (if drive.Reaches chunk then startPhase drive chunk payload else .failed)) := by
  have hf : (channel.announced slot chunk).faults = .none := hf
  rw [← accept_announced hc]
  exact leads_execute hf (selected_announced hd) payload.command

/-! ## The sectors of a chunk -/

theorem drive_setDrive (channel : Channel) (slot : DriveSlot) (drive : Option Drive) :
    (channel.setDrive slot drive).drive slot = drive := by
  cases slot <;> rfl

theorem drive_setDrive_of_ne (channel : Channel) {slot other : DriveSlot} (drive : Option Drive)
    (h : other ≠ slot) : (channel.setDrive slot drive).drive other = channel.drive other := by
  cases slot <;> cases other <;> first | rfl | exact absurd rfl h

theorem turned_setDrive (channel : Channel) (slot : DriveSlot) (drive : Drive) :
    channel.Turned slot drive channel.phase (channel.setDrive slot (some drive)) where
  faults := by cases slot <;> rfl
  overrun := by cases slot <;> rfl
  phase := by cases slot <;> rfl
  drive := drive_setDrive ..
  others _ ho := drive_setDrive_of_ne _ _ ho

theorem turned_collect (hd : channel.drive slot = some drive) (hreach : drive.Reaches chunk) {offset : Nat}
    {buffer : Buffer} (hb : offset + chunk.sectors.toNat * sectorSize ≤ buffer.size) :
    channel.Turned slot (drive.written chunk.sentLba buffer offset chunk.sectors.toNat) .idle
      ((channel.announced slot chunk).collect chunk.sentLba chunk.sectors.toNat
        (buffer.extract offset (offset + chunk.sectors.toNat * sectorSize))) := by
  have hsize : (buffer.extract offset (offset + chunk.sectors.toNat * sectorSize)).size =
      chunk.sectors.toNat * sectorSize := by
    rw [Array.size_extract]
    omega
  have hfits : chunk.sentLba * sectorSize + chunk.sectors.toNat * sectorSize ≤ drive.image.size := by
    rw [← Nat.add_mul]
    exact Drive.le_sectorCount_iff.mp hreach
  have hstore : (channel.announced slot chunk).collect chunk.sentLba chunk.sectors.toNat
      (buffer.extract offset (offset + chunk.sectors.toNat * sectorSize)) =
      ((channel.announced slot chunk).inPhase .idle).setDrive slot
        (some (drive.written chunk.sentLba buffer offset chunk.sectors.toNat)) := by
    have hslot : ((channel.announced slot chunk).inPhase .idle).latch = slot :=
      latch_announced channel slot chunk
    rw [collect, if_neg (by rw [hsize]; exact Nat.lt_irrefl _), store, selected_inPhase, selected_announced hd, hslot]
    exact if_pos (by rwa [hsize])
  rw [hstore]
  exact (turned_announced hd .idle).trans (turned_setDrive _ slot _)

theorem leads_serveChunk (hf : channel.faults = .none) (hd : channel.drive slot = some drive)
    (hc : 1 ≤ chunk.sectors.toNat) (hreach : drive.Reaches chunk) {offset : Nat} {payload : Payload}
    (hb : offset + chunk.sectors.toNat * sectorSize ≤ payload.buffer.size) :
    ∃ after, (moveSectors timeoutMs chunk.sectors.toNat offset payload).Leads
        ((channel.announced slot chunk).inPhase (startPhase drive chunk payload))
        (.ok (), (drive.serveChunk chunk offset payload).2) after ∧
      channel.Turned slot (drive.serveChunk chunk offset payload).1 .idle after := by
  have hf : (channel.announced slot chunk).faults = .none := hf
  have hselected : (channel.announced slot chunk).selected = some drive := selected_announced hd
  cases payload with
  | read buffer => exact ⟨_, leads_fillSectors timeoutMs hf hselected hb hreach, turned_announced hd .idle⟩
  | write buffer =>
      have hn : (#[] : Buffer).size + chunk.sectors.toNat * sectorSize = chunk.sectors.toNat * sectorSize :=
        Nat.zero_add _
      have hsend : (moveSectors timeoutMs chunk.sectors.toNat offset (.write buffer)).Leads
          ((channel.announced slot chunk).collect chunk.sentLba _ _) _ _ :=
        leads_sendSectors timeoutMs hf hselected hn hb
      have hpos : (#[] : Buffer).size < chunk.sectors.toNat * sectorSize := Nat.mul_pos hc (by decide)
      rw [collect, if_pos hpos, Array.empty_append] at hsend
      exact ⟨_, hsend, turned_collect hd hreach hb⟩

theorem leads_moveSectors_failed (hf : channel.faults = .none) (hd : channel.selected = some drive) {count : Nat}
    (hc : 1 ≤ count) (offset : Nat) (payload : Payload) :
    (moveSectors timeoutMs count offset payload).Leads (channel.inPhase .failed)
      (.error (.device Service.refusal), payload) (channel.inPhase .failed) := by
  obtain ⟨more, rfl⟩ : ∃ more, count = more + 1 := ⟨count - 1, by omega⟩
  exact (leads_await_inPhase timeoutMs hf hd (by decide)).bind (leads_pure _ _)

/-! ## All chunks -/

/-- Only a refusal keeps a drive from showing that it is ready. -/
theorem leads_await_ready (hf : channel.faults = .none) (hd : channel.selected = some drive)
    (hp : channel.phase ≠ .failed) :
    (awaitStatus Status.ready timeoutMs).Leads channel (.ok (shown channel.phase)) channel := by
  have hj : Status.judge (shown channel.phase) Status.ready = .done := by
    cases hphase : channel.phase with
    | failed => exact absurd hphase hp
    | idle => decide
    | sending words => exact (by decide : Status.judge (Status.ready ||| Status.dataRequest) Status.ready = .done)
    | receiving => exact (by decide : Status.judge (Status.ready ||| Status.dataRequest) Status.ready = .done)
  have hwait : (awaitStatus Status.ready timeoutMs).Leads (channel.inPhase channel.phase) _
      (channel.inPhase channel.phase) := leads_await_inPhase timeoutMs hf hd (by rw [hj]; decide)
  rwa [inPhase_self rfl, hj] at hwait

/-- On a channel without faults that has not refused the last command, a chunk is done as the drive serves it, and then
the chunks after it on a channel that is not at work. -/
theorem leads_moveChunks_cons (hf : channel.faults = .none) (hp : channel.phase ≠ .failed)
    (hd : channel.drive slot = some drive) (hc : 1 ≤ chunk.sectors.toNat ∧ chunk.sectors.toNat ≤ 256)
    {list : List Chunk} {offset : Nat} {payload : Payload}
    (hb : offset + chunk.sectors.toNat * sectorSize ≤ payload.buffer.size)
    (hrest : ∀ between, channel.Turned slot (drive.serveChunk chunk offset payload).1 .idle between →
      let service := (drive.serveChunk chunk offset payload).1.serve list (offset + chunk.sectors.toNat * sectorSize)
        (drive.serveChunk chunk offset payload).2
      ∃ after, (moveChunks slot timeoutMs list (offset + chunk.sectors.toNat * sectorSize)
          (drive.serveChunk chunk offset payload).2).Leads between (service.result, service.payload) after ∧
        between.Turned slot service.drive service.phase after) :
    ∃ after, (moveChunks slot timeoutMs (chunk :: list) offset payload).Leads channel
        ((drive.serve (chunk :: list) offset payload).result, (drive.serve (chunk :: list) offset payload).payload)
        after ∧
      channel.Turned slot (drive.serve (chunk :: list) offset payload).drive
        (drive.serve (chunk :: list) offset payload).phase after := by
  have hselect := leads_selectSectors channel slot chunk
  have hready : (awaitStatus Status.ready timeoutMs).Leads (channel.announced slot chunk) _ _ :=
    leads_await_ready timeoutMs hf (selected_announced hd) hp
  have hcommand := leads_command hf hd hc payload
  rw [moveChunks]
  by_cases hreach : drive.Reaches chunk
  · rw [if_pos hreach] at hcommand
    rw [Drive.serve_of_reaches hreach]
    obtain ⟨between, hmoved, hturned⟩ := leads_serveChunk timeoutMs hf hd hc.1 hreach hb
    obtain ⟨after, hrest, hturned'⟩ := hrest between hturned
    exact ⟨after, hselect.bind (hready.bind (hcommand.bind (hmoved.bind hrest))), hturned.trans hturned'⟩
  · rw [if_neg hreach] at hcommand
    rw [Drive.serve_of_not_reaches hreach]
    have hf' : (channel.announced slot chunk).faults = .none := hf
    have hrefused := leads_moveSectors_failed timeoutMs hf' (selected_announced hd) hc.1 offset payload
    exact ⟨_, hselect.bind (hready.bind (hcommand.bind (hrefused.bind (leads_pure _ _)))), turned_announced hd .failed⟩

/-- On a channel without faults that is not at work, a transfer ends as its drive serves it. -/
theorem leads_moveChunks (hf : channel.faults = .none) (hp : channel.phase = .idle)
    (hd : channel.drive slot = some drive) {list : List Chunk}
    (hc : ∀ chunk ∈ list, 1 ≤ chunk.sectors.toNat ∧ chunk.sectors.toNat ≤ 256) {offset : Nat} {payload : Payload}
    (hb : offset + sectorTotal list * sectorSize ≤ payload.buffer.size) :
    ∃ after, (moveChunks slot timeoutMs list offset payload).Leads channel
        ((drive.serve list offset payload).result, (drive.serve list offset payload).payload) after ∧
      channel.Turned slot (drive.serve list offset payload).drive (drive.serve list offset payload).phase after := by
  induction list generalizing channel drive offset payload with
  | nil => exact ⟨channel, leads_pure _ _, rfl, rfl, hp, hd, fun _ _ => rfl⟩
  | cons chunk list ih =>
      rw [sectorTotal_cons, Nat.add_mul] at hb
      obtain ⟨hchunk, hc⟩ := List.forall_mem_cons.mp hc
      refine leads_moveChunks_cons timeoutMs hf (by rw [hp]; nofun) hd hchunk (by omega) fun between hturned => ?_
      exact ih (hturned.faults.trans hf) hturned.phase hturned.drive hc (by rw [Drive.size_serveChunk]; omega)

/-- The drive serves a transfer just so if the data of an earlier command is still under way, and that is given up. -/
theorem leads_moveChunks_of_ready (hf : channel.faults = .none) (hp : channel.phase ≠ .failed)
    (hd : channel.drive slot = some drive) {list : List Chunk}
    (hc : ∀ chunk ∈ list, 1 ≤ chunk.sectors.toNat ∧ chunk.sectors.toNat ≤ 256) {offset : Nat} {payload : Payload}
    (hb : offset + sectorTotal list * sectorSize ≤ payload.buffer.size) :
    ∃ after phase, (moveChunks slot timeoutMs list offset payload).Leads channel
        ((drive.serve list offset payload).result, (drive.serve list offset payload).payload) after ∧
      channel.Turned slot (drive.serve list offset payload).drive phase after := by
  cases list with
  | nil => exact ⟨channel, channel.phase, leads_pure _ _, rfl, rfl, rfl, hd, fun _ _ => rfl⟩
  | cons chunk list =>
      rw [sectorTotal_cons, Nat.add_mul] at hb
      obtain ⟨hchunk, hc⟩ := List.forall_mem_cons.mp hc
      have hb₀ : offset + chunk.sectors.toNat * sectorSize ≤ payload.buffer.size := by omega
      obtain ⟨after, hleads, hturned⟩ := leads_moveChunks_cons timeoutMs hf hp hd hchunk hb₀
        fun between hturned => leads_moveChunks timeoutMs (hturned.faults.trans hf) hturned.phase hturned.drive hc
          (by rw [Drive.size_serveChunk]; omega)
      exact ⟨after, _, hleads, hturned⟩

/-- A refusal is still shown to the command after it, which is therefore never sent. -/
theorem leads_moveChunks_failed (hf : channel.faults = .none) (hp : channel.phase = .failed)
    (hd : channel.drive slot = some drive) (chunk : Chunk) (list : List Chunk) (offset : Nat) (payload : Payload) :
    ∃ after, (moveChunks slot timeoutMs (chunk :: list) offset payload).Leads channel
        (.error (.device Service.refusal), payload) after ∧ channel.Turned slot drive .failed after := by
  have hf : (channel.announced slot chunk).faults = .none := hf
  have hwait : (awaitStatus Status.ready timeoutMs).Leads ((channel.announced slot chunk).inPhase .failed) _
      ((channel.announced slot chunk).inPhase .failed) :=
    leads_await_inPhase timeoutMs hf (selected_announced hd) (by decide)
  have hturned : channel.Turned slot drive .failed ((channel.announced slot chunk).inPhase .failed) :=
    turned_announced hd .failed
  rw [inPhase_self (show (channel.announced slot chunk).phase = .failed from hp)] at hwait hturned
  rw [moveChunks]
  exact ⟨_, (leads_selectSectors channel slot chunk).bind (hwait.bind (leads_pure _ _)), hturned⟩

end Channel

end PolledAta.Emulator
