import PolledAta.Proofs.WholeChunks

/-!
# How far a request comes

On a channel without faults a request does its chunks in order and stops at the first one that does not lie on the
drive. What is done before stays done.
-/

namespace PolledAta

open Emulator

/-! ## The chunks that are done -/

theorem Emulator.map_snd_placed (offset : Nat) (list : List Chunk) : (placed offset list).map Prod.snd = list := by
  induction list generalizing offset with
  | nil => rfl
  | cons chunk list ih => rw [placed, List.map_cons, ih]

theorem Chunks.toList_eq_map (rest : Chunks) : rest.toList = (List.range rest.length).map rest.chunkAt := by
  rw [← map_snd_placed 0 rest.toList, placed_toList, List.map_map]
  rfl

namespace Emulator.Drive

variable {drive other : Drive} {chunk : Chunk} {list : List Chunk} {offset k : Nat}

/-- How many chunks lie on the drive before the first one that does not. -/
def reached (drive : Drive) : List Chunk → Nat
  | [] => 0
  | chunk :: list => if drive.Reaches chunk then drive.reached list + 1 else 0

theorem reached_of_reaches (h : drive.Reaches chunk) : drive.reached (chunk :: list) = drive.reached list + 1 := by
  rw [reached, if_pos h]

theorem reached_of_not_reaches (h : ¬drive.Reaches chunk) : drive.reached (chunk :: list) = 0 := by
  rw [reached, if_neg h]

theorem reached_congr (h : other.sectorCount = drive.sectorCount) (list : List Chunk) :
    other.reached list = drive.reached list := by
  induction list with
  | nil => rfl
  | cons chunk list ih =>
      have hiff : other.Reaches chunk ↔ drive.Reaches chunk := by rw [Reaches, Reaches, h]
      by_cases hreach : drive.Reaches chunk
      · rw [reached_of_reaches hreach, reached_of_reaches (hiff.mpr hreach), ih]
      · rw [reached_of_not_reaches hreach, reached_of_not_reaches (mt hiff.mp hreach)]

theorem reached_le (drive : Drive) (list : List Chunk) : drive.reached list ≤ list.length := by
  induction list with
  | nil => exact Nat.le_refl 0
  | cons chunk list ih =>
      by_cases h : drive.Reaches chunk
      · simpa [reached_of_reaches h] using ih
      · simp [reached_of_not_reaches h]

theorem reaches_of_lt_reached (hk : k < drive.reached list) (hc : list[k]? = some chunk) : drive.Reaches chunk := by
  induction list generalizing k with
  | nil => cases hc
  | cons first list ih =>
      by_cases h : drive.Reaches first
      · cases k with
        | zero =>
            cases hc
            exact h
        | succ k =>
            rw [reached_of_reaches h] at hk
            exact ih (Nat.lt_of_succ_lt_succ hk) hc
      · rw [reached_of_not_reaches h] at hk
        cases hk

theorem not_reaches_at_reached (hc : list[drive.reached list]? = some chunk) : ¬drive.Reaches chunk := by
  induction list with
  | nil => cases hc
  | cons first list ih =>
      by_cases h : drive.Reaches first
      · rw [reached_of_reaches h] at hc
        exact ih hc
      · rw [reached_of_not_reaches h] at hc
        cases hc
        exact h

/-- Chunks are done by their numbers, up to the first one that does not lie on the drive. -/
theorem reached_chunks (drive : Drive) (lba count : UInt32) :
    let done := drive.reached (chunks lba count).toList
    done ≤ (chunks lba count).length ∧
      (∀ k < done, chunkAddress lba k + chunkLength count k ≤ drive.sectorCount) ∧
      (done < (chunks lba count).length → ¬chunkAddress lba done + chunkLength count done ≤ drive.sectorCount) := by
  have hat : ∀ k < (chunks lba count).length,
      (chunks lba count).toList[k]? = some (chunkPart lba count k).2 := by
    intro k hk
    rw [Chunks.toList_eq_map]
    simp [hk, chunkPart]
  have hle : drive.reached (chunks lba count).toList ≤ (chunks lba count).length :=
    (drive.reached_le _).trans_eq (Chunks.length_toList _)
  refine ⟨hle, fun k hk => ?_, fun hlt => ?_⟩
  · exact reaches_chunkPart.mp (reaches_of_lt_reached hk (hat k (Nat.lt_of_lt_of_le hk hle)))
  · exact mt reaches_chunkPart.mpr (not_reaches_at_reached (hat _ hlt))

/-! ## What is done with them -/

theorem served_iff_reached {payload : Payload} :
    (drive.serve list offset payload).served = true ↔ drive.reached list = list.length := by
  induction list generalizing drive offset payload with
  | nil => simp [serve, reached]
  | cons chunk list ih =>
      by_cases h : drive.Reaches chunk
      · rw [serve_of_reaches h, ih, reached_of_reaches h, reached_congr sectorCount_serveChunk, List.length_cons,
          Nat.succ_inj]
      · simp [serve_of_not_reaches h, reached_of_not_reaches h]

/-- A write leaves the chunks that are done on the drive. -/
theorem overwritten_serve {buffer : Buffer} : (drive.serve list offset (.write buffer)).drive =
    drive.overwritten buffer ((placed offset list).take (drive.reached list)) := by
  induction list generalizing drive offset with
  | nil => rfl
  | cons chunk list ih =>
      by_cases h : drive.Reaches chunk
      · have hcount : (drive.written chunk.sentLba buffer offset chunk.sectors.toNat).sectorCount = drive.sectorCount :=
          sectorCount_written ..
        rw [serve_of_reaches h, reached_of_reaches h, placed, List.take_succ_cons, serveChunk, ih, reached_congr hcount]
        rfl
      · rw [serve_of_not_reaches h, reached_of_not_reaches h]
        rfl

theorem filled_first (rest : Chunks) {buffer : Buffer} (hreach : drive.Reaches ⟨rest.next, rest.sectors⟩)
    (hb : offset + rest.sectors.toNat * sectorSize ≤ buffer.size) :
    buffer.Filled offset rest.sectors.toNat (fun i => drive.sector? (chunkAddress rest.next (i / 256) + i % 256))
      (drive.serveChunk ⟨rest.next, rest.sectors⟩ offset (.read buffer)).2.buffer := by
  have hinside : chunkAddress rest.next 0 + rest.sectors.toNat ≤ drive.sectorCount := by
    rw [← Chunks.sentLba_chunkAt, Chunks.chunkAt_zero]
    exact hreach
  have hs := le_sectorCount_iff.mp hinside
  rw [Nat.add_mul] at hs
  have haddress : (Chunk.mk rest.next rest.sectors).sentLba = chunkAddress rest.next 0 := by
    rw [← Chunks.sentLba_chunkAt, Chunks.chunkAt_zero]
  rw [serveChunk, haddress]
  refine (Buffer.filled_copy hs hb).congr fun i hi => ?_
  have hshort := rest.sectors_le
  rw [sector?, Nat.div_eq_of_lt (by omega), Nat.mod_eq_of_lt (by omega), Nat.add_mul]

/-- A read leaves the chunks that are done in the buffer. -/
theorem filled_serve (rest : Chunks) {buffer : Buffer}
    (hb : offset + rest.remaining.toNat * sectorSize ≤ buffer.size) :
    buffer.Filled offset (min rest.remaining.toNat (256 * drive.reached rest.toList))
      (fun i => drive.sector? (chunkAddress rest.next (i / 256) + i % 256))
      (drive.serve rest.toList offset (.read buffer)).payload.buffer := by
  induction rest using Chunks.induction generalizing offset buffer with
  | nil rest h =>
      rw [Chunks.toList_eq_nil h, reached, Nat.mul_zero, Nat.min_zero]
      exact .none ..
  | cons rest h ih =>
      rw [Chunks.toList_eq_cons h]
      by_cases hreach : drive.Reaches ⟨rest.next, rest.sectors⟩
      · rw [rest.toNat_remaining, Nat.add_mul] at hb
        have hfirst := filled_first rest hreach (by omega : offset + rest.sectors.toNat * sectorSize ≤ buffer.size)
        have hsize : offset + rest.sectors.toNat * sectorSize + (rest.remaining - rest.sectors).toNat * sectorSize ≤
            (drive.serveChunk ⟨rest.next, rest.sectors⟩ offset (.read buffer)).2.buffer.size := by
          rw [hfirst.size]
          omega
        have hrest := ih hsize
        rw [serve_of_reaches hreach, reached_of_reaches hreach]
        generalize drive.reached _ = more at hrest ⊢
        have hcount : min rest.remaining.toNat (256 * (more + 1)) =
            rest.sectors.toNat + min (rest.remaining - rest.sectors).toNat (256 * more) := by
          rw [Chunks.toNat_remaining_sub, Chunks.toNat_sectors]
          omega
        rw [hcount]
        refine hfirst.trans (hrest.congr fun i hi => ?_)
        have hfull : rest.sectors.toNat = 256 := by
          rw [Chunks.toNat_remaining_sub] at hi
          rw [Chunks.toNat_sectors]
          omega
        have haddress : chunkAddress (rest.next + rest.sectors) (i / 256) = chunkAddress rest.next (i / 256 + 1) := by
          rw [chunkAddress, chunkAddress, UInt32.toNat_add, hfull]
          omega
        rw [haddress, hfull, Nat.add_div_left i (by decide), Nat.add_mod_left]
      · rw [serve_of_not_reaches hreach, reached_of_not_reaches hreach, Nat.mul_zero, Nat.min_zero]
        exact .none ..

end Emulator.Drive

/-! ## The commands that are given -/

theorem selection_selectCycles (slot selected : DriveSlot) (chunk : Chunk) :
    selection selected (selectCycles slot chunk) = slot := by
  show DriveSlot.ofDevice (slot.deviceSelect chunk.lba) = slot
  exact slot.ofDevice_deviceSelect chunk.lba

theorem commands_chunk {slot : DriveSlot} {chunk : Chunk} {command : UInt8} {waits sectors : List Cycle}
    (hwaits : Unwritten waits) (hsectors : Unwritten sectors) (selected : DriveSlot) (rest : List Cycle) :
    commands selected (selectCycles slot chunk ++ waits ++ [.write .command command] ++ sectors ++ rest) =
      (slot, command) :: commands slot rest := by
  have hselect : commands selected (selectCycles slot chunk) = [] := rfl
  simp only [commands_append, selection_append, hselect, selection_selectCycles, hwaits.commands_eq,
    hsectors.commands_eq, List.nil_append]
  rfl

theorem Emulator.Drive.command_serveChunk {drive : Drive} {chunk : Chunk} {offset : Nat} {payload : Payload} :
    (drive.serveChunk chunk offset payload).2.command = payload.command := by
  cases payload <;> rfl

namespace BusM

variable {s t : Session Channel} {slot : DriveSlot} {drive : Drive} {list : List Chunk} {offset : Nat}
  {payload : Payload} {answer : Except AtaError Unit × Payload} {timeoutMs : UInt32}

/-- On a channel without faults that has not refused the last command, the first chunk of a transfer is a command. If it
lies on the drive the transfer goes on after it, and otherwise it ends there. -/
theorem moveChunks_cons_eq_ok {chunk : Chunk} (hf : s.device.faults = .none) (hp : s.device.phase ≠ .failed)
    (hd : s.device.drive slot = some drive) (hc : 1 ≤ chunk.sectors.toNat ∧ chunk.sectors.toNat ≤ 256)
    (hb : offset + chunk.sectors.toNat * sectorSize ≤ payload.buffer.size)
    (h : moveChunks slot timeoutMs (chunk :: list) offset payload s = .ok (answer, t)) :
    ∃ waits sectors u, Unwritten waits ∧ Unwritten sectors ∧
      u.cycles = s.cycles ++ (selectCycles slot chunk ++ waits ++ [.write .command payload.command] ++ sectors) ∧
      (drive.Reaches chunk → s.device.Turned slot (drive.serveChunk chunk offset payload).1 .idle u.device ∧
        moveChunks slot timeoutMs list (offset + chunk.sectors.toNat * sectorSize)
          (drive.serveChunk chunk offset payload).2 u = .ok (answer, t)) ∧
      (¬drive.Reaches chunk → t = u) := by
  rw [moveChunks] at h
  obtain ⟨_, s₁, hselect, h⟩ := Program.bind_eq_ok.mp h
  obtain ⟨ready, s₂, hwait, h⟩ := Program.bind_eq_ok.mp h
  have hselected := (Channel.leads_selectSectors s.device slot chunk).of_run rfl hselect
  have hf' : (s.device.announced slot chunk).faults = .none := hf
  have hready : (awaitStatus Status.ready timeoutMs).Leads (s.device.announced slot chunk) _ _ :=
    Channel.leads_await_ready timeoutMs hf' (Channel.selected_announced hd) hp
  obtain ⟨rfl, hwaited⟩ := hready.of_run hselected.2 hwait
  obtain ⟨_, s₃, hcommand, h⟩ := Program.bind_eq_ok.mp h
  have hcommanded := (Channel.leads_command hf hd hc payload).of_run hwaited hcommand
  obtain ⟨⟨moved, payload'⟩, u, hmove, h⟩ := Program.bind_eq_ok.mp h
  obtain ⟨waits, waited, hruns⟩ := awaitStatus_eq_ok hwait
  obtain ⟨sectors, hsectors, hruns'⟩ := moveSectors_eq_ok hmove
  have hruns := (((selectSectors_eq_ok hselect).trans hruns).trans (write_eq_ok hcommand)).trans hruns'
  refine ⟨waits, sectors, u, waited.unwritten, hsectors.unwritten, hruns.cycles, fun hreach => ?_, fun hreach => ?_⟩
  · rw [if_pos hreach] at hcommanded
    obtain ⟨between, hserved, hturned⟩ := Channel.leads_serveChunk timeoutMs hf hd hc.1 hreach hb
    obtain ⟨heq, rfl⟩ := hserved.of_run hcommanded.2 hmove
    cases heq
    exact ⟨hturned, h⟩
  · rw [if_neg hreach] at hcommanded
    have hrefused := Channel.leads_moveSectors_failed timeoutMs hf' (Channel.selected_announced hd) hc.1 offset payload
    obtain ⟨heq, _⟩ := hrefused.of_run hcommanded.2 hmove
    cases heq
    cases h
    rfl

/-- Each chunk that is done is a command, and so is the first one that does not lie on the drive. -/
theorem moveChunks_commands (hf : s.device.faults = .none) (hp : s.device.phase ≠ .failed)
    (hd : s.device.drive slot = some drive)
    (hc : ∀ chunk ∈ list, 1 ≤ chunk.sectors.toNat ∧ chunk.sectors.toNat ≤ 256)
    (hb : offset + sectorTotal list * sectorSize ≤ payload.buffer.size)
    (h : moveChunks slot timeoutMs list offset payload s = .ok (answer, t)) :
    ∃ trace, t.cycles = s.cycles ++ trace ∧ ∀ selected,
      commands selected trace = List.replicate (min list.length (drive.reached list + 1)) (slot, payload.command) := by
  induction list generalizing s drive offset payload with
  | nil =>
      cases h
      exact ⟨[], (List.append_nil _).symm, fun _ => rfl⟩
  | cons chunk list ih =>
      rw [sectorTotal_cons, Nat.add_mul] at hb
      obtain ⟨hchunk, hc⟩ := List.forall_mem_cons.mp hc
      obtain ⟨waits, sectors, u, hwaits, hsectors, hcycles, hserved, hrefused⟩ :=
        moveChunks_cons_eq_ok hf hp hd hchunk (by omega) h
      by_cases hreach : drive.Reaches chunk
      · obtain ⟨hturned, h⟩ := hserved hreach
        have hb₁ : offset + chunk.sectors.toNat * sectorSize + sectorTotal list * sectorSize ≤
            (drive.serveChunk chunk offset payload).2.buffer.size := by
          rw [Drive.size_serveChunk]
          omega
        obtain ⟨rest, hrest, hcommands⟩ :=
          ih (hturned.faults.trans hf) (by simp [hturned.phase]) hturned.drive hc hb₁ h
        refine ⟨_, by rw [hrest, hcycles, List.append_assoc], fun selected => ?_⟩
        rw [commands_chunk hwaits hsectors, hcommands, Drive.reached_of_reaches hreach,
          Drive.reached_congr Drive.sectorCount_serveChunk, List.length_cons, Nat.add_min_add_right,
          List.replicate_succ, Drive.command_serveChunk]
      · obtain rfl := hrefused hreach
        have hone : min (chunk :: list).length (drive.reached (chunk :: list) + 1) = 1 := by
          rw [Drive.reached_of_not_reaches hreach, List.length_cons]
          omega
        refine ⟨_ ++ [], by rw [List.append_nil, hcycles], fun selected => ?_⟩
        rw [commands_chunk hwaits hsectors, hone]
        rfl

end BusM

/-! ## Requests -/

namespace Request

variable {request : Request} {ide : Ide Channel} {disk : Disk} {controller : Controller Channel} {drive : Drive}
  {phase : Phase}

theorem result_service : (request.service drive).result =
    if drive.reached (chunks request.lba request.count).toList = (chunks request.lba request.count).length then .ok ()
    else .error (.device 0x41) := by
  rw [Service.result]
  refine if_congr ?_ rfl rfl
  rw [← Chunks.length_toList]
  exact Drive.served_iff_reached

/-- What a request comes to that is sent to a drive which can take a command. -/
theorem perform_of_ready (hd : ide.table.get? request.index = some disk)
    (hs : ide.Stands disk controller drive phase) (hp : phase ≠ .failed) (hb : request.bytes ≤ request.buffer.size) :
    ∃ session trace after, request.perform ide = .ok (((request.service drive).result,
        (request.service drive).payload.buffer), ide.worked disk.controller controller session) ∧
      controller.device.Turned disk.slot (request.service drive).drive after session.device ∧
      (ide.worked disk.controller controller session).cycles disk.controller = ide.cycles disk.controller ++ trace ∧
      ∀ selected, commands selected trace = List.replicate (min (chunks request.lba request.count).length
        (drive.reached (chunks request.lba request.count).toList + 1)) (disk.slot, request.payload.command) := by
  have hp' : controller.device.phase ≠ .failed := hs.phase ▸ hp
  have hc : ∀ chunk ∈ (chunks request.lba request.count).toList, _ := fun _ hc => Chunks.sectors_of_mem hc
  obtain ⟨device, after, hleads, hturned⟩ := Channel.leads_moveChunks_of_ready ide.settings.commandTimeoutMs hs.faults
    hp' hs.drive hc (sectorTotal_le hb)
  obtain ⟨session, hrun, rfl⟩ := hleads.run (ide.opened controller) rfl
  have hopened : (ide.opened controller).device = controller.device := rfl
  obtain ⟨trace, hcycles, hcommands⟩ := BusM.moveChunks_commands (hopened ▸ hs.faults) (hopened ▸ hp')
    (hopened ▸ hs.drive) hc (sectorTotal_le hb) hrun
  rw [Chunks.length_toList] at hcommands
  refine ⟨session, trace, after, perform_of_moveChunks hd hb hs.found became_serve hrun, hturned, ?_, hcommands⟩
  rw [Ide.worked_cycles_self, hcycles, Ide.opened_cycles, List.nil_append]

end Request

/-- So many chunks of a request lie on a drive of so many sectors before the first one that does not. -/
structure Completed (sectors : Nat) (lba count : UInt32) (done : Nat) : Prop where
  le : done ≤ (chunks lba count).length
  inside : ∀ k < done, chunkAddress lba k + chunkLength count k ≤ sectors
  stopped : done < (chunks lba count).length → ¬chunkAddress lba done + chunkLength count done ≤ sectors

theorem Completed.eq_iff {sectors done : Nat} {lba count : UInt32} (h : Completed sectors lba count done) :
    done = (chunks lba count).length ↔
      ∀ k < (chunks lba count).length, chunkAddress lba k + chunkLength count k ≤ sectors := by
  constructor
  · rintro rfl
    exact h.inside
  · intro all
    by_contra hne
    have hlt : done < (chunks lba count).length := Nat.lt_of_le_of_ne h.le hne
    exact h.stopped hlt (all done hlt)

/-- The chunks that are done fill the front of the buffer, and the rest of it stays as it was. -/
theorem Buffer.Filled.chunks {buffer after : Buffer} {drive : Drive} {lba count : UInt32} {done : Nat}
    (h : buffer.Filled 0 (min count.toNat (256 * done))
      (fun i => drive.sector? (chunkAddress lba (i / 256) + i % 256)) after) :
    (∀ k < done, ∀ i < chunkLength count k,
      after.sector? ((256 * k + i) * sectorSize) = drive.sector? (chunkAddress lba k + i)) ∧
    ∀ j, min count.toNat (256 * done) * sectorSize ≤ j → after[j]? = buffer[j]? := by
  refine ⟨fun k hk i hi => ?_, fun j hj => h.outside j (.inr ((Nat.zero_add _).trans_le hj))⟩
  rw [chunkLength] at hi
  have hinside := h.inside (256 * k + i) (by omega)
  have hdiv : (256 * k + i) / 256 = k := by omega
  have hmod : (256 * k + i) % 256 = i := by omega
  rwa [Nat.zero_add, hdiv, hmod] at hinside

/-- A request to a drive that can take a command does the chunks of its range in order and ends with an error at the
first one that does not lie on the drive. Each chunk that is done is a command, and so is the one that ends it. A read
leaves the sectors of the chunks that are done in the front of the buffer, and a write leaves them on the drive. -/
theorem requests_stop_at_first_chunk_off_drive {ide : Ide Channel} {index : Nat} {disk : Disk}
    {controller : Controller Channel} {drive : Drive} {phase : Phase} (hd : ide.table.get? index = some disk)
    (hs : ide.Stands disk controller drive phase) (hp : phase ≠ .failed) (lba count : UInt32) {buffer : Buffer}
    (hb : count.toNat * sectorSize ≤ buffer.size) :
    ∃ done, Completed drive.sectorCount lba count done ∧
      (done = (chunks lba count).length ↔
        ∀ k < (chunks lba count).length, chunkAddress lba k + chunkLength count k ≤ drive.sectorCount) ∧
      (∃ after ide' trace,
        IdeM.readSectors index buffer lba count ide =
          .ok ((if done = (chunks lba count).length then .ok () else .error (.device 0x41), after), ide') ∧
        ide'.cycles disk.controller = ide.cycles disk.controller ++ trace ∧
        (∀ selected, commands selected trace =
          List.replicate (min (chunks lba count).length (done + 1)) (disk.slot, Command.readSectors)) ∧
        after.size = buffer.size ∧
        (∀ k < done, ∀ i < chunkLength count k,
          after.sector? ((256 * k + i) * sectorSize) = drive.sector? (chunkAddress lba k + i)) ∧
        ∀ j, min count.toNat (256 * done) * sectorSize ≤ j → after[j]? = buffer[j]?) ∧
      ∃ ide' trace,
        IdeM.writeSectors index buffer lba count ide =
          .ok (if done = (chunks lba count).length then .ok () else .error (.device 0x41), ide') ∧
        ide'.cycles disk.controller = ide.cycles disk.controller ++ trace ∧
        (∀ selected, commands selected trace =
          List.replicate (min (chunks lba count).length (done + 1)) (disk.slot, Command.writeSectors)) ∧
        ide'.drive? disk.controller disk.slot =
          some ((List.range done).foldl (Drive.withChunk lba count buffer) drive) := by
  have hcompleted : Completed drive.sectorCount lba count (drive.reached (chunks lba count).toList) := by
    obtain ⟨hle, hinside, hstopped⟩ := drive.reached_chunks lba count
    exact ⟨hle, hinside, hstopped⟩
  refine ⟨_, hcompleted, hcompleted.eq_iff, ?read, ?write⟩
  case read =>
    obtain ⟨session, trace, _, hrun, _, hcycles, hcommands⟩ :=
      @Request.perform_of_ready ⟨index, lba, count, .read buffer⟩ _ _ _ _ _ hd hs hp hb
    rw [Request.result_service] at hrun
    have hfilled := drive.filled_serve (chunks lba count) ((Nat.zero_add _).trans_le hb)
    obtain ⟨hinside, hrest⟩ := hfilled.chunks
    exact ⟨_, _, trace, hrun, hcycles, hcommands, hfilled.size, hinside, hrest⟩
  case write =>
    obtain ⟨session, trace, after, hrun, hturned, hcycles, hcommands⟩ :=
      @Request.perform_of_ready ⟨index, lba, count, .write buffer⟩ _ _ _ _ _ hd hs hp hb
    rw [Request.result_service] at hrun
    obtain ⟨hwrite, _⟩ := Request.writeSectors_of_perform hrun
    refine ⟨_, trace, hwrite, hcycles, hcommands, ?_⟩
    rw [Ide.drive?_worked_self hs.found, hturned.drive, ← Drive.overwritten_map, ← take_placed_chunks hcompleted.le]
    exact congrArg some Drive.overwritten_serve

theorem sample_last_sector_read : ∃ (ide ide' : Ide Channel) (disk : Disk) (controller : Controller Channel)
    (drive : Drive) (after : Buffer), ide.table.get? 0 = some disk ∧ ide.Stands disk controller drive .idle ∧
      drive.sectorCount = 2 ∧ IdeM.readSectors 0 (.replicate 512 7) 1 1 ide = .ok ((.ok (), after), ide') ∧
      after.sector? 0 = drive.sector? 1 := by
  obtain ⟨ide, disk, controller, drive, _, hd, hs, hcount⟩ := Ide.exists_stands_sample
  have hsize : (1 : UInt32).toNat * sectorSize ≤ (Array.replicate 512 7 : Buffer).size := (Array.size_replicate ..).ge
  obtain ⟨done, _, hdone, ⟨after, ide', _, hread, _, _, _, hinside, _⟩, _⟩ :=
    requests_stop_at_first_chunk_off_drive hd hs nofun 1 1 hsize
  have hone : done = 1 := hdone.mpr (by rw [hcount]; decide)
  rw [if_pos (hone.trans (by decide))] at hread
  have hsector := hinside 0 (by omega) 0 (by decide)
  rw [show chunkAddress 1 0 = 1 by decide] at hsector
  exact ⟨ide, ide', disk, controller, drive, after, hd, hs, hcount, hread, hsector⟩

end PolledAta
