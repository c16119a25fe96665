import PolledAta.Ide.Transfer
import PolledAta.Proofs.Chunk
import PolledAta.Proofs.Sector
import PolledAta.Proofs.Wait

/-!
# The script of a transfer

What a transfer does on the bus, whatever the device answers: the registers of each command follow a wait for ready,
the words of each sector follow a wait for the data request, and nothing follows a wait that fails.
-/

namespace PolledAta

/-! ## The script -/

/-- The words of one sector cross the bus, and where they go in the buffer or come from. -/
inductive SectorMoved (offset : Nat) : Payload → List Cycle → Payload → Prop where
  | filled {buffer after : Buffer} (driven : Vector (Option UInt16) 256)
      (inside : offset + sectorSize ≤ buffer.size)
      (stored : after = buffer.put offset (Sector.ofWords (driven.map dataLines)).toList) :
      SectorMoved offset (.read buffer) (driven.toList.map .readData) (.read after)
  | sent {buffer : Buffer} (sector : Sector) (held : buffer.sector? offset = some sector) :
      SectorMoved offset (.write buffer) (sector.words.toList.map .writeData) (.write buffer)

/-- A number of sectors, each behind a wait for the data request. -/
inductive SectorsMoved :
    (count offset : Nat) → Payload → List Cycle → Except AtaError Unit → Payload → Prop where
  | finished (offset : Nat) (payload : Payload) : SectorsMoved 0 offset payload [] (.ok ()) payload
  | cutOff {count offset : Nat} {payload : Payload} {trace : List Cycle} {error : AtaError}
      (wait : Waited Status.dataRequest trace (.error error)) :
      SectorsMoved (count + 1) offset payload trace (.error error) payload
  | moved {count offset : Nat} {payload payload' payload'' : Payload} {trace words rest : List Cycle}
      {status : UInt8} {result : Except AtaError Unit}
      (wait : Waited Status.dataRequest trace (.ok status))
      (sector : SectorMoved offset payload words payload')
      (others : SectorsMoved count (offset + sectorSize) payload' rest result payload'') :
      SectorsMoved (count + 1) offset payload (trace ++ words ++ rest) result payload''

def selectCycles (slot : DriveSlot) (chunk : Chunk) : List Cycle :=
  [.write .device (slot.deviceSelect chunk.lba), .write .lbaHigh (chunk.lba >>> 16).toUInt8,
    .write .lbaMid (chunk.lba >>> 8).toUInt8, .write .lbaLow chunk.lba.toUInt8,
    .write .sectorCount chunk.countRegister]

/-- A list of chunks, each a command behind a wait for ready. -/
inductive ChunksMoved (slot : DriveSlot) :
    List Chunk → (offset : Nat) → Payload → List Cycle → Except AtaError Unit → Payload → Prop where
  | finished (offset : Nat) (payload : Payload) : ChunksMoved slot [] offset payload [] (.ok ()) payload
  | cutOff {chunk : Chunk} {chunks : List Chunk} {offset : Nat} {payload : Payload} {trace : List Cycle}
      {error : AtaError} (wait : Waited Status.ready trace (.error error)) :
      ChunksMoved slot (chunk :: chunks) offset payload (selectCycles slot chunk ++ trace)
        (.error error) payload
  | cutOffInside {chunk : Chunk} {chunks : List Chunk} {offset : Nat} {payload payload' : Payload}
      {trace sectors : List Cycle} {status : UInt8} {error : AtaError}
      (wait : Waited Status.ready trace (.ok status))
      (moved : SectorsMoved chunk.sectors.toNat offset payload sectors (.error error) payload') :
      ChunksMoved slot (chunk :: chunks) offset payload
        (selectCycles slot chunk ++ trace ++ [.write .command payload.command] ++ sectors)
        (.error error) payload'
  | moved {chunk : Chunk} {chunks : List Chunk} {offset : Nat} {payload payload' payload'' : Payload}
      {trace sectors rest : List Cycle} {status : UInt8} {result : Except AtaError Unit}
      (wait : Waited Status.ready trace (.ok status))
      (moved : SectorsMoved chunk.sectors.toNat offset payload sectors (.ok ()) payload')
      (others : ChunksMoved slot chunks (offset + chunk.sectors.toNat * sectorSize) payload' rest
        result payload'') :
      ChunksMoved slot (chunk :: chunks) offset payload
        (selectCycles slot chunk ++ trace ++ [.write .command payload.command] ++ sectors ++ rest)
        result payload''

/-! ## Runs -/

theorem SectorMoved.size_eq {offset : Nat} {payload payload' : Payload} {words : List Cycle}
    (h : SectorMoved offset payload words payload') : payload'.buffer.size = payload.buffer.size := by
  cases h with
  | @filled buffer after _ _ stored =>
      show after.size = buffer.size
      rw [stored, Buffer.size_put]
  | sent => rfl

theorem SectorsMoved.size_eq {count offset : Nat} {payload payload' : Payload} {trace : List Cycle}
    {result : Except AtaError Unit} (h : SectorsMoved count offset payload trace result payload') :
    payload'.buffer.size = payload.buffer.size := by
  induction h with
  | finished => rfl
  | cutOff => rfl
  | moved _ sector _ ih => rw [ih, sector.size_eq]

namespace BusM

variable {δ : Type} [Bank δ]

theorem readWords_run (n : Nat) (s : Session δ) :
    ∃ (driven : Vector (Option UInt16) n) (t : Session δ),
      readWords n s = .ok (driven.map dataLines, t) ∧ s.Grows t (driven.toList.map .readData) 0 := by
  induction n with
  | zero => exact ⟨#v[], s, by rw [Vector.map_empty]; rfl, .refl s⟩
  | succ n ih =>
      obtain ⟨driven, t, hrun, hg⟩ := ih
      obtain ⟨word, u, hr, hg'⟩ := readData_run t
      refine ⟨driven.push word, u, ?_, by simpa [Vector.toList_push] using hg.trans hg'⟩
      rw [readWords, Program.bind_of_ok hrun, Program.bind_of_ok hr, Vector.map_push]
      rfl

theorem writeWords_run (words : List UInt16) (s : Session δ) :
    ∃ t, writeWords words s = .ok ((), t) ∧ s.Grows t (words.map .writeData) 0 := by
  induction words generalizing s with
  | nil => exact ⟨s, rfl, .refl s⟩
  | cons word words ih =>
      obtain ⟨t, hw, hg⟩ := writeData_run s word
      obtain ⟨u, hrun, hg'⟩ := ih t
      refine ⟨u, ?_, hg.trans hg'⟩
      rw [writeWords, Program.bind_of_ok hw, hrun]

theorem moveSector_run {offset : Nat} {payload : Payload}
    (hsize : offset + sectorSize ≤ payload.buffer.size) (s : Session δ) :
    ∃ (payload' : Payload) (words : List Cycle) (t : Session δ),
      moveSector offset payload s = .ok (payload', t) ∧ SectorMoved offset payload words payload' ∧
      s.Grows t words 0 := by
  cases payload with
  | read buffer =>
      have hsize : offset + sectorSize ≤ buffer.size := hsize
      obtain ⟨driven, t, hrun, hg⟩ := readWords_run 256 s
      have hread : readSector s = .ok (Sector.ofWords (driven.map dataLines), t) := by
        rw [readSector, Program.bind_of_ok hrun]
        rfl
      refine ⟨_, _, t, ?_, .filled driven hsize rfl, hg⟩
      have hfill : fillSector buffer offset s =
          .ok (buffer.put offset (Sector.ofWords (driven.map dataLines)).toList, t) := by
        rw [fillSector, if_pos hsize, Program.bind_of_ok hread]
        rfl
      rw [moveSector, Program.bind_of_ok hfill]
      rfl
  | write buffer =>
      have hsize : offset + sectorSize ≤ buffer.size := hsize
      obtain ⟨sector, hsector⟩ := Buffer.exists_sector? hsize
      obtain ⟨t, hrun, hg⟩ := writeWords_run sector.words.toList s
      refine ⟨_, _, t, ?_, .sent sector hsector, hg⟩
      have hsend : sendSector buffer offset s = .ok ((), t) := by
        rw [sendSector, hsector]
        exact hrun
      rw [moveSector, Program.bind_of_ok hsend]
      rfl

theorem moveSectors_run (timeoutMs : UInt32) {count offset : Nat} {payload : Payload}
    (hsize : offset + count * sectorSize ≤ payload.buffer.size) {s : Session δ} (hm : s.clock.Moving) :
    ∃ (result : Except AtaError Unit) (payload' : Payload) (trace : List Cycle) (t : Session δ) (readings : Nat),
      moveSectors timeoutMs count offset payload s = .ok ((result, payload'), t) ∧
      SectorsMoved count offset payload trace result payload' ∧ s.Grows t trace readings := by
  induction count generalizing offset payload s with
  | zero => exact ⟨_, _, _, s, _, rfl, .finished offset payload, .refl s⟩
  | succ count ih =>
      obtain ⟨trace, answer, t, n, hw, hwaited, hg⟩ := awaitStatus_run s Status.dataRequest timeoutMs hm
      rw [moveSectors, Program.bind_of_ok hw]
      cases answer with
      | error error => exact ⟨_, _, _, t, _, rfl, .cutOff hwaited, hg⟩
      | ok status =>
          rw [Nat.succ_mul] at hsize
          have hsize₀ : offset + sectorSize ≤ payload.buffer.size := by omega
          obtain ⟨payload₁, words, u, hs, hmoved, hg₁⟩ := moveSector_run hsize₀ t
          have hsize₁ : offset + sectorSize + count * sectorSize ≤ payload₁.buffer.size := by
            rw [hmoved.size_eq]
            omega
          obtain ⟨result, payload₂, rest, v, n', hrun, hrest, hg₂⟩ :=
            ih hsize₁ (hg₁.moving (hg.moving hm))
          refine ⟨_, _, _, v, _, ?_, .moved hwaited hmoved hrest, (hg.trans hg₁).trans hg₂⟩
          exact (Program.bind_of_ok hs).trans hrun

theorem selectSectors_run (slot : DriveSlot) (chunk : Chunk) (s : Session δ) :
    ∃ t, selectSectors slot chunk s = .ok ((), t) ∧ s.Grows t (selectCycles slot chunk) 0 := by
  obtain ⟨t₁, h₁, g₁⟩ := write_run s .device (slot.deviceSelect chunk.lba)
  obtain ⟨t₂, h₂, g₂⟩ := write_run t₁ .lbaHigh (chunk.lba >>> 16).toUInt8
  obtain ⟨t₃, h₃, g₃⟩ := write_run t₂ .lbaMid (chunk.lba >>> 8).toUInt8
  obtain ⟨t₄, h₄, g₄⟩ := write_run t₃ .lbaLow chunk.lba.toUInt8
  obtain ⟨t₅, h₅, g₅⟩ := write_run t₄ .sectorCount chunk.countRegister
  refine ⟨t₅, ?_, (((g₁.trans g₂).trans g₃).trans g₄).trans g₅⟩
  rw [selectSectors, Program.bind_of_ok h₁, Program.bind_of_ok h₂, Program.bind_of_ok h₃,
    Program.bind_of_ok h₄, h₅]

theorem moveChunks_run (slot : DriveSlot) (timeoutMs : UInt32) {chunks : List Chunk} {offset : Nat}
    {payload : Payload} (hsize : offset + sectorTotal chunks * sectorSize ≤ payload.buffer.size)
    {s : Session δ} (hm : s.clock.Moving) :
    ∃ (result : Except AtaError Unit) (payload' : Payload) (trace : List Cycle) (t : Session δ) (readings : Nat),
      moveChunks slot timeoutMs chunks offset payload s = .ok ((result, payload'), t) ∧
      ChunksMoved slot chunks offset payload trace result payload' ∧ s.Grows t trace readings := by
  induction chunks generalizing offset payload s with
  | nil => exact ⟨_, _, _, s, _, rfl, .finished offset payload, .refl s⟩
  | cons chunk chunks ih =>
      rw [sectorTotal_cons, Nat.add_mul] at hsize
      obtain ⟨t, hsel, hg⟩ := selectSectors_run slot chunk s
      obtain ⟨trace, answer, u, n, hw, hwaited, hg₁⟩ :=
        awaitStatus_run t Status.ready timeoutMs (hg.moving hm)
      rw [moveChunks, Program.bind_of_ok hsel, Program.bind_of_ok hw]
      have hg₁ := hg.trans hg₁
      cases answer with
      | error error => exact ⟨_, _, _, u, _, rfl, .cutOff hwaited, hg₁⟩
      | ok status =>
          obtain ⟨v, hc, hg₂⟩ := write_run u .command payload.command
          have hg₂ := hg₁.trans hg₂
          have hsize₀ : offset + chunk.sectors.toNat * sectorSize ≤ payload.buffer.size := by omega
          obtain ⟨result, payload₁, sectors, w, n', hrun, hsectors, hg₃⟩ :=
            moveSectors_run timeoutMs hsize₀ (hg₂.moving hm)
          have hg₃ := hg₂.trans hg₃
          simp only [Program.bind_of_ok hc, Program.bind_of_ok hrun]
          cases result with
          | error error => exact ⟨_, _, _, w, _, rfl, .cutOffInside hwaited hsectors, hg₃⟩
          | ok _ =>
              have hsize₁ : offset + chunk.sectors.toNat * sectorSize + sectorTotal chunks * sectorSize ≤
                  payload₁.buffer.size := by
                rw [hsectors.size_eq]
                omega
              obtain ⟨result, payload₂, rest, x, n'', hrun', hrest, hg₄⟩ := ih hsize₁ (hg₃.moving hm)
              exact ⟨_, _, _, x, _, hrun', .moved hwaited hsectors hrest, hg₃.trans hg₄⟩

end BusM

end PolledAta
