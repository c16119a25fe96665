import PolledAta.Proofs.Course
import PolledAta.Proofs.Moves

/-!
# Room for what is moved

A request moves whole sectors, and only as many as its buffer has room for. One that would need more is turned down with
the number of bytes that it needs, before anything has crossed the bus.
-/

namespace PolledAta

/-! ## Bytes on the bus -/

/-- How many bytes of data have crossed the bus. -/
def bytesMoved (trace : List Cycle) : Nat :=
  2 * trace.countP fun
    | .readData _ => true
    | .writeData _ => true
    | _ => false

theorem bytesMoved_append (first second : List Cycle) :
    bytesMoved (first ++ second) = bytesMoved first + bytesMoved second := by
  rw [bytesMoved, bytesMoved, bytesMoved, List.countP_append, Nat.mul_add]

theorem bytesMoved_selectCycles (slot : DriveSlot) (chunk : Chunk) : bytesMoved (selectCycles slot chunk) = 0 := rfl

theorem Waited.bytesMoved_eq {bits : UInt8} {trace : List Cycle} {answer : Except AtaError UInt8}
    (h : Waited bits trace answer) : bytesMoved trace = 0 := by
  cases h with
  | intro => simp [bytesMoved, List.countP_map, Function.comp_def]

theorem SectorMoved.bytesMoved_eq {offset : Nat} {payload payload' : Payload} {words : List Cycle}
    (h : SectorMoved offset payload words payload') : bytesMoved words = sectorSize := by
  cases h with
  | filled => simp [bytesMoved, List.countP_map, Function.comp_def, sectorSize]
  | sent => simp [bytesMoved, List.countP_map, Function.comp_def, sectorSize]

theorem SectorsMoved.bytesMoved_le {count offset : Nat} {payload payload' : Payload} {trace : List Cycle}
    {result : Except AtaError Unit} (h : SectorsMoved count offset payload trace result payload') :
    bytesMoved trace ≤ count * sectorSize := by
  induction h with
  | finished => exact Nat.zero_le _
  | cutOff wait =>
      rw [wait.bytesMoved_eq]
      exact Nat.zero_le _
  | moved wait sector _ ih =>
      rw [bytesMoved_append, bytesMoved_append, wait.bytesMoved_eq, sector.bytesMoved_eq, Nat.add_mul]
      omega

theorem ChunksMoved.bytesMoved_le {slot : DriveSlot} {chunks : List Chunk} {offset : Nat} {payload payload' : Payload}
    {trace : List Cycle} {result : Except AtaError Unit}
    (h : ChunksMoved slot chunks offset payload trace result payload') :
    bytesMoved trace ≤ sectorTotal chunks * sectorSize := by
  have hcommand (value : UInt8) : bytesMoved [.write .command value] = 0 := rfl
  induction h with
  | finished => exact Nat.zero_le _
  | cutOff wait =>
      rw [bytesMoved_append, bytesMoved_selectCycles, wait.bytesMoved_eq]
      exact Nat.zero_le _
  | cutOffInside wait moved =>
      have hmoved := moved.bytesMoved_le
      rw [bytesMoved_append, bytesMoved_append, bytesMoved_append, bytesMoved_selectCycles, wait.bytesMoved_eq, hcommand,
        sectorTotal_cons, Nat.add_mul]
      omega
  | moved wait moved _ ih =>
      have hmoved := moved.bytesMoved_le
      rw [bytesMoved_append, bytesMoved_append, bytesMoved_append, bytesMoved_append, bytesMoved_selectCycles,
        wait.bytesMoved_eq, hcommand, sectorTotal_cons, Nat.add_mul]
      omega

/-! ## Numbers in answers -/

theorem Waited.ne_badBuffer {bits : UInt8} {trace : List Cycle} {answer : Except AtaError UInt8}
    (h : Waited bits trace answer) (len needed : Nat) : answer ≠ .error (.badBuffer len needed) := by
  cases h with
  | intro settle pending last early =>
      unfold Status.judge
      split
      · nofun
      · split
        · nofun
        · split <;> nofun

theorem SectorsMoved.ne_badBuffer {count offset : Nat} {payload payload' : Payload} {trace : List Cycle}
    {result : Except AtaError Unit} (h : SectorsMoved count offset payload trace result payload') (len needed : Nat) :
    result ≠ .error (.badBuffer len needed) := by
  induction h with
  | finished => nofun
  | cutOff wait =>
      intro hresult
      cases hresult
      exact wait.ne_badBuffer len needed rfl
  | moved _ _ _ ih => exact ih

/-- Once a transfer is under way, its buffer is large enough. -/
theorem ChunksMoved.ne_badBuffer {slot : DriveSlot} {chunks : List Chunk} {offset : Nat} {payload payload' : Payload}
    {trace : List Cycle} {result : Except AtaError Unit}
    (h : ChunksMoved slot chunks offset payload trace result payload') (len needed : Nat) :
    result ≠ .error (.badBuffer len needed) := by
  induction h with
  | finished => nofun
  | cutOff wait =>
      intro hresult
      cases hresult
      exact wait.ne_badBuffer len needed rfl
  | cutOffInside _ moved =>
      intro hresult
      cases hresult
      exact moved.ne_badBuffer len needed rfl
  | moved _ _ _ ih => exact ih

/-! ## Requests -/

variable {δ : Type} {ide ide' : Ide δ}

/-- A request keeps to its buffer: it moves no more bytes than the buffer has, and asks for no more than a machine word
can count. -/
structure Ide.KeepsTo (ide ide' : Ide δ) (room : Nat) (result : Except AtaError Unit) : Prop where
  moved : ∀ controller, ∃ trace, ide'.cycles controller = ide.cycles controller ++ trace ∧ bytesMoved trace ≤ room
  needed : ∀ len needed, result = .error (.badBuffer len needed) → needed < 2 ^ 64

theorem Ide.moved_of_same {room controller : Nat} (h : ide'.cycles controller = ide.cycles controller) :
    ∃ trace, ide'.cycles controller = ide.cycles controller ++ trace ∧ bytesMoved trace ≤ room :=
  ⟨[], by rw [h, List.append_nil], Nat.zero_le _⟩

/-- A buffer that is no whole number of blocks is turned down. -/
theorem Volume.keeps_of_blocksIn {size : Nat} {error : AtaError} (h : blocksIn size = .error error)
    (hsize : size < 2 ^ 63) : ide.KeepsTo ide size (.error error) := by
  refine ⟨fun _ => Ide.moved_of_same rfl, fun len needed herror => ?_⟩
  unfold blocksIn at h
  split at h
  · cases h
  · cases h
    cases herror
    unfold sectorSize
    omega

variable [Bank δ]

theorem Transferred.keeps {index : Nat} {lba count : UInt32} {payload payload' : Payload} {result : Except AtaError Unit}
    (h : Transferred ide index lba count payload (result, payload') ide') :
    ide.KeepsTo ide' payload.buffer.size result := by
  cases h with
  | unknown => exact ⟨fun _ => Ide.moved_of_same (Ide.cycles_noted ..), nofun⟩
  | short =>
      refine ⟨fun _ => Ide.moved_of_same rfl, fun len needed herror => ?_⟩
      cases herror
      have hcount := count.toNat_lt
      unfold sectorSize
      omega
  | @moved disk found session _ known fits hc run =>
      obtain ⟨trace, hmoved, hruns⟩ := BusM.moveChunks_eq_ok run
      refine ⟨fun controller => ?_, fun len needed herror => absurd herror (hmoved.ne_badBuffer len needed)⟩
      by_cases hi : controller = disk.controller
      · subst hi
        have hbytes := hmoved.bytesMoved_le
        rw [Chunks.sectorTotal_toList] at hbytes
        refine ⟨trace, ?_, hbytes.trans fits⟩
        rw [Ide.worked_cycles_self, hruns.cycles, Ide.opened_cycles, List.nil_append]
      · exact Ide.moved_of_same (Ide.worked_cycles_of_ne ide found session hi)

theorem Request.keeps {request : Request} {after : Buffer} {result : Except AtaError Unit}
    (h : request.perform ide = .ok ((result, after), ide')) : ide.KeepsTo ide' request.buffer.size result := by
  obtain ⟨index, lba, count, payload⟩ := request
  cases payload with
  | read before =>
      obtain ⟨_, htransfer, _⟩ := IdeM.readSectors_eq_ok h
      exact htransfer.keeps
  | write before =>
      obtain ⟨_, htransfer⟩ := IdeM.writeSectors_eq_ok (writeSectors_of_perform h).1
      exact htransfer.keeps

namespace Volume

variable {volume : Volume} {lba : UInt32} {buffer after : Buffer} {result : Except AtaError Unit}

theorem keeps_readBlocks (hsize : buffer.size < 2 ^ 63)
    (h : volume.readBlocks lba buffer ide = .ok ((result, after), ide')) : ide.KeepsTo ide' buffer.size result := by
  unfold readBlocks at h
  cases hcount : blocksIn buffer.size with
  | error error =>
      rw [hcount] at h
      cases h
      exact keeps_of_blocksIn hcount hsize
  | ok count =>
      rw [hcount] at h
      obtain ⟨_, htransfer, _⟩ := IdeM.readSectors_eq_ok h
      exact htransfer.keeps

theorem keeps_writeBlocks (hsize : buffer.size < 2 ^ 63)
    (h : volume.writeBlocks lba buffer ide = .ok (result, ide')) : ide.KeepsTo ide' buffer.size result := by
  unfold writeBlocks at h
  cases hcount : blocksIn buffer.size with
  | error error =>
      rw [hcount] at h
      cases h
      exact keeps_of_blocksIn hcount hsize
  | ok count =>
      rw [hcount] at h
      obtain ⟨_, htransfer⟩ := IdeM.writeSectors_eq_ok h
      exact htransfer.keeps

end Volume

/-- The size of the buffer that a step is given. -/
def Step.room? : Step δ → Option Nat
  | .transfer request => some request.buffer.size
  | .readBlocks _ _ buffer => some buffer.size
  | .writeBlocks _ _ buffer => some buffer.size
  | _ => none

/-- A step that is given a buffer keeps to it, if there is such a volume at all. -/
theorem Step.keeps {step : Step δ} {room : Nat} {answer : Answer} (hroom : step.room? = some room)
    (hsize : room < 2 ^ 63) (h : step.perform ide = .ok (answer, ide')) :
    (answer = .absent ∧ ide' = ide) ∨ ∃ result buffer, answer = .moved result buffer ∧ ide.KeepsTo ide' room result := by
  cases step with
  | transfer request =>
      cases hroom
      obtain ⟨⟨_, _⟩, _, hperform, h⟩ := Program.bind_eq_ok.mp h
      cases h
      exact .inr ⟨_, _, rfl, Request.keeps hperform⟩
  | readBlocks index lba before =>
      cases hroom
      rcases onVolume_eq_ok h with habsent | ⟨volume, h⟩
      · exact .inl habsent
      · obtain ⟨⟨_, _⟩, _, hread, h⟩ := Program.bind_eq_ok.mp h
        cases h
        exact .inr ⟨_, _, rfl, Volume.keeps_readBlocks hsize hread⟩
  | writeBlocks index lba before =>
      cases hroom
      rcases onVolume_eq_ok h with habsent | ⟨volume, h⟩
      · exact .inl habsent
      · obtain ⟨_, _, hwrite, h⟩ := Program.bind_eq_ok.mp h
        cases h
        exact .inr ⟨_, _, rfl, Volume.keeps_writeBlocks hsize hwrite⟩
  | _ => cases hroom

end PolledAta
