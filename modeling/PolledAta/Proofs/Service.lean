import PolledAta.Emulator.Channel
import PolledAta.Proofs.Chunk
import PolledAta.Proofs.Drive
import PolledAta.Proofs.TaskFile

/-!
# What a drive makes of a request

A drive serves the chunks of a request in order, up to the first one that does not lie on it.
-/

namespace PolledAta.Emulator

/-! ## Serving chunks -/

variable {drive : Drive} {chunk : Chunk} {list : List Chunk} {offset : Nat} {payload : Payload}

/-- How serving ends: the drive and the caller's buffer, and whether all chunks were served. -/
structure Service where
  drive : Drive
  payload : Payload
  served : Bool

namespace Service

/-- The status of a command that was refused. -/
def refusal : UInt8 := Status.ready ||| Status.error

def result (service : Service) : Except AtaError Unit :=
  if service.served then .ok () else .error (.device refusal)

def phase (service : Service) : Phase := if service.served then .idle else .failed

end Service

/-- A range of sectors, with its addresses cut to 28 bits, lies on a drive of so many sectors. Where the drive has every
sector that 28 bits can name, a range that starts at a multiple of a full chunk may go round. -/
def InReach (sectors : Nat) (lba count : UInt32) : Prop :=
  count = 0 ∨ lba.toNat % 2 ^ 28 + count.toNat ≤ sectors ∨ sectors = 2 ^ 28 ∧ 256 ∣ lba.toNat

theorem inReach_of_le {sectors : Nat} {lba count : UInt32} (hin : lba.toNat + count.toNat ≤ sectors) :
    InReach sectors lba count :=
  .inr (.inl ((Nat.add_le_add_right (Nat.mod_le ..) _).trans hin))

theorem inReach_iff {sectors : Nat} (hS : sectors ≤ 2 ^ 28) {lba count : UInt32} (hc : count ≠ 0)
    (h : lba.toNat + count.toNat ≤ 2 ^ 28) : InReach sectors lba count ↔ lba.toNat + count.toNat ≤ sectors := by
  have hne : count.toNat ≠ 0 := fun h0 => hc (UInt32.toNat_inj.mp h0)
  rw [InReach, or_iff_right hc]
  omega

namespace Drive

/-- The sectors of the chunk, at the address that is sent, lie on the drive. -/
def Reaches (drive : Drive) (chunk : Chunk) : Prop :=
  chunk.sentLba + chunk.sectors.toNat ≤ drive.sectorCount

theorem reaches_mk {lba sectors : UInt32} :
    drive.Reaches ⟨lba, sectors⟩ ↔ sentAddress lba 0 + sectors.toNat ≤ drive.sectorCount := .rfl

instance : Decidable (drive.Reaches chunk) := inferInstanceAs (Decidable (_ ≤ _))

def serveChunk (drive : Drive) (chunk : Chunk) (offset : Nat) : Payload → Drive × Payload
  | .read buffer => (drive, .read (buffer.copy offset drive.image (chunk.sentLba * sectorSize)
      (chunk.sectors.toNat * sectorSize)))
  | .write buffer => (drive.written chunk.sentLba buffer offset chunk.sectors.toNat, .write buffer)

def serve (drive : Drive) : List Chunk → (offset : Nat) → Payload → Service
  | [], _, payload => ⟨drive, payload, true⟩
  | chunk :: list, offset, payload =>
    if drive.Reaches chunk then
      let (drive, payload) := drive.serveChunk chunk offset payload
      drive.serve list (offset + chunk.sectors.toNat * sectorSize) payload
    else ⟨drive, payload, false⟩

theorem serve_of_reaches (h : drive.Reaches chunk) :
    drive.serve (chunk :: list) offset payload = (drive.serveChunk chunk offset payload).1.serve list
      (offset + chunk.sectors.toNat * sectorSize) (drive.serveChunk chunk offset payload).2 := by
  rw [serve, if_pos h]

theorem serve_of_not_reaches (h : ¬drive.Reaches chunk) :
    drive.serve (chunk :: list) offset payload = ⟨drive, payload, false⟩ := by
  rw [serve, if_neg h]

@[simp]
theorem sectorCount_serveChunk : (drive.serveChunk chunk offset payload).1.sectorCount = drive.sectorCount := by
  cases payload with
  | read buffer => rfl
  | write buffer => exact sectorCount_written ..

theorem reaches_serveChunk {next : Chunk} :
    (drive.serveChunk chunk offset payload).1.Reaches next ↔ drive.Reaches next := by
  rw [Reaches, Reaches, sectorCount_serveChunk]

@[simp]
theorem size_serveChunk :
    (drive.serveChunk chunk offset payload).2.buffer.size = payload.buffer.size := by
  cases payload with
  | read buffer => exact Buffer.size_copy ..
  | write buffer => rfl

@[simp]
theorem sectorCount_serve : (drive.serve list offset payload).drive.sectorCount = drive.sectorCount := by
  induction list generalizing drive offset payload with
  | nil => rfl
  | cons chunk list ih =>
      by_cases h : drive.Reaches chunk
      · rw [serve_of_reaches h, ih, sectorCount_serveChunk]
      · rw [serve_of_not_reaches h]

theorem served_serve :
    (drive.serve list offset payload).served = true ↔ ∀ chunk ∈ list, drive.Reaches chunk := by
  induction list generalizing drive offset payload with
  | nil => simp [serve]
  | cons chunk list ih =>
      rw [List.forall_mem_cons]
      by_cases h : drive.Reaches chunk
      · rw [serve_of_reaches h, ih]
        simp only [h, true_and, reaches_serveChunk]
      · rw [serve_of_not_reaches h]
        simp [h]

/-! ## Ranges -/

theorem reaches_toList_iff (hS : drive.sectorCount ≤ 2 ^ 28) (lba count : UInt32) :
    (∀ chunk ∈ (chunks lba count).toList, drive.Reaches chunk) ↔ InReach drive.sectorCount lba count := by
  have hrange : ∀ rest : Chunks, (∀ chunk ∈ rest.toList, drive.Reaches chunk) ↔
      InReach drive.sectorCount rest.next rest.remaining := by
    intro rest
    induction rest using Chunks.induction with
    | nil rest h =>
        rw [Chunks.toList_eq_nil h]
        simp [InReach, h]
    | cons rest h ih =>
        have hzero : ∀ m : UInt32, m = 0 ↔ m.toNat = 0 := fun m => UInt32.toNat_inj.symm
        have hne := Chunks.toNat_remaining_ne_zero h
        rw [Chunks.toList_eq_cons h, List.forall_mem_cons, ih, reaches_mk, InReach, InReach, hzero, hzero,
          Chunks.toNat_remaining_sub, UInt32.toNat_add, Chunks.toNat_sectors, sentAddress]
        -- a chunk on the drive that is not the last one ends below `2 ^ 28`, or ends there and the rest starts at 0
        omega
  exact hrange _

theorem reaches_toList_of_le (hS : drive.sectorCount ≤ 2 ^ 28) {lba count : UInt32}
    (hin : lba.toNat + count.toNat ≤ drive.sectorCount) :
    ∀ chunk ∈ (chunks lba count).toList, drive.Reaches chunk := by
  rw [reaches_toList_iff hS]
  exact inReach_of_le hin

theorem filled_chunk (hS : drive.sectorCount ≤ 2 ^ 28) {lba sectors : UInt32} {buffer : Buffer}
    (hr : drive.Reaches ⟨lba, sectors⟩) (hb : offset + sectors.toNat * sectorSize ≤ buffer.size) :
    buffer.Filled offset sectors.toNat (fun i => drive.sector? (sentAddress lba i))
      (buffer.copy offset drive.image (sentAddress lba 0 * sectorSize) (sectors.toNat * sectorSize)) := by
  rw [reaches_mk] at hr
  have hs : sentAddress lba 0 * sectorSize + sectors.toNat * sectorSize ≤ drive.image.size := by
    rw [← Nat.add_mul]
    exact le_sectorCount_iff.mp hr
  refine (Buffer.filled_copy hs hb).congr fun i hi => ?_
  have haddress : sentAddress lba i = sentAddress lba 0 + i := sentAddress_eq_add (by omega)
  rw [haddress, sector?, Nat.add_mul]

theorem serve_read (hS : drive.sectorCount ≤ 2 ^ 28) (rest : Chunks) {buffer : Buffer}
    (hb : offset + rest.remaining.toNat * sectorSize ≤ buffer.size)
    (hr : ∀ chunk ∈ rest.toList, drive.Reaches chunk) :
    ∃ after, drive.serve rest.toList offset (.read buffer) = ⟨drive, .read after, true⟩ ∧
      buffer.Filled offset rest.remaining.toNat (fun i => drive.sector? (sentAddress rest.next i)) after := by
  induction rest using Chunks.induction generalizing offset buffer with
  | nil rest h =>
      rw [Chunks.toList_eq_nil h, h]
      exact ⟨buffer, rfl, .none ..⟩
  | cons rest h ih =>
      rw [Chunks.toList_eq_cons h] at hr ⊢
      obtain ⟨hreach, hr⟩ := List.forall_mem_cons.mp hr
      rw [rest.toNat_remaining, Nat.add_mul] at hb
      have hfirst := filled_chunk hS hreach (by omega : offset + rest.sectors.toNat * sectorSize ≤ buffer.size)
      obtain ⟨after, hserve, hrest⟩ := ih (by rw [hfirst.size]; exact (Nat.add_assoc ..).trans_le hb) hr
      refine ⟨after, (serve_of_reaches hreach).trans hserve, ?_⟩
      rw [rest.toNat_remaining]
      refine hfirst.trans ?_
      simpa only [sentAddress_add] using hrest

theorem overwritten_chunk (hS : drive.sectorCount ≤ 2 ^ 28) {lba sectors : UInt32} {buffer : Buffer}
    (hr : drive.Reaches ⟨lba, sectors⟩) (hb : offset + sectors.toNat * sectorSize ≤ buffer.size) :
    Overwritten drive.sector? (sentAddress lba) sectors.toNat (fun i => buffer.sector? (offset + i * sectorSize))
      (drive.written (sentAddress lba 0) buffer offset sectors.toNat).sector? := by
  rw [reaches_mk] at hr
  have haddress : ∀ i < sectors.toNat, sentAddress lba i = sentAddress lba 0 + i :=
    fun i hi => sentAddress_eq_add (by omega)
  refine ⟨fun i hi _ => ?_, fun n hn => sector?_written_outside hb ?_⟩
  · rw [haddress i hi]
    exact sector?_written_inside hi hb hr
  · by_contra hinside
    have hi : n - sentAddress lba 0 < sectors.toNat := by omega
    exact hn _ hi (by rw [haddress _ hi]; omega)

theorem serve_write (hS : drive.sectorCount ≤ 2 ^ 28) (rest : Chunks) {buffer : Buffer}
    (hb : offset + rest.remaining.toNat * sectorSize ≤ buffer.size)
    (hr : ∀ chunk ∈ rest.toList, drive.Reaches chunk) :
    ∃ drive', drive.serve rest.toList offset (.write buffer) = ⟨drive', .write buffer, true⟩ ∧
      Overwritten drive.sector? (sentAddress rest.next) rest.remaining.toNat
        (fun i => buffer.sector? (offset + i * sectorSize)) drive'.sector? := by
  induction rest using Chunks.induction generalizing drive offset with
  | nil rest h =>
      rw [Chunks.toList_eq_nil h, h]
      exact ⟨drive, rfl, .none ..⟩
  | cons rest h ih =>
      rw [Chunks.toList_eq_cons h] at hr ⊢
      obtain ⟨hreach, hr⟩ := List.forall_mem_cons.mp hr
      rw [rest.toNat_remaining, Nat.add_mul] at hb
      have hfirst := overwritten_chunk hS hreach (by omega : offset + rest.sectors.toNat * sectorSize ≤ buffer.size)
      have hcount : (drive.written (sentAddress rest.next 0) buffer offset rest.sectors.toNat).sectorCount =
          drive.sectorCount := sectorCount_written ..
      obtain ⟨drive', hserve, hrest⟩ := ih (hcount.trans_le hS) ((Nat.add_assoc ..).trans_le hb)
        fun chunk hc => Nat.le_trans (hr chunk hc) hcount.ge
      refine ⟨drive', (serve_of_reaches hreach).trans hserve, ?_⟩
      rw [rest.toNat_remaining]
      refine hfirst.trans ?_
      have haddress : sentAddress (rest.next + rest.sectors) =
          fun i => sentAddress rest.next (rest.sectors.toNat + i) := funext (sentAddress_add _ _)
      simpa only [haddress, Nat.add_mul, Nat.add_assoc] using hrest

end Drive

end PolledAta.Emulator
