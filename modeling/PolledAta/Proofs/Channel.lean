import PolledAta.Emulator.Channel
import PolledAta.Ide.Transfer
import PolledAta.Proofs.Drive
import PolledAta.Proofs.Leads

/-!
# A channel without faults

How waits end, and how the words of sectors cross the bus, on a channel with a drive in the selected slot.
-/

namespace PolledAta.Emulator

theorem Faults.eq_none {faults : Faults} (h : faults.statusOverride = .none ∧ faults.withholdRequest = false ∧
    faults.failCommands = false ∧ faults.script = []) : faults = .none := by
  obtain ⟨statusOverride, withholdRequest, failCommands, script⟩ := faults
  obtain ⟨rfl, rfl, rfl, rfl⟩ := h
  rfl

namespace Channel

open BusM

variable {channel : Channel} {drive : Drive} {phase : Phase} (timeoutMs : UInt32)

/-! ## Phases -/

def inPhase (channel : Channel) (phase : Phase) : Channel := { channel with phase }

theorem inPhase_self (h : channel.phase = phase) : channel.inPhase phase = channel := by
  cases h
  rfl

theorem selected_inPhase (channel : Channel) (phase : Phase) :
    (channel.inPhase phase).selected = channel.selected := rfl

/-- The status that a drive shows in each phase. -/
def shown : Phase → UInt8
  | .idle => Status.ready
  | .failed => Status.ready ||| Status.error
  | .sending _ | .receiving .. => Status.ready ||| Status.dataRequest

theorem status_eq (hf : channel.faults = .none) (hd : channel.selected = some drive) :
    channel.status = shown channel.phase := by
  unfold status
  rw [hf, hd]
  cases channel.phase <;> rfl

theorem status_eq_zero (hf : channel.faults = .none) (hd : channel.selected = none) : channel.status = 0 := by
  unfold status
  rw [hf, hd]
  rfl

theorem execute_eq (hf : channel.faults = .none) (hd : channel.selected = some drive) (command : UInt8) :
    channel.execute command = channel.inPhase (accept drive channel.taskFile command) := by
  unfold execute
  rw [hd]
  exact if_neg (by rw [hf]; decide)

theorem leads_execute (hf : channel.faults = .none) (hd : channel.selected = some drive) (command : UInt8) :
    (write .command command).Leads channel () (channel.inPhase (accept drive channel.taskFile command)) := by
  rw [← execute_eq hf hd]
  exact leads_write ..

/-! ## Waits -/

theorem read_status_of_unscripted (h : channel.faults.script = []) :
    Bank.read channel .status = (channel.status, channel) := by
  show readRegister channel .status = _
  simp only [readRegister, h]

theorem read_status (hf : channel.faults = .none) : Bank.read channel .status = (channel.status, channel) :=
  read_status_of_unscripted (by rw [hf, Faults.none])

/-- Without faults no status is pending, so the first sample of a wait decides. -/
theorem leads_await (hf : channel.faults = .none) {bits : UInt8}
    (hj : Status.judge channel.status bits ≠ .pending) :
    (awaitStatus bits timeoutMs).Leads channel ((Status.judge channel.status bits).outcome channel.status) channel :=
  leads_awaitStatus rfl (read_status hf) hj

theorem leads_await_inPhase (hf : channel.faults = .none) (hd : channel.selected = some drive) {bits : UInt8}
    (hj : Status.judge (shown phase) bits ≠ .pending) :
    (awaitStatus bits timeoutMs).Leads (channel.inPhase phase)
      ((Status.judge (shown phase) bits).outcome (shown phase)) (channel.inPhase phase) := by
  have hf : (channel.inPhase phase).faults = .none := hf
  have hs : (channel.inPhase phase).status = shown phase :=
    status_eq hf ((selected_inPhase channel phase).trans hd)
  rw [← hs] at hj ⊢
  exact leads_await timeoutMs hf hj

theorem leads_await_data (hf : channel.faults = .none) (hd : channel.selected = some drive)
    (hp : shown phase = Status.ready ||| Status.dataRequest) :
    (awaitStatus Status.dataRequest timeoutMs).Leads (channel.inPhase phase) (.ok (shown phase))
      (channel.inPhase phase) := by
  have hj : Status.judge (shown phase) Status.dataRequest = .done := by
    rw [hp]
    decide
  have hpending : Status.judge (shown phase) Status.dataRequest ≠ .pending := by
    rw [hj]
    decide
  have hawait : (awaitStatus _ timeoutMs).Leads _ _ _ := leads_await_inPhase timeoutMs hf hd hpending
  rwa [hj] at hawait

/-! ## Reading words -/

def sendingPhase (words : List UInt16) : Phase := if words.isEmpty then .idle else .sending words

theorem sendingPhase_of_ne_nil {words : List UInt16} (h : words ≠ []) : sendingPhase words = .sending words := by
  cases words with
  | nil => exact absurd rfl h
  | cons word words => rfl

theorem shown_sendingPhase {words : List UInt16} (h : words ≠ []) :
    shown (sendingPhase words) = Status.ready ||| Status.dataRequest := by
  rw [sendingPhase_of_ne_nil h]
  rfl

theorem leads_readWords (channel : Channel) {n : Nat} (words : Vector UInt16 n) (rest : List UInt16) :
    (readWords n).Leads (channel.inPhase (sendingPhase (words.toList ++ rest))) words
      (channel.inPhase (sendingPhase rest)) := by
  induction n generalizing rest with
  | zero =>
      obtain rfl : words = #v[] := Vector.eq_empty
      exact leads_pure _ _
  | succ n ih =>
      obtain ⟨front, last, rfl⟩ : ∃ (front : Vector UInt16 n) (last : UInt16), words = front.push last :=
        ⟨words.pop, words.back, (Vector.push_pop_back words).symm⟩
      rw [Vector.toList_push, List.append_assoc]
      refine (ih front (last :: rest)).bind ?_
      have hlast : Bank.readData (channel.inPhase (sendingPhase (last :: rest))) =
          (some last, channel.inPhase (sendingPhase rest)) := rfl
      exact (leads_readData hlast).bind (leads_pure _ _)

theorem leads_readSector (channel : Channel) (sector : Sector) (rest : List UInt16) :
    readSector.Leads (channel.inPhase (sendingPhase (sector.words.toList ++ rest))) sector
      (channel.inPhase (sendingPhase rest)) := by
  unfold readSector
  refine (leads_readWords channel sector.words rest).bind ?_
  show TimedBusM.Leads (pure (Sector.ofWords sector.words)) _ sector _
  rw [Sector.ofWords_words]
  exact leads_pure _ _

theorem leads_fillSector {start offset : Nat} {buffer source : Buffer} {sector : Sector}
    (hb : offset + sectorSize ≤ buffer.size) (hs : source.sector? start = some sector) (rest : List UInt16) :
    (moveSector offset (.read buffer)).Leads (channel.inPhase (sendingPhase (sector.words.toList ++ rest)))
      (.read (buffer.copy offset source start sectorSize)) (channel.inPhase (sendingPhase rest)) := by
  have hfill : (fillSector buffer offset).Leads (channel.inPhase (sendingPhase (sector.words.toList ++ rest)))
      (buffer.put offset sector.toList) (channel.inPhase (sendingPhase rest)) := by
    rw [fillSector, if_pos hb]
    exact (leads_readSector channel sector rest).bind (leads_pure _ _)
  rw [← Buffer.put_sector hs]
  exact hfill.bind (leads_pure _ _)

theorem leads_fillSectors (hf : channel.faults = .none) (hd : channel.selected = some drive) {count lba offset : Nat}
    {buffer : Buffer} (hb : offset + count * sectorSize ≤ buffer.size) (hl : lba + count ≤ drive.sectorCount) :
    (moveSectors timeoutMs count offset (.read buffer)).Leads
      (channel.inPhase (sendingPhase (drive.words lba count)))
      (.ok (), .read (buffer.copy offset drive.image (lba * sectorSize) (count * sectorSize)))
      (channel.inPhase .idle) := by
  induction count generalizing lba offset buffer with
  | zero =>
      rw [Nat.zero_mul, Buffer.copy_zero]
      exact leads_pure _ _
  | succ count ih =>
      have hl₀ : lba < drive.sectorCount := by omega
      have hl₁ : lba + 1 + count ≤ drive.sectorCount := by omega
      obtain ⟨sector, hs⟩ := Drive.exists_sector? hl₀
      rw [Nat.add_mul, Nat.one_mul] at hb
      have hb₀ : offset + sectorSize ≤ buffer.size := by omega
      have hb₁ : offset + sectorSize + count * sectorSize ≤
          (buffer.copy offset drive.image (lba * sectorSize) sectorSize).size := by
        rw [Buffer.size_copy]
        omega
      have hstart : lba * sectorSize + sectorSize ≤ drive.image.size := by
        have hend := Drive.le_sectorCount_iff.mp (show lba + 1 ≤ drive.sectorCount from hl₀)
        rwa [Nat.add_mul, Nat.one_mul] at hend
      have hwords := List.append_ne_nil_of_left_ne_nil sector.words_ne_nil (drive.words (lba + 1) count)
      rw [Drive.words_succ hs]
      refine (leads_await_data timeoutMs hf hd (shown_sendingPhase hwords)).bind ?_
      refine (leads_fillSector hb₀ hs (drive.words (lba + 1) count)).bind ?_
      have hrest := ih hb₁ hl₁
      rwa [Nat.add_mul, Nat.one_mul, Buffer.copy_copy hstart, Nat.add_comm sectorSize,
        ← Nat.add_one_mul] at hrest

/-! ## Writing words -/

/-- The channel once it has taken `bytes` of a write: it stores them when they are all there. -/
def collect (channel : Channel) (lba count : Nat) (bytes : Buffer) : Channel :=
  if bytes.size < count * sectorSize then channel.inPhase (.receiving lba count bytes)
  else (channel.inPhase .idle).store lba bytes

theorem writeData_collect {lba count : Nat} {bytes : Buffer} (h : bytes.size < count * sectorSize) (word : UInt16) :
    Bank.writeData (channel.collect lba count bytes) word =
      channel.collect lba count ((bytes.push (Word.low word)).push (Word.high word)) := by
  rw [collect, if_pos h]
  rfl

theorem append_wordBytes_cons (bytes : Buffer) (word : UInt16) (words : List UInt16) :
    bytes ++ (wordBytes (word :: words)).toArray =
      (bytes.push (Word.low word)).push (Word.high word) ++ (wordBytes words).toArray := by
  refine Array.toList_inj.mp ?_
  simp

theorem leads_writeWords {lba count : Nat} (words : List UInt16) {bytes : Buffer}
    (h : bytes.size + 2 * words.length ≤ count * sectorSize) :
    (writeWords words).Leads (channel.collect lba count bytes) ()
      (channel.collect lba count (bytes ++ (wordBytes words).toArray)) := by
  induction words generalizing bytes with
  | nil =>
      rw [wordBytes, List.flatMap_nil, Array.append_empty]
      exact leads_pure _ _
  | cons word words ih =>
      rw [List.length_cons] at h
      have hmore : bytes.size < count * sectorSize := by omega
      rw [append_wordBytes_cons]
      refine (writeData_collect hmore word ▸ leads_writeData word _).bind ?_
      exact ih (by simp only [Array.size_push]; omega)

theorem leads_sendSector {lba count offset : Nat} {bytes buffer : Buffer}
    (h : bytes.size + sectorSize ≤ count * sectorSize) (hb : offset + sectorSize ≤ buffer.size) :
    (moveSector offset (.write buffer)).Leads (channel.collect lba count bytes) (.write buffer)
      (channel.collect lba count (bytes ++ buffer.extract offset (offset + sectorSize))) := by
  obtain ⟨sector, hs⟩ := Buffer.exists_sector? hb
  have hwords : bytes.size + 2 * sector.words.toList.length ≤ count * sectorSize := by
    rw [Vector.length_toList]
    exact h
  have hsend : (sendSector buffer offset).Leads (channel.collect lba count bytes) ()
      (channel.collect lba count (bytes ++ buffer.extract offset (offset + sectorSize))) := by
    rw [sendSector, hs, Buffer.extract_of_sector? hs, ← Vector.toArray_toList, ← Sector.wordBytes_words]
    exact leads_writeWords sector.words.toList hwords
  exact hsend.bind (leads_pure _ _)

theorem leads_sendSectors (hf : channel.faults = .none) (hd : channel.selected = some drive)
    {lba count more offset : Nat} {bytes buffer : Buffer} (hn : bytes.size + more * sectorSize = count * sectorSize)
    (hb : offset + more * sectorSize ≤ buffer.size) :
    (moveSectors timeoutMs more offset (.write buffer)).Leads (channel.collect lba count bytes)
      (.ok (), .write buffer)
      (channel.collect lba count (bytes ++ buffer.extract offset (offset + more * sectorSize))) := by
  induction more generalizing offset bytes with
  | zero =>
      rw [Buffer.extract_no_sectors]
      exact leads_pure _ _
  | succ more ih =>
      rw [Nat.add_mul, Nat.one_mul] at hn hb
      have hpos : 0 < sectorSize := by decide
      have hmore : bytes.size < count * sectorSize := by omega
      have hb₀ : offset + sectorSize ≤ buffer.size := by omega
      have hwait : (awaitStatus Status.dataRequest timeoutMs).Leads (channel.collect lba count bytes)
          (.ok (Status.ready ||| Status.dataRequest)) (channel.collect lba count bytes) := by
        rw [collect, if_pos hmore]
        exact leads_await_data timeoutMs hf hd rfl
      have hsize := Buffer.size_append_sector bytes hb₀
      have hn₁ : (bytes ++ buffer.extract offset (offset + sectorSize)).size + more * sectorSize =
          count * sectorSize := by omega
      have hb₁ : offset + sectorSize + more * sectorSize ≤ buffer.size := by omega
      refine hwait.bind ?_
      -- the last sector of all is stored on its way, and `collect` holds that case too
      refine (leads_sendSector (by omega) hb₀).bind ?_
      rw [Buffer.extract_succ_sectors]
      exact ih hn₁ hb₁

end Channel

end PolledAta.Emulator
