import PolledAta.Proofs.Protocol
import PolledAta.Proofs.Registry
import PolledAta.Proofs.Scripts

/-!
# Where the data goes

Each wait for the data request that succeeds is followed by the words of one sector. The words that cross the bus lie in
the buffer in their order, each with its low byte first, whatever ends the request.
-/

namespace PolledAta

/-! ## Bytes in a buffer -/

theorem getElem?_wordBytes (words : List UInt16) (i : Nat) :
    (wordBytes words)[2 * i]? = words[i]?.map Word.low ∧ (wordBytes words)[2 * i + 1]? = words[i]?.map Word.high := by
  induction words generalizing i with
  | nil => simp [wordBytes]
  | cons word words ih =>
      cases i with
      | zero => simp
      | succ i => simpa [Nat.mul_add] using ih i

@[simp]
theorem length_wordBytes (words : List UInt16) : (wordBytes words).length = 2 * words.length := by
  induction words with
  | nil => rfl
  | cons word words ih =>
      simp [ih]
      omega

theorem wordBytes_append (first second : List UInt16) : wordBytes (first ++ second) = wordBytes first ++ wordBytes second :=
  List.flatMap_append

theorem Sector.toList_ofWords (words : Vector UInt16 256) : (ofWords words).toList = wordBytes words.toList := by
  have hwords : (ofWords words).words = words := by
    refine Vector.ext fun i hi => ?_
    have hdiv : (2 * i + 1) / 2 = i := by omega
    rw [getElem_words _ hi]
    simp [ofWords, hdiv]
  rw [← wordBytes_words, hwords]

/-- The bytes stand in the buffer from `offset` on. -/
def Buffer.Holds (buffer : Buffer) (offset : Nat) (bytes : List UInt8) : Prop :=
  ∀ i < bytes.length, buffer[offset + i]? = bytes[i]?

namespace Buffer

variable {buffer after : Buffer} {offset : Nat} {first second bytes : List UInt8}

theorem Holds.append (h : buffer.Holds offset first) (h' : buffer.Holds (offset + first.length) second) :
    buffer.Holds offset (first ++ second) := by
  intro i hi
  rw [List.length_append] at hi
  by_cases hfirst : i < first.length
  · rw [List.getElem?_append_left hfirst, h i hfirst]
  · have hsecond := h' (i - first.length) (by omega)
    rw [List.getElem?_append_right (by omega), ← hsecond]
    congr 1
    omega

theorem Holds.congr (h : buffer.Holds offset bytes)
    (same : ∀ k < offset + bytes.length, after[k]? = buffer[k]?) : after.Holds offset bytes := by
  intro i hi
  rw [same _ (by omega), h i hi]

theorem holds_put (h : offset + bytes.length ≤ buffer.size) : (buffer.put offset bytes).Holds offset bytes := by
  intro i hi
  exact getElem?_put_of_mem _ _ hi (by omega)

/-- Bytes put elsewhere leave what is held alone. -/
theorem Holds.put (h : buffer.Holds offset bytes) {place : Nat} {other : List UInt8}
    (apart : offset + bytes.length ≤ place ∨ place + other.length ≤ offset) :
    (buffer.put place other).Holds offset bytes := by
  intro i hi
  rw [← h i hi]
  rcases apart with apart | apart
  · exact getElem?_put_of_lt _ _ (by omega)
  · exact getElem?_put_of_le _ _ (by omega)

theorem holds_sector {sector : Sector} (h : buffer.sector? offset = some sector) :
    buffer.Holds offset sector.toList := by
  intro i hi
  rw [Vector.length_toList] at hi
  rw [sector?_eq_some_iff.mp h i hi]
  simp [hi]

end Buffer

/-! ## Words on the bus -/

def wordsRead (trace : List Cycle) : List UInt16 :=
  trace.filterMap fun
    | .readData driven => some (dataLines driven)
    | _ => none

def wordsSent (trace : List Cycle) : List UInt16 :=
  trace.filterMap fun
    | .writeData word => some word
    | _ => none

theorem wordsRead_readData (driven : List (Option UInt16)) :
    wordsRead (driven.map .readData) = driven.map dataLines := by
  rw [wordsRead, List.filterMap_map]
  exact congrFun List.filterMap_eq_map driven

/-- The words that a transfer moves. -/
def Payload.words : Payload → List Cycle → List UInt16
  | .read _ => wordsRead
  | .write _ => wordsSent

def Payload.opposite : Payload → Payload
  | .read buffer => .write buffer
  | .write buffer => .read buffer

/-- No data crosses the bus. -/
def Dataless (trace : List Cycle) : Prop := ∀ payload : Payload, payload.words trace = []

namespace Payload

theorem words_append (payload : Payload) (first second : List Cycle) :
    payload.words (first ++ second) = payload.words first ++ payload.words second := by
  cases payload <;> exact List.filterMap_append

theorem Became.words_eq {payload payload' : Payload} (h : payload.Became payload') : payload'.words = payload.words := by
  cases h <;> rfl

theorem Became.opposite_words_eq {payload payload' : Payload} (h : payload.Became payload') :
    payload'.opposite.words = payload.opposite.words := by
  cases h <;> rfl

end Payload

theorem dataless_of_unmoved {trace : List Cycle}
    (h : ∀ cycle ∈ trace, (∀ driven, cycle ≠ .readData driven) ∧ ∀ word, cycle ≠ .writeData word) : Dataless trace := by
  intro payload
  cases payload with
  | read buffer =>
      refine List.filterMap_eq_nil_iff.mpr fun cycle hc => ?_
      cases cycle with
      | readData driven => exact absurd rfl ((h _ hc).1 driven)
      | _ => rfl
  | write buffer =>
      refine List.filterMap_eq_nil_iff.mpr fun cycle hc => ?_
      cases cycle with
      | writeData word => exact absurd rfl ((h _ hc).2 word)
      | _ => rfl

theorem Waited.dataless {bits : UInt8} {trace : List Cycle} {answer : Except AtaError UInt8}
    (h : Waited bits trace answer) : Dataless trace := by
  cases h with
  | intro settle pending last early =>
      apply dataless_of_unmoved
      intro cycle hc
      simp at hc
      rcases hc with rfl | ⟨_, _, rfl⟩ | rfl <;> exact ⟨nofun, nofun⟩

theorem dataless_selectCycles (slot : DriveSlot) (chunk : Chunk) : Dataless (selectCycles slot chunk) := by
  intro payload
  cases payload <;> rfl

/-! ## Waits that succeed -/

/-- A command has been given since a slot was selected. -/
def Cycle.commands (commanded : Bool) : Cycle → Bool
  | .write .command _ => true
  | .write .device _ => false
  | _ => commanded

def commanded (before : Bool) (trace : List Cycle) : Bool := trace.foldl Cycle.commands before

/-- A sample of the status that asks for data. -/
def Cycle.grants : Cycle → Bool
  | .read .status value => Status.judge value Status.dataRequest = .done
  | _ => false

/-- How often a device has asked for data after a command. The status is then sampled only to wait for that, and the
sample that asks for data is the last one of its wait. -/
def granted : (commanded : Bool) → List Cycle → Nat
  | _, [] => 0
  | commanded, cycle :: rest =>
    (if commanded && cycle.grants then 1 else 0) + granted (cycle.commands commanded) rest

theorem commanded_append (before : Bool) (first second : List Cycle) :
    commanded before (first ++ second) = commanded (commanded before first) second :=
  List.foldl_append

theorem granted_append (before : Bool) (first second : List Cycle) :
    granted before (first ++ second) = granted before first + granted (commanded before first) second := by
  induction first generalizing before with
  | nil => simp [granted, commanded]
  | cons cycle first ih =>
      rw [List.cons_append, granted, granted, ih, Nat.add_assoc]
      rfl

theorem Unwritten.commanded_eq {trace : List Cycle} (h : Unwritten trace) (before : Bool) :
    commanded before trace = before := by
  induction trace with
  | nil => rfl
  | cons cycle trace ih =>
      have hrest := ih fun reg value hw => h reg value (List.mem_cons_of_mem _ hw)
      cases cycle with
      | write reg value => exact absurd List.mem_cons_self (h reg value)
      | _ => exact hrest

/-- Before a command nothing is granted. -/
theorem Unwritten.granted_eq {trace : List Cycle} (h : Unwritten trace) : granted false trace = 0 := by
  induction trace with
  | nil => rfl
  | cons cycle trace ih =>
      have hrest := ih fun reg value hw => h reg value (List.mem_cons_of_mem _ hw)
      cases cycle with
      | write reg value => exact absurd List.mem_cons_self (h reg value)
      | _ => simpa [granted, Cycle.commands] using hrest

theorem granted_ungranting {trace : List Cycle} (h : ∀ cycle ∈ trace, cycle.grants = false) (before : Bool) :
    granted before trace = 0 := by
  induction trace generalizing before with
  | nil => rfl
  | cons cycle trace ih =>
      obtain ⟨hcycle, hrest⟩ := List.forall_mem_cons.mp h
      simp [granted, hcycle, ih hrest]

/-- A wait for the data request grants one sector if it succeeds. -/
theorem Waited.granted_eq {trace : List Cycle} {answer : Except AtaError UInt8}
    (h : Waited Status.dataRequest trace answer) : granted true trace = if answer.isOk then 1 else 0 := by
  cases h with
  | intro settle pending last early =>
      have hsettle : Cycle.grants (.read .altStatus settle) = false := rfl
      have hpending : ∀ cycle ∈ pending.map (Cycle.read .status), cycle.grants = false := by
        intro cycle hc
        obtain ⟨status, hs, rfl⟩ := List.mem_map.mp hc
        simp [Cycle.grants, early status hs]
      have hunwritten : Unwritten (.read .altStatus settle :: pending.map (Cycle.read .status)) := by
        intro reg value
        simp
      have hfront := granted_ungranting (List.forall_mem_cons.mpr ⟨hsettle, hpending⟩) true
      rw [granted_append, hfront, hunwritten.commanded_eq]
      cases hj : Status.judge last Status.dataRequest <;>
        simp [granted, Cycle.grants, hj, Status.Verdict.outcome, Except.isOk, Except.toBool]

/-! ## Sectors that are carried over -/

/-- The words of `count` sectors cross the bus in one direction only, and they are those in the buffer from `offset`
on. -/
structure Conveyed (offset count : Nat) (payload : Payload) (trace : List Cycle) (payload' : Payload) : Prop where
  became : payload.Became payload'
  length : (payload.words trace).length = 256 * count
  others : payload.opposite.words trace = []
  holds : payload'.buffer.Holds offset (wordBytes (payload.words trace))
  outside : ∀ k, k < offset ∨ offset + count * sectorSize ≤ k → payload'.buffer[k]? = payload.buffer[k]?

namespace Conveyed

variable {offset m n : Nat} {payload payload' payload'' : Payload} {trace first second : List Cycle}

theorem none (h : Dataless trace) : Conveyed offset 0 payload trace payload where
  became := .refl _
  length := by rw [h payload]; rfl
  others := h _
  holds := by rw [h payload]; exact fun i hi => absurd hi (Nat.not_lt_zero i)
  outside _ _ := rfl

theorem trans (h : Conveyed offset m payload first payload')
    (h' : Conveyed (offset + m * sectorSize) n payload' second payload'') :
    Conveyed offset (m + n) payload (first ++ second) payload'' := by
  obtain ⟨hbecame, hlength, hothers, hholds, houtside⟩ := h
  obtain ⟨hbecame', hlength', hothers', hholds', houtside'⟩ := h'
  rw [hbecame.words_eq] at hlength' hholds'
  rw [hbecame.opposite_words_eq] at hothers'
  have hbytes : (wordBytes (payload.words first)).length = m * sectorSize := by
    rw [length_wordBytes, hlength]
    unfold sectorSize
    omega
  refine ⟨hbecame.trans hbecame', ?_, ?_, ?_, fun k hk => ?_⟩
  · rw [Payload.words_append, List.length_append, hlength, hlength', Nat.mul_add]
  · rw [Payload.words_append, hothers, hothers', List.append_nil]
  · rw [Payload.words_append, wordBytes_append]
    -- what the first part left in the buffer lies before everything that the second part touches
    have hkept := hholds.congr fun k hk => houtside' k (.inl (by omega))
    exact hkept.append (by rw [hbytes]; exact hholds')
  · rw [Nat.add_mul] at hk
    rw [houtside' k (by omega), houtside k (by omega)]

theorem after_dataless (h : Dataless first) (h' : Conveyed offset n payload second payload') :
    Conveyed offset n payload (first ++ second) payload' := by
  have hnone : Conveyed offset 0 payload first payload := none h
  simpa using hnone.trans (by simpa using h')

end Conveyed

theorem SectorMoved.conveyed {offset : Nat} {payload payload' : Payload} {words : List Cycle}
    (h : SectorMoved offset payload words payload') : Conveyed offset 1 payload words payload' := by
  have hbecame := h.became
  cases h with
  | @filled buffer after driven inside stored =>
      have hwords : wordsRead (driven.toList.map .readData) = (driven.map dataLines).toList := by
        rw [wordsRead_readData, Vector.toList_map]
      have hbytes : (Sector.ofWords (driven.map dataLines)).toList.length = sectorSize := Vector.length_toList
      refine ⟨hbecame, ?_, ?_, ?_, fun k hk => ?_⟩
      · simp [Payload.words, hwords]
      · simp [Payload.opposite, Payload.words, wordsSent]
      · rw [Payload.words, hwords, ← Sector.toList_ofWords, Payload.buffer, stored]
        exact Buffer.holds_put (by rwa [hbytes])
      · rw [Payload.buffer, Payload.buffer, stored]
        rcases hk with hk | hk
        · exact Buffer.getElem?_put_of_lt _ _ hk
        · exact Buffer.getElem?_put_of_le _ _ (by rw [hbytes]; omega)
  | @sent buffer sector held =>
      have hwords : wordsSent (sector.words.toList.map .writeData) = sector.words.toList := by
        rw [wordsSent, List.filterMap_map]
        exact List.filterMap_some
      refine ⟨hbecame, ?_, ?_, ?_, fun _ _ => rfl⟩
      · simp [Payload.words, hwords]
      · simp [Payload.opposite, Payload.words, wordsRead]
      · rw [Payload.words, hwords, Sector.wordBytes_words]
        exact Buffer.holds_sector held

theorem SectorMoved.granted_eq {offset : Nat} {payload payload' : Payload} {words : List Cycle}
    (h : SectorMoved offset payload words payload') : granted true words = 0 := by
  apply granted_ungranting
  intro cycle hc
  cases h with
  | filled driven =>
      obtain ⟨_, _, rfl⟩ := List.mem_map.mp hc
      rfl
  | sent sector =>
      obtain ⟨_, _, rfl⟩ := List.mem_map.mp hc
      rfl

/-- Under one command, the sectors that are granted are carried over. -/
theorem SectorsMoved.conveyed {count offset : Nat} {payload payload' : Payload} {trace : List Cycle}
    {result : Except AtaError Unit} (h : SectorsMoved count offset payload trace result payload') :
    Conveyed offset (granted true trace) payload trace payload' ∧ (result = .ok () → granted true trace = count) := by
  induction h with
  | finished => exact ⟨.none fun payload => by cases payload <;> rfl, fun _ => rfl⟩
  | cutOff wait =>
      rw [wait.granted_eq]
      exact ⟨.none wait.dataless, nofun⟩
  | @moved count offset payload payload' payload'' trace words rest status result wait sector others ih =>
      obtain ⟨hrest, hall⟩ := ih
      have hgranted : granted true (trace ++ words ++ rest) = 1 + granted true rest := by
        rw [granted_append, granted_append, commanded_append, wait.unwritten.commanded_eq,
          sector.unwritten.commanded_eq, wait.granted_eq, sector.granted_eq]
        rfl
      have hfirst := Conveyed.after_dataless wait.dataless sector.conveyed
      rw [hgranted]
      exact ⟨hfirst.trans (by rwa [Nat.one_mul]), fun hok => by rw [hall hok, Nat.add_comm]⟩

theorem granted_selectCycles (slot : DriveSlot) (chunk : Chunk) (before : Bool) :
    granted before (selectCycles slot chunk) = 0 ∧ commanded before (selectCycles slot chunk) = false := by
  cases before <;> exact ⟨rfl, rfl⟩

/-- The cycles of one command and its sectors, up to where they end. -/
theorem conveyed_chunk {slot : DriveSlot} {chunk : Chunk} {command : UInt8} {offset : Nat} {payload payload' : Payload}
    {waits sectors : List Cycle} {answer : Except AtaError UInt8} {result : Except AtaError Unit}
    (wait : Waited Status.ready waits answer)
    (moved : SectorsMoved chunk.sectors.toNat offset payload sectors result payload') (before : Bool) :
    let trace := selectCycles slot chunk ++ waits ++ [.write .command command] ++ sectors
    Conveyed offset (granted before trace) payload trace payload' ∧ granted before trace = granted true sectors ∧
      commanded before trace = true := by
  have hselect := granted_selectCycles slot chunk before
  have hcommand : Dataless [.write .command command] := fun payload => by cases payload <;> rfl
  have hgranted : granted before (selectCycles slot chunk ++ waits ++ [.write .command command] ++ sectors) =
      granted true sectors := by
    simp only [granted_append, commanded_append, hselect, wait.unwritten.commanded_eq, wait.unwritten.granted_eq]
    simp [granted, commanded, Cycle.commands]
  refine ⟨?_, hgranted, ?_⟩
  · rw [hgranted, List.append_assoc, List.append_assoc]
    exact .after_dataless (dataless_selectCycles slot chunk)
      (.after_dataless wait.dataless (.after_dataless hcommand moved.conveyed.1))
  · simp only [commanded_append, hselect, wait.unwritten.commanded_eq, moved.unwritten.commanded_eq]
    rfl

/-- The sectors that are granted are carried over, whatever ends the transfer. -/
theorem ChunksMoved.conveyed {slot : DriveSlot} {chunks : List Chunk} {offset : Nat} {payload payload' : Payload}
    {trace : List Cycle} {result : Except AtaError Unit}
    (h : ChunksMoved slot chunks offset payload trace result payload') (before : Bool) :
    Conveyed offset (granted before trace) payload trace payload' ∧
      (result = .ok () → granted before trace = sectorTotal chunks) := by
  induction h generalizing before with
  | finished => exact ⟨.none fun payload => by cases payload <;> rfl, fun _ => rfl⟩
  | @cutOff chunk chunks offset payload trace error wait =>
      have hgranted : granted before (selectCycles slot chunk ++ trace) = 0 := by
        rw [granted_append, (granted_selectCycles slot chunk before).1, (granted_selectCycles slot chunk before).2,
          wait.unwritten.granted_eq]
      rw [hgranted]
      exact ⟨.after_dataless (dataless_selectCycles slot chunk) (.none wait.dataless), nofun⟩
  | cutOffInside wait moved =>
      exact ⟨(conveyed_chunk wait moved before).1, nofun⟩
  | @moved chunk chunks offset payload payload' payload'' trace sectors rest status result wait moved others ih =>
      obtain ⟨hfirst, hgranted, hcommanded⟩ := conveyed_chunk wait moved before
      obtain ⟨hrest, hall⟩ := ih true
      have hcount : granted true sectors = chunk.sectors.toNat := moved.conveyed.2 rfl
      rw [granted_append, hcommanded]
      refine ⟨hfirst.trans (by rwa [hgranted, hcount]), fun hok => ?_⟩
      rw [hgranted, hcount, hall hok, sectorTotal_cons]

/-! ## Requests -/

variable {δ : Type} [Bank δ]

/-- Each word that has crossed the bus stands in the buffer, with its low byte first. -/
theorem Buffer.Holds.word {buffer : Buffer} {words : List UInt16} (h : buffer.Holds 0 (wordBytes words)) {i : Nat}
    {word : UInt16} (hw : words[i]? = some word) :
    buffer[2 * i]? = some (Word.low word) ∧ buffer[2 * i + 1]? = some (Word.high word) := by
  obtain ⟨hi, _⟩ := List.getElem?_eq_some_iff.mp hw
  obtain ⟨hlow, hhigh⟩ := getElem?_wordBytes words i
  have hfirst := h (2 * i) (by rw [length_wordBytes]; omega)
  have hsecond := h (2 * i + 1) (by rw [length_wordBytes]; omega)
  rw [Nat.zero_add] at hfirst hsecond
  rw [hfirst, hsecond, hlow, hhigh, hw]
  exact ⟨rfl, rfl⟩

/-- What a request to a disk of a driver carries over, against any device and with any clock that moves. -/
theorem Request.perform_conveys {ide : Ide δ} (placed : ide.Placed) (moving : ide.clock.Moving) {request : Request}
    {disk : Disk} (hd : ide.table.get? request.index = some disk) (hb : request.bytes ≤ request.buffer.size) :
    ∃ result payload trace ide', request.perform ide = .ok ((result, payload.buffer), ide') ∧
      ide'.cycles disk.controller = ide.cycles disk.controller ++ trace ∧
      Conveyed 0 (granted false trace) request.payload trace payload ∧
      (result = .ok () → granted false trace = request.count.toNat) := by
  obtain ⟨controller, hc⟩ := placed.of_get? hd
  have hmoving : (ide.opened controller).clock.Moving := moving
  obtain ⟨result, payload, trace, session, _, hrun, hmoved, hg⟩ :=
    BusM.moveChunks_run disk.slot ide.settings.commandTimeoutMs (Request.sectorTotal_le hb) hmoving
  obtain ⟨hconveyed, hall⟩ := hmoved.conveyed false
  refine ⟨result, payload, trace, _, perform_of_moveChunks hd hb hc hmoved.became hrun, ?_, hconveyed, fun hok => ?_⟩
  · rw [Ide.worked_cycles_self, hg.cycles, Ide.opened_cycles, List.nil_append]
  · rw [hall hok, Chunks.sectorTotal_toList]
    rfl

/-- Whatever was asked of a driver before, whatever a device answers and wherever a request ends, one sector has crossed
the bus for each wait for the data request that succeeded, and nothing else. The words of a read have gone to the front
of the buffer in their order, each with its low byte first, and the rest of it stays as it was; those of a write have
come from there in the same way. Only a request that moves all its sectors ends without an error. -/
theorem words_cross_in_order {controllers : Array (Controller δ)} {maxDisks : Nat} {clock : Clock} {settings : Settings}
    {steps : List (Step δ)} {answers : List Answer} {ide : Ide δ}
    (run : history steps (.fresh controllers maxDisks clock settings) = .ok (answers, ide)) (moving : ide.clock.Moving)
    {index : Nat} {disk : Disk} (hd : ide.table.get? index = some disk) (lba : UInt32) {count : UInt32} {buffer : Buffer}
    (hb : count.toNat * sectorSize ≤ buffer.size) :
    (∃ result after ide' trace, IdeM.readSectors index buffer lba count ide = .ok ((result, after), ide') ∧
      ide'.cycles disk.controller = ide.cycles disk.controller ++ trace ∧
      (wordsRead trace).length = 256 * granted false trace ∧ wordsSent trace = [] ∧
      (∀ i word, (wordsRead trace)[i]? = some word →
        after[2 * i]? = some (Word.low word) ∧ after[2 * i + 1]? = some (Word.high word)) ∧
      (∀ k, 512 * granted false trace ≤ k → after[k]? = buffer[k]?) ∧
      (result = .ok () → granted false trace = count.toNat)) ∧
    ∃ result ide' trace, IdeM.writeSectors index buffer lba count ide = .ok (result, ide') ∧
      ide'.cycles disk.controller = ide.cycles disk.controller ++ trace ∧
      (wordsSent trace).length = 256 * granted false trace ∧ wordsRead trace = [] ∧
      (∀ i word, (wordsSent trace)[i]? = some word →
        buffer[2 * i]? = some (Word.low word) ∧ buffer[2 * i + 1]? = some (Word.high word)) ∧
      (result = .ok () → granted false trace = count.toNat) := by
  have placed := (Ide.registered_history run).placed
  constructor
  · obtain ⟨result, payload, trace, ide', hrun, hcycles, hconveyed, hall⟩ :=
      @Request.perform_conveys _ _ _ placed moving ⟨index, lba, count, .read buffer⟩ _ hd hb
    refine ⟨result, payload.buffer, ide', trace, hrun, hcycles, hconveyed.length, hconveyed.others, fun i word hw => ?_,
      fun k hk => ?_, hall⟩
    · exact hconveyed.holds.word hw
    · exact hconveyed.outside k (.inr (by unfold sectorSize; omega))
  · obtain ⟨result, payload, trace, ide', hrun, hcycles, hconveyed, hall⟩ :=
      @Request.perform_conveys _ _ _ placed moving ⟨index, lba, count, .write buffer⟩ _ hd hb
    obtain ⟨hwrite, hsame⟩ := Request.writeSectors_of_perform hrun
    have hholds := hconveyed.holds
    rw [hsame] at hholds
    exact ⟨result, ide', trace, hwrite, hcycles, hconveyed.length, hconveyed.others,
      fun i word hw => hholds.word hw, hall⟩

/-- A start of the sample driver, after which its channel is made to ask for the data of one sector and then to report an
error. -/
def Ide.sampleInterrupted : List (Step Emulator.Channel) :=
  [.init, .alter 0 fun channel => { channel with faults := { channel.faults with script := [0x40, 0x58, 0x41] } }]

theorem Ide.exists_sampleInterrupted : ∃ answers ide disk controller payload session,
    history sampleInterrupted sample = .ok (answers, ide) ∧ ide.clock.step = 1 ∧ ide.table.get? 0 = some disk ∧
    ide.controllers[disk.controller]? = some controller ∧
    BusM.moveChunks disk.slot ide.settings.commandTimeoutMs (chunks 0 2).toList 0 (.read (.replicate 1024 0xff))
      (ide.opened controller) = .ok ((.error (.device 0x41), payload), session) ∧
    granted false session.cycles = 1 ∧ (wordsRead session.cycles)[1]? = some 0x0302 := by
  have hrun : (match history sampleInterrupted sample with
      | .ok (_, ide) => (ide.table.get? 0).any fun disk =>
          ide.controllers[disk.controller]?.any fun controller =>
            match BusM.moveChunks disk.slot ide.settings.commandTimeoutMs (chunks 0 2).toList 0
              (.read (.replicate 1024 0xff)) (ide.opened controller) with
            | .ok ((result, _), session) =>
                decide (ide.clock.step = 1 ∧ result = .error (.device 0x41) ∧ granted false session.cycles = 1 ∧
                  (wordsRead session.cycles)[1]? = some 0x0302)
            | .error _ => false
      | .error _ => false) = true := by decide +kernel
  split at hrun
  · rename_i answers ide run
    obtain ⟨disk, known, hrun⟩ := (Option.any_eq_true _ _).mp hrun
    obtain ⟨controller, found, hrun⟩ := (Option.any_eq_true _ _).mp hrun
    split at hrun
    · rename_i result payload session hmoves
      obtain ⟨hstep, rfl, hgranted, hword⟩ := of_decide_eq_true hrun
      exact ⟨answers, ide, disk, controller, payload, session, run, hstep, known, found, hmoves, hgranted, hword⟩
    · cases hrun
  · cases hrun

/-- One sector of two crosses the bus. -/
theorem sample_words_in_order : ∃ answers ide disk after ide' trace,
    history Ide.sampleInterrupted Ide.sample = .ok (answers, ide) ∧ ide.clock.Moving ∧ ide.table.get? 0 = some disk ∧
    IdeM.readSectors 0 (.replicate 1024 0xff) 0 2 ide = .ok ((.error (.device 0x41), after), ide') ∧
    ide'.cycles disk.controller = ide.cycles disk.controller ++ trace ∧ (wordsRead trace).length = 256 ∧
    (wordsRead trace)[1]? = some 0x0302 ∧ after[2]? = some 0x02 ∧ after[3]? = some 0x03 ∧
    after[512]? = some 0xff := by
  obtain ⟨answers, ide, disk, controller, payload, session, run, hstep, known, found, hmoves, hgranted, hword⟩ :=
    Ide.exists_sampleInterrupted
  have moving : ide.clock.Moving := ⟨by rw [hstep]; decide, by rw [hstep]; decide⟩
  have hsize : (2 : UInt32).toNat * sectorSize ≤ (Array.replicate 1024 0xff : Buffer).size := (Array.size_replicate ..).ge
  obtain ⟨⟨result, after, ide', trace, hread, hcycles, hlength, _, hwords, hrest, _⟩, _⟩ :=
    words_cross_in_order run moving known 0 hsize
  obtain ⟨_, htransfer, _⟩ := IdeM.readSectors_eq_ok hread
  cases htransfer with
  | unknown absent =>
      rw [known] at absent
      cases absent
  | short _ small => exact absurd hsize (Nat.not_le.mpr small)
  | moved known' _ found' run' =>
      cases known.symm.trans known'
      cases found.symm.trans found'
      cases hmoves.symm.trans run'
      rw [Ide.worked_cycles_self] at hcycles
      obtain rfl := List.append_cancel_left hcycles
      rw [hgranted] at hlength hrest
      obtain ⟨hlow, hhigh⟩ := hwords 1 _ hword
      refine ⟨answers, ide, disk, after, _, session.cycles, run, moving, known, hread, Ide.worked_cycles_self .., hlength,
        hword, hlow, hhigh, ?_⟩
      rw [hrest 512 (by decide), Array.getElem?_replicate]
      rfl

end PolledAta
