import PolledAta.Proofs.Faulty

/-!
# Accesses that stay in range

A channel keeps the words it has to send and the bytes it has taken, and it indexes both, and the images of its drives,
as it is accessed. A data phase may be left half done and another drive selected, but the data of a write only follows
its own command, so it is stored on the drive that has accepted it.
-/

namespace PolledAta

open Emulator

/-! ## What is indexed -/

namespace TaskFile

variable (file : TaskFile)

theorem lba_lt : file.lba < 2 ^ 28 := by
  have hhead : (file.get .device &&& 0x0f).toNat ≤ 0x0f := by
    rw [UInt8.toNat_and]
    exact Nat.and_le_right
  have hhigh := (file.get .lbaHigh).toNat_lt
  have hmid := (file.get .lbaMid).toNat_lt
  have hlow := (file.get .lbaLow).toNat_lt
  unfold lba
  omega

theorem sectorCount_bounds : 1 ≤ file.sectorCount ∧ file.sectorCount ≤ 256 := by
  have hlt := (file.get .sectorCount).toNat_lt
  unfold sectorCount
  split
  · decide
  · rename_i hne
    have hpos : (file.get .sectorCount).toNat ≠ 0 := fun h0 => hne (UInt8.toNat_inj.mp h0)
    omega

end TaskFile

namespace Emulator

/-- There is a word left to send, or room for the next one to take. -/
def Phase.Ready : Phase → Prop
  | .idle | .failed => True
  | .sending words => words ≠ []
  | .receiving _ count bytes => bytes.size % 2 = 0 ∧ bytes.size < count * sectorSize

/-- The sectors that are being written lie on the drive. -/
def Drive.Holds (drive : Drive) : Phase → Prop
  | .receiving lba count _ => (lba + count) * sectorSize ≤ drive.image.size
  | _ => True

namespace Channel

/-- No data phase is exhausted, and no write has run past the end of an image. -/
structure Sound (channel : Channel) : Prop where
  ready : channel.phase.Ready
  overrun : channel.overrun = false

/-- The drive that is selected, if any, is the one that a write is for. -/
def Aimed (channel : Channel) : Prop := ∀ drive, channel.selected = some drive → drive.Holds channel.phase

end Channel

end Emulator

/-- All that the channel indexes when it is accessed is there, and no address that it computes overflows: the sectors
that a command reads, the next word to send, the place of the next word to take, and the sectors that the last word of a
write completes. -/
def Cycle.InRange (channel : Channel) : Cycle → Prop
  | .read .. => True
  | .write reg value => reg = .command →
    (channel.taskFile.lba + channel.taskFile.sectorCount) * sectorSize < 2 ^ 63 ∧
    ∀ drive words, channel.selected = some drive → Channel.accept drive channel.taskFile value = .sending words →
      value = Command.identify ∨
        (channel.taskFile.lba + channel.taskFile.sectorCount) * sectorSize ≤ drive.image.size
  | .readData _ => channel.phase ≠ .sending []
  | .writeData _ => ∀ lba count bytes, channel.phase = .receiving lba count bytes →
    bytes.size + 2 ≤ count * sectorSize ∧
    (bytes.size + 2 = count * sectorSize → ∀ drive, channel.selected = some drive →
      lba * sectorSize + (bytes.size + 2) ≤ drive.image.size)

/-- A course of which every cycle is in range for the channel as it is by then. -/
inductive SafeCourse : Channel → List Cycle → Channel → Prop where
  | nil (channel : Channel) : SafeCourse channel [] channel
  | cons {channel between after : Channel} {cycle : Cycle} {trace : List Cycle} (inRange : cycle.InRange channel)
      (first : cycle.Takes channel between) (rest : SafeCourse between trace after) :
      SafeCourse channel (cycle :: trace) after

theorem SafeCourse.append {channel between after : Channel} {first second : List Cycle}
    (h : SafeCourse channel first between) (h' : SafeCourse between second after) :
    SafeCourse channel (first ++ second) after := by
  induction h with
  | nil => exact h'
  | cons inRange cycle _ ih => exact .cons inRange cycle (ih h')

namespace Emulator.Channel

variable {channel after : Channel} {drive : Drive} {cycle : Cycle} {trace : List Cycle}

/-! ## Commands -/

theorem length_words (lba count : Nat) : (drive.words lba count).length = count * sectorWords := by
  simp [Drive.words]

/-- What a drive makes of a command. Only sectors that lie on its image are read or written. -/
inductive Accepted (drive : Drive) (taskFile : TaskFile) (command : UInt8) : Phase → Prop where
  | identified (asked : command = Command.identify) : Accepted drive taskFile command (.sending (pageWords drive.page))
  | reading (fits : (taskFile.lba + taskFile.sectorCount) * sectorSize ≤ drive.image.size) :
      Accepted drive taskFile command (.sending (drive.words taskFile.lba taskFile.sectorCount))
  | writing (fits : (taskFile.lba + taskFile.sectorCount) * sectorSize ≤ drive.image.size) :
      Accepted drive taskFile command (.receiving taskFile.lba taskFile.sectorCount #[])
  | refused : Accepted drive taskFile command .failed

theorem accepted (drive : Drive) (taskFile : TaskFile) (command : UInt8) :
    Accepted drive taskFile command (accept drive taskFile command) := by
  unfold accept
  by_cases hidentify : command = Command.identify
  · rw [if_pos hidentify]
    exact .identified hidentify
  · rw [if_neg hidentify]
    by_cases hfits : (taskFile.lba + taskFile.sectorCount) * sectorSize ≤ drive.image.size
    · simp only [if_pos hfits]
      by_cases hread : command = Command.readSectors
      · rw [if_pos hread]
        exact .reading hfits
      · rw [if_neg hread]
        split
        · exact .writing hfits
        · exact .refused
    · simp only [if_neg hfits]
      exact .refused

theorem Accepted.ready {taskFile : TaskFile} {command : UInt8} {phase : Phase}
    (h : Accepted drive taskFile command phase) : phase.Ready ∧ drive.Holds phase := by
  obtain ⟨hpos, _⟩ := taskFile.sectorCount_bounds
  cases h with
  | identified =>
      refine ⟨fun hnil => ?_, trivial⟩
      have hlength := congrArg List.length hnil
      simp [pageWords] at hlength
  | reading =>
      refine ⟨fun hnil => ?_, trivial⟩
      have hlength := congrArg List.length hnil
      rw [length_words, List.length_nil, sectorWords] at hlength
      omega
  | writing fits =>
      have hroom : 0 < taskFile.sectorCount * 512 := by omega
      exact ⟨⟨rfl, hroom⟩, fits⟩
  | refused => exact ⟨trivial, trivial⟩

/-- Whatever phase was left over, a command ends it or finds no drive. -/
theorem execute_sound (h : channel.Sound) (command : UInt8) :
    (channel.execute command).Sound ∧ (channel.execute command).Aimed := by
  unfold execute
  cases hselected : channel.selected with
  | none =>
      refine ⟨h, fun drive hdrive => ?_⟩
      rw [hselected] at hdrive
      cases hdrive
  | some drive =>
      dsimp only
      split
      · exact ⟨⟨trivial, h.overrun⟩, fun _ _ => trivial⟩
      · obtain ⟨hready, hholds⟩ := (accepted drive channel.taskFile command).ready
        refine ⟨⟨hready, h.overrun⟩, fun other hother => ?_⟩
        cases hselected.symm.trans hother
        exact hholds

theorem inRange_command (channel : Channel) (command : UInt8) : Cycle.InRange channel (.write .command command) := by
  intro _
  have hlba := channel.taskFile.lba_lt
  obtain ⟨_, hcount⟩ := channel.taskFile.sectorCount_bounds
  refine ⟨?_, fun drive words _ haccept => ?_⟩
  · unfold sectorSize
    omega
  · have haccepted := accepted drive channel.taskFile command
    rw [haccept] at haccepted
    cases haccepted with
    | identified asked => exact .inl asked
    | reading fits => exact .inr fits

/-! ## Accesses -/

/-- Whatever is read and whichever registers are written, a channel stays sound. -/
theorem takes_sound (h : Cycle.Takes channel cycle after) (sound : channel.Sound)
    (silent : ∀ word, cycle ≠ .writeData word) : cycle.InRange channel ∧ after.Sound := by
  cases h with
  | @read _ reg value answers =>
      refine ⟨trivial, ?_⟩
      cases reg with
      | status =>
          obtain ⟨script, _, rfl⟩ := (takes_status (.read answers)).1
          exact ⟨sound.ready, sound.overrun⟩
      | _ =>
          cases answers
          exact sound
  | write reg value =>
      cases reg with
      | status => exact ⟨inRange_command channel value, (execute_sound sound value).1⟩
      | control =>
          refine ⟨nofun, ?_⟩
          show Sound (if value &&& Control.softReset = 0 then _ else _)
          split
          · exact ⟨sound.ready, sound.overrun⟩
          · exact ⟨trivial, sound.overrun⟩
      | _ => exact ⟨nofun, sound.ready, sound.overrun⟩
  | readData answers =>
      have hread : channel.readWord.2 = after := congrArg Prod.snd answers
      refine ⟨fun hphase => ?_, ?_⟩
      · have hready := sound.ready
        rw [hphase] at hready
        exact hready rfl
      · rw [← hread, readWord]
        split
        · refine ⟨?_, sound.overrun⟩
          dsimp only
          split
          · exact trivial
          · rename_i hrest
            exact fun hnil => hrest (List.isEmpty_iff.mpr hnil)
        · exact sound
  | writeData word => exact absurd rfl (silent word)

/-- Reading changes neither the drive that is selected nor the write that is under way. -/
theorem takes_aimed (h : Cycle.Takes channel cycle after) (aimed : channel.Aimed)
    (silent : ∀ word, cycle ≠ .writeData word) (unwritten : ∀ reg value, cycle ≠ .write reg value) : after.Aimed := by
  cases h with
  | @read _ reg value answers =>
      cases reg with
      | status =>
          obtain ⟨script, _, rfl⟩ := (takes_status (.read answers)).1
          exact aimed
      | _ =>
          cases answers
          exact aimed
  | write reg value => exact absurd rfl (unwritten reg value)
  | readData answers =>
      have hread : channel.readWord.2 = after := congrArg Prod.snd answers
      rw [← hread, readWord]
      split
      · intro drive _
        dsimp only
        split
        · exact trivial
        · exact trivial
      · exact aimed
  | writeData word => exact absurd rfl (silent word)

theorem sound_setDrive (h : channel.Sound) (slot : DriveSlot) (drive : Option Drive) :
    (channel.setDrive slot drive).Sound := by
  cases slot <;> exact ⟨h.ready, h.overrun⟩

theorem phase_store (channel : Channel) (lba : Nat) (bytes : Buffer) :
    (channel.store lba bytes).phase = channel.phase := by
  unfold store
  cases channel.selected with
  | none => rfl
  | some drive =>
      dsimp only
      split
      · cases channel.latch <;> rfl
      · rfl

/-- A complete write is stored where there is room for it. -/
theorem store_sound (sound : channel.Sound) {lba : Nat} {bytes : Buffer}
    (fits : ∀ drive, channel.selected = some drive → lba * sectorSize + bytes.size ≤ drive.image.size) :
    (channel.store lba bytes).Sound := by
  unfold store
  cases hselected : channel.selected with
  | none => exact sound
  | some drive =>
      dsimp only
      rw [if_pos (fits drive hselected)]
      exact sound_setDrive sound _ _

/-- A word that is sent has its place in the write that is under way. -/
theorem writeWord_sound (sound : channel.Sound) (aimed : channel.Aimed) (word : UInt16) :
    Cycle.InRange channel (.writeData word) ∧ (channel.writeWord word).Sound ∧ (channel.writeWord word).Aimed := by
  obtain ⟨master, slave, faults, taskFile, latch, phase, overrun⟩ := channel
  cases phase with
  | receiving lba count bytes =>
      obtain ⟨heven, hroom⟩ : bytes.size % 2 = 0 ∧ bytes.size < count * 512 := sound.ready
      have hfits : ∀ drive, (Channel.mk master slave faults taskFile latch .idle overrun).selected = some drive →
          lba * sectorSize + count * sectorSize ≤ drive.image.size := fun drive hd => by
        rw [← Nat.add_mul]
        exact aimed drive hd
      -- both sizes are even, so there is room for a whole word
      have hnext : bytes.size + 2 ≤ count * 512 := by omega
      refine ⟨fun _ _ _ hphase => ?_, ?_⟩
      · cases hphase
        refine ⟨hnext, fun hfull drive hd => ?_⟩
        rw [hfull]
        exact hfits drive hd
      · unfold Channel.writeWord
        dsimp only
        have hsize : ((bytes.push (Word.low word)).push (Word.high word)).size = bytes.size + 2 := by
          rw [Array.size_push, Array.size_push]
        split
        · rename_i hmore
          refine ⟨⟨⟨?_, hmore⟩, sound.overrun⟩, aimed⟩
          rw [hsize]
          omega
        · rename_i hfull
          rw [hsize] at hfull
          have hfull : bytes.size + 2 = count * sectorSize := Nat.le_antisymm hnext (Nat.not_lt.mp hfull)
          rw [← hfull, ← hsize] at hfits
          have hidle : (Channel.mk master slave faults taskFile latch .idle overrun).Sound := ⟨trivial, sound.overrun⟩
          refine ⟨store_sound hidle hfits, fun drive _ => ?_⟩
          rw [phase_store]
          exact trivial
  | _ => exact ⟨nofun, sound, aimed⟩

/-! ## Courses -/

theorem safe_of_silent (h : Course channel trace after) (sound : channel.Sound) (silent : Silent trace) :
    SafeCourse channel trace after ∧ after.Sound := by
  induction h with
  | nil => exact ⟨.nil _, sound⟩
  | cons first _ ih =>
      obtain ⟨hrange, hsound⟩ := takes_sound first sound fun word hword => silent word (hword ▸ List.mem_cons_self)
      obtain ⟨hsafe, hafter⟩ := ih hsound fun word hword => silent word (List.mem_cons_of_mem _ hword)
      exact ⟨.cons hrange first hsafe, hafter⟩

/-- Data may cross the bus as long as no register is written. -/
theorem safe_of_unwritten (h : Course channel trace after) (sound : channel.Sound) (aimed : channel.Aimed)
    (unwritten : Unwritten trace) : SafeCourse channel trace after ∧ after.Sound := by
  induction h with
  | nil => exact ⟨.nil _, sound⟩
  | @cons channel between after cycle trace first _ ih =>
      have hwrite (reg : Register) (value : UInt8) : cycle ≠ .write reg value := fun hcycle =>
        unwritten reg value (hcycle ▸ List.mem_cons_self)
      have hstep : cycle.InRange channel ∧ between.Sound ∧ between.Aimed := by
        -- only a word that is sent needs the write to be aimed, and it keeps it so
        by_cases hdata : ∃ word, cycle = .writeData word
        · obtain ⟨word, rfl⟩ := hdata
          cases first
          exact writeWord_sound sound aimed word
        · have hsilent (word : UInt16) : cycle ≠ .writeData word := fun hcycle => hdata ⟨word, hcycle⟩
          obtain ⟨hrange, hsound⟩ := takes_sound first sound hsilent
          exact ⟨hrange, hsound, takes_aimed first aimed hsilent hwrite⟩
      obtain ⟨hrange, hsound, haimed⟩ := hstep
      obtain ⟨hsafe, hafter⟩ := ih hsound haimed fun reg value hw => unwritten reg value (List.mem_cons_of_mem _ hw)
      exact ⟨.cons hrange first hsafe, hafter⟩

/-- A command, and the data that follow it with no register written in between. -/
theorem safe_of_command {waits sectors : List Cycle} {value : UInt8}
    (course : Course channel (waits ++ [.write .command value] ++ sectors) after) (sound : channel.Sound)
    (silent : Silent waits) (unwritten : Unwritten sectors) :
    SafeCourse channel (waits ++ [.write .command value] ++ sectors) after ∧ after.Sound := by
  obtain ⟨_, hcommand, hsectors⟩ := Course.append_inv course
  obtain ⟨ready, hwaits, hcommand⟩ := Course.append_inv hcommand
  obtain ⟨hsafe, hready⟩ := safe_of_silent hwaits sound silent
  cases hcommand.write_inv.nil_inv
  obtain ⟨hsound, haimed⟩ := execute_sound hready value
  obtain ⟨hsafe', hafter⟩ := safe_of_unwritten hsectors hsound haimed unwritten
  exact ⟨(hsafe.append (.cons (inRange_command ready value) (.write ..) (.nil _))).append hsafe', hafter⟩

end Emulator.Channel

/-- No access of a transfer is out of range, wherever it is cut off. -/
theorem ChunksMoved.safe {slot : DriveSlot} {chunks : List Chunk} {offset : Nat} {payload payload' : Payload}
    {trace : List Cycle} {result : Except AtaError Unit} {channel after : Channel}
    (h : ChunksMoved slot chunks offset payload trace result payload') (course : Course channel trace after)
    (sound : channel.Sound) : SafeCourse channel trace after ∧ after.Sound := by
  induction h generalizing channel with
  | finished =>
      cases course.nil_inv
      exact ⟨.nil _, sound⟩
  | cutOff wait => exact Channel.safe_of_silent course sound ((silent_selectCycles _ _).append wait.silent)
  | cutOffInside wait moved =>
      exact Channel.safe_of_command course sound ((silent_selectCycles _ _).append wait.silent) moved.unwritten
  | moved wait moved _ ih =>
      obtain ⟨between, hchunk, hrest⟩ := Course.append_inv course
      obtain ⟨hsafe, hsound⟩ :=
        Channel.safe_of_command hchunk sound ((silent_selectCycles _ _).append wait.silent) moved.unwritten
      obtain ⟨hsafe', hafter⟩ := ih hrest hsound
      exact ⟨hsafe.append hsafe', hafter⟩

end PolledAta
