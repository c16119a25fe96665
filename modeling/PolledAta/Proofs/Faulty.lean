import PolledAta.Proofs.Scripts
import PolledAta.Proofs.Served

/-!
# A channel with faults

Faults make a channel show what is not so, withhold its data requests and refuse its commands. Still a write is stored
as a whole, in the place it was sent to, or not at all: the command before it has ended whatever phase was left over.
-/

namespace PolledAta.Emulator

/-! ## Chunks of a buffer -/

/-- The chunks of a transfer, each with the place of its data in the buffer. -/
def placed : (offset : Nat) → List Chunk → List (Nat × Chunk)
  | _, [] => []
  | offset, chunk :: rest => (offset, chunk) :: placed (offset + chunk.sectors.toNat * sectorSize) rest

/-- The drive with these parts of the buffer written to it in turn. -/
def Drive.overwritten (drive : Drive) (buffer : Buffer) (parts : List (Nat × Chunk)) : Drive :=
  parts.foldl (fun drive part => drive.written part.2.sentLba buffer part.1 part.2.sectors.toNat) drive

theorem Drive.sectorCount_overwritten (drive : Drive) (buffer : Buffer) (parts : List (Nat × Chunk)) :
    (drive.overwritten buffer parts).sectorCount = drive.sectorCount := by
  induction parts generalizing drive with
  | nil => rfl
  | cons part parts ih =>
      rw [overwritten, List.foldl_cons]
      exact (ih _).trans (sectorCount_written ..)

/-- No status is made up. -/
structure Faults.Quiet (faults : Faults) : Prop where
  override : faults.statusOverride = .none
  script : faults.script = []

namespace Channel

variable {channel before between after : Channel} {drive : Drive} {slot : DriveSlot} {chunk : Chunk} {buffer : Buffer}
  {trace : List Cycle}

def scripted (channel : Channel) (script : List UInt8) : Channel :=
  { channel with faults := { channel.faults with script } }

/-! ## What is kept -/

/-- Only some of the script may be used up. -/
def Held (before after : Channel) : Prop :=
  ∃ script, (before.faults.Quiet → script = []) ∧ after = before.scripted script

theorem Held.refl (channel : Channel) : channel.Held channel :=
  ⟨channel.faults.script, Faults.Quiet.script, rfl⟩

theorem Held.eq_of_quiet (h : before.Held after) (quiet : before.faults.Quiet) : after = before := by
  obtain ⟨script, hscript, rfl⟩ := h
  rw [hscript quiet, ← quiet.script]
  rfl

theorem Held.trans (h : before.Held between) (h' : between.Held after) : before.Held after := by
  obtain ⟨script, hscript, rfl⟩ := h
  obtain ⟨script', hscript', rfl⟩ := h'
  exact ⟨script', fun quiet => hscript' ⟨quiet.override, hscript quiet⟩, rfl⟩

/-- The drives are as before, and nothing is made up that was not before. -/
structure Spared (before after : Channel) : Prop where
  quiet : before.faults.Quiet → after.faults.Quiet
  overrun : after.overrun = before.overrun
  drives : ∀ slot, after.drive slot = before.drive slot

theorem Spared.refl (channel : Channel) : channel.Spared channel := ⟨id, rfl, fun _ => rfl⟩

theorem Spared.trans (h : before.Spared between) (h' : between.Spared after) : before.Spared after where
  quiet quiet := h'.quiet (h.quiet quiet)
  overrun := h'.overrun.trans h.overrun
  drives slot := (h'.drives slot).trans (h.drives slot)

theorem spared_inPhase (channel : Channel) (phase : Phase) : channel.Spared (channel.inPhase phase) :=
  ⟨id, rfl, fun _ => rfl⟩

theorem spared_announced (channel : Channel) (slot : DriveSlot) (chunk : Chunk) :
    channel.Spared (channel.announced slot chunk) :=
  ⟨id, rfl, fun _ => rfl⟩

theorem Held.spared (h : before.Held after) : before.Spared after := by
  obtain ⟨script, hscript, rfl⟩ := h
  exact ⟨fun quiet => ⟨quiet.override, hscript quiet⟩, rfl, fun _ => rfl⟩

/-! ## Waits -/

theorem takes_status {value : UInt8} (h : Cycle.Takes channel (.read .status value) after) :
    channel.Held after ∧ (channel.faults.Quiet → value = channel.status) := by
  cases h with
  | read answers =>
      cases hs : channel.faults.script with
      | nil =>
          cases (read_status_of_unscripted hs).symm.trans answers
          exact ⟨.refl _, fun _ => rfl⟩
      | cons first rest =>
          have hread : Bank.read channel .status = (first, channel.scripted rest) := by
            show readRegister channel .status = _
            simp only [readRegister, hs]
            rfl
          cases hread.symm.trans answers
          have hloud : ¬channel.faults.Quiet := fun quiet => by simp [quiet.script] at hs
          exact ⟨⟨rest, fun quiet => absurd quiet hloud, rfl⟩, fun quiet => absurd quiet hloud⟩

theorem course_statuses {statuses : List UInt8} (h : Course channel (statuses.map (.read .status)) after) :
    channel.Held after ∧ (channel.faults.Quiet → ∀ status ∈ statuses, status = channel.status) := by
  induction statuses generalizing channel with
  | nil =>
      rw [h.nil_inv]
      exact ⟨.refl _, by simp⟩
  | cons status statuses ih =>
      obtain ⟨between, hfirst, hrest⟩ := Course.cons_inv h
      obtain ⟨hheld, hstatus⟩ := takes_status hfirst
      obtain ⟨hheld', hstatuses⟩ := ih hrest
      refine ⟨hheld.trans hheld', fun quiet => List.forall_mem_cons.mpr ⟨hstatus quiet, ?_⟩⟩
      rw [hheld.eq_of_quiet quiet] at hstatuses
      exact hstatuses quiet

/-- A wait leaves the channel alone. If no status is made up, it ends as the status of the channel says. -/
theorem course_waited {bits : UInt8} {answer : Except AtaError UInt8} (h : Waited bits trace answer)
    (course : Course channel trace after) :
    channel.Held after ∧
      (channel.faults.Quiet → answer = (Status.judge channel.status bits).outcome channel.status) := by
  cases h with
  | intro settle pending last early =>
      obtain ⟨between, hsettle, course⟩ := Course.cons_inv course
      have hbetween : between = channel := by
        cases hsettle with
        | read answers =>
            cases answers
            rfl
      rw [hbetween] at course
      have course : Course channel ((pending ++ [last]).map (.read .status)) after := by simpa using course
      obtain ⟨hheld, hstatuses⟩ := course_statuses course
      refine ⟨hheld, fun quiet => ?_⟩
      rw [hstatuses quiet last (by simp)]

/-! ## Traces without data -/

theorem spared_execute (channel : Channel) (command : UInt8) : channel.Spared (channel.execute command) := by
  unfold execute
  split
  · exact ⟨id, rfl, fun _ => rfl⟩
  · split <;> exact ⟨id, rfl, fun _ => rfl⟩

theorem takes_spared {cycle : Cycle} (h : Cycle.Takes channel cycle after)
    (silent : ∀ word, cycle ≠ .writeData word) : channel.Spared after := by
  cases h with
  | @read _ reg value answers =>
      cases reg with
      | status => exact (takes_status (.read answers)).1.spared
      | _ =>
          cases answers
          exact ⟨id, rfl, fun _ => rfl⟩
  | write reg value =>
      cases reg with
      | status => exact spared_execute channel value
      | control =>
          show channel.Spared (if value &&& Control.softReset = 0 then _ else _)
          split <;> exact ⟨id, rfl, fun _ => rfl⟩
      | _ => exact ⟨id, rfl, fun _ => rfl⟩
  | readData answers =>
      have hread : channel.readWord.2 = after := congrArg Prod.snd answers
      rw [← hread, readWord]
      split <;> exact ⟨id, rfl, fun _ => rfl⟩
  | writeData word => exact absurd rfl (silent word)

/-- While no data is sent, the drives stay as they are. -/
theorem course_spared (h : Course channel trace after) (silent : Silent trace) : channel.Spared after := by
  induction h with
  | nil => exact .refl _
  | cons first _ ih =>
      have hfirst := takes_spared first fun word hword => silent word (hword ▸ List.mem_cons_self)
      exact hfirst.trans (ih fun word hword => silent word (List.mem_cons_of_mem _ hword))

/-! ## Words for no drive -/

/-- Words that are sent do not reach a drive. -/
def Deaf (channel : Channel) : Prop :=
  channel.selected = none ∨ ∀ lba count bytes, channel.phase ≠ .receiving lba count bytes

theorem deaf_failed (channel : Channel) : (channel.inPhase .failed).Deaf :=
  .inr fun _ _ _ habsurd => by cases habsurd

theorem Deaf.held (h : before.Deaf) (held : before.Held after) : after.Deaf := by
  obtain ⟨script, _, rfl⟩ := held
  exact h

theorem Deaf.writeWord (h : channel.Deaf) (word : UInt16) :
    (channel.writeWord word).Deaf ∧ channel.Spared (channel.writeWord word) := by
  obtain ⟨master, slave, faults, taskFile, latch, phase, overrun⟩ := channel
  cases phase with
  | receiving lba count bytes =>
      have hnone := h.resolve_right fun hphase => hphase lba count bytes rfl
      have hnone' : (Channel.mk master slave faults taskFile latch .idle overrun).selected = none := hnone
      unfold Channel.writeWord
      dsimp only
      split
      · exact ⟨.inl hnone, id, rfl, fun _ => rfl⟩
      · rw [store, hnone']
        exact ⟨.inl hnone', id, rfl, fun _ => rfl⟩
  | _ => exact ⟨h, .refl _⟩

theorem Deaf.words {words : List UInt16} (h : channel.Deaf) (course : Course channel (words.map .writeData) after) :
    after.Deaf ∧ channel.Spared after := by
  induction words generalizing channel with
  | nil =>
      rw [course.nil_inv]
      exact ⟨h, .refl _⟩
  | cons word words ih =>
      obtain ⟨between, hfirst, hrest⟩ := Course.cons_inv course
      cases hfirst
      obtain ⟨hdeaf, hspared⟩ := h.writeWord word
      obtain ⟨hdeaf', hspared'⟩ := ih hdeaf hrest
      exact ⟨hdeaf', hspared.trans hspared'⟩

theorem Deaf.sectors {count offset : Nat} {payload payload' : Payload} {result : Except AtaError Unit}
    (h : channel.Deaf) (moved : SectorsMoved count offset payload trace result payload') (hp : payload = .write buffer)
    (course : Course channel trace after) : channel.Spared after := by
  induction moved generalizing channel with
  | finished =>
      rw [course.nil_inv]
      exact .refl _
  | cutOff wait => exact (course_waited wait course).1.spared
  | moved wait sector _ ih =>
      subst hp
      cases sector with
      | sent sector =>
          obtain ⟨_, course, hrest⟩ := Course.append_inv course
          obtain ⟨_, hwait, hwords⟩ := Course.append_inv course
          have hheld := (course_waited wait hwait).1
          obtain ⟨hdeaf, hspared⟩ := (h.held hheld).words hwords
          exact (hheld.spared.trans hspared).trans (ih hdeaf rfl hrest)

/-! ## Words for a drive -/

theorem faults_collect (channel : Channel) (lba count : Nat) (bytes : Buffer) :
    (channel.collect lba count bytes).faults = channel.faults := by
  unfold collect store
  repeat' split
  · rfl
  · rfl
  · cases (channel.inPhase .idle).latch <;> rfl
  · rfl

theorem scripted_collect (channel : Channel) (script : List UInt8) (lba count : Nat) (bytes : Buffer) :
    (channel.collect lba count bytes).scripted script = (channel.scripted script).collect lba count bytes := by
  unfold collect
  split
  · rfl
  · show ((channel.inPhase .idle).store lba bytes).scripted script =
      ((channel.inPhase .idle).scripted script).store lba bytes
    unfold store
    rw [show ((channel.inPhase .idle).scripted script).selected = (channel.inPhase .idle).selected from rfl]
    cases (channel.inPhase .idle).selected with
    | none => rfl
    | some drive =>
        dsimp only
        split
        · show Channel.scripted (setDrive _ (channel.inPhase .idle).latch _) _ =
            setDrive _ (channel.inPhase .idle).latch _
          cases (channel.inPhase .idle).latch <;> rfl
        · rfl

/-- What is used up of the script makes no difference to what is collected. -/
theorem Held.of_collect {lba count : Nat} {bytes : Buffer} (h : (channel.collect lba count bytes).Held after) :
    ∃ held, channel.Held held ∧ after = held.collect lba count bytes := by
  obtain ⟨script, hscript, rfl⟩ := h
  rw [faults_collect] at hscript
  exact ⟨channel.scripted script, ⟨script, hscript, rfl⟩, scripted_collect ..⟩

theorem course_words_collect {lba count : Nat} {words : List UInt16} {bytes : Buffer}
    (h : bytes.size + 2 * words.length ≤ count * sectorSize)
    (course : Course (channel.collect lba count bytes) (words.map .writeData) after) :
    after = channel.collect lba count (bytes ++ (wordBytes words).toArray) := by
  induction words generalizing bytes with
  | nil =>
      rw [wordBytes, List.flatMap_nil, Array.append_empty]
      exact course.nil_inv
  | cons word words ih =>
      rw [List.length_cons] at h
      have hmore : bytes.size < count * sectorSize := by omega
      obtain ⟨_, hfirst, hrest⟩ := Course.cons_inv course
      cases hfirst
      rw [writeData_collect hmore] at hrest
      rw [append_wordBytes_cons]
      exact ih (by simp only [Array.size_push]; omega) hrest

/-- A write that a drive has accepted is collected sector by sector, until it is complete or a wait fails. -/
theorem course_sectors_collect {lba count more offset : Nat} {bytes : Buffer} {payload payload' : Payload}
    {result : Except AtaError Unit} (moved : SectorsMoved more offset payload trace result payload')
    (hp : payload = .write buffer) (hn : bytes.size + more * sectorSize = count * sectorSize)
    (hb : offset + more * sectorSize ≤ buffer.size)
    (course : Course (channel.collect lba count bytes) trace after) :
    ∃ held, channel.Held held ∧
      ((result = .ok () ∧
          after = held.collect lba count (bytes ++ buffer.extract offset (offset + more * sectorSize))) ∨
        ∃ error taken, result = .error error ∧ after = held.inPhase (.receiving lba count taken)) := by
  induction moved generalizing channel bytes with
  | finished offset payload =>
      refine ⟨channel, .refl _, .inl ⟨rfl, ?_⟩⟩
      rw [Buffer.extract_no_sectors]
      exact course.nil_inv
  | @cutOff more offset payload trace error wait =>
      obtain ⟨held, hheld, rfl⟩ := (course_waited wait course).1.of_collect
      rw [Nat.add_mul, Nat.one_mul] at hn
      have hpos : 0 < sectorSize := by decide
      have hmore : bytes.size < count * sectorSize := by omega
      exact ⟨held, hheld, .inr ⟨error, bytes, rfl, by rw [collect, if_pos hmore]⟩⟩
  | @moved more offset payload payload' payload'' trace words rest status result wait sector _ ih =>
      subst hp
      cases sector with
      | sent sector held =>
          rw [Nat.add_mul, Nat.one_mul] at hn hb
          obtain ⟨_, course, hrest⟩ := Course.append_inv course
          obtain ⟨_, hwait, hwords⟩ := Course.append_inv course
          obtain ⟨channel', hheld, rfl⟩ := (course_waited wait hwait).1.of_collect
          have hnext : bytes.size + sectorSize ≤ count * sectorSize := by omega
          have hlength : bytes.size + 2 * sector.words.toList.length ≤ count * sectorSize := by
            rw [Vector.length_toList]
            exact hnext
          rw [course_words_collect hlength hwords, Sector.wordBytes_words, Vector.toArray_toList,
            ← Buffer.extract_of_sector? held] at hrest
          have hb₀ : offset + sectorSize ≤ buffer.size := by omega
          have hsize := Buffer.size_append_sector bytes hb₀
          have hn₁ : (bytes ++ buffer.extract offset (offset + sectorSize)).size + more * sectorSize =
              count * sectorSize := by omega
          have hb₁ : offset + sectorSize + more * sectorSize ≤ buffer.size := by omega
          obtain ⟨held', hheld', hend⟩ := ih rfl hn₁ hb₁ hrest
          refine ⟨held', hheld.trans hheld', hend.imp_left fun hall => ⟨hall.1, ?_⟩⟩
          rw [hall.2, Buffer.extract_succ_sectors]

/-! ## One command -/

/-- The drive in `slot` has been overwritten with these parts of the buffer, each of which lies on it, and nothing else
has changed. -/
structure Rewritten (before : Channel) (slot : DriveSlot) (buffer : Buffer) (parts : List (Nat × Chunk))
    (after : Channel) : Prop where
  quiet : before.faults.Quiet → after.faults.Quiet
  overrun : after.overrun = before.overrun
  reaches : ∀ drive, before.drive slot = some drive → ∀ part ∈ parts, drive.Reaches part.2
  drive : after.drive slot = (before.drive slot).map (·.overwritten buffer parts)
  others : ∀ other, other ≠ slot → after.drive other = before.drive other

theorem Spared.rewritten (h : before.Spared after) (slot : DriveSlot) (buffer : Buffer) :
    before.Rewritten slot buffer [] after where
  quiet := h.quiet
  overrun := h.overrun
  reaches := by simp
  drive := by
    rw [h.drives, show (fun drive : Drive => drive.overwritten buffer []) = id from rfl, Option.map_id]
    rfl
  others other _ := h.drives other

theorem Rewritten.trans {parts parts' : List (Nat × Chunk)} (h : before.Rewritten slot buffer parts between)
    (h' : between.Rewritten slot buffer parts' after) : before.Rewritten slot buffer (parts ++ parts') after where
  quiet quiet := h'.quiet (h.quiet quiet)
  overrun := h'.overrun.trans h.overrun
  reaches drive hd part hpart := by
    rcases List.mem_append.mp hpart with hpart | hpart
    · exact h.reaches drive hd part hpart
    · have hbetween : between.drive slot = some (drive.overwritten buffer parts) := by
        rw [h.drive, hd]
        rfl
      have hreach := h'.reaches _ hbetween part hpart
      rwa [Drive.Reaches, Drive.sectorCount_overwritten] at hreach
  drive := by
    rw [h'.drive, h.drive, Option.map_map]
    congr 1
    funext drive
    exact (List.foldl_append ..).symm
  others other ho := (h'.others other ho).trans (h.others other ho)

/-- A transfer of one chunk to a drive that it lies on. -/
theorem Turned.rewritten {script : List UInt8} {phase : Phase} {offset : Nat} (h : (channel.scripted script).Turned slot
    (drive.written chunk.sentLba buffer offset chunk.sectors.toNat) phase after)
    (hscript : channel.faults.Quiet → script = []) (hd : channel.drive slot = some drive)
    (hreach : drive.Reaches chunk) : channel.Rewritten slot buffer [(offset, chunk)] after where
  quiet quiet := by
    rw [h.faults]
    exact ⟨quiet.override, hscript quiet⟩
  overrun := h.overrun
  reaches other ho part hpart := by
    cases hd.symm.trans ho
    rwa [List.mem_singleton.mp hpart]
  drive := by
    rw [h.drive, hd]
    rfl
  others := h.others

theorem status_of_absent (quiet : channel.faults.Quiet) (hd : channel.selected = none) : channel.status = 0 := by
  unfold status
  rw [quiet.override, hd]

theorem status_of_failed (quiet : channel.faults.Quiet) (hd : channel.selected ≠ none) :
    (channel.inPhase .failed).status = Status.ready ||| Status.error := by
  obtain ⟨drive, hd⟩ := Option.ne_none_iff_exists'.mp hd
  unfold status
  rw [show (channel.inPhase .failed).faults = channel.faults from rfl, quiet.override, selected_inPhase, hd]
  rfl

/-- What becomes of a command to write, if it is the one that the registers spell. -/
theorem execute_announced (hc : 1 ≤ chunk.sectors.toNat ∧ chunk.sectors.toNat ≤ 256)
    (held : (channel.announced slot chunk).Held between) :
    (∃ drive, channel.drive slot = some drive ∧ drive.Reaches chunk ∧ between.execute Command.writeSectors =
      between.inPhase (.receiving chunk.sentLba chunk.sectors.toNat #[])) ∨
    (between.selected ≠ none ∧ between.execute Command.writeSectors = between.inPhase .failed) ∨
    (between.selected = none ∧ between.execute Command.writeSectors = between) := by
  obtain ⟨script, _, rfl⟩ := held
  have hselected : ((channel.announced slot chunk).scripted script).selected = channel.drive slot := by
    show channel.drive (channel.announced slot chunk).latch = _
    rw [latch_announced]
  have hfaults : ((channel.announced slot chunk).scripted script).faults.failCommands = channel.faults.failCommands :=
    rfl
  unfold execute
  rw [hselected, hfaults]
  cases hd : channel.drive slot with
  | none => exact .inr (.inr ⟨rfl, rfl⟩)
  | some drive =>
      dsimp only
      by_cases hfail : channel.faults.failCommands
      · rw [if_pos hfail]
        exact .inr (.inl ⟨by simp, rfl⟩)
      · rw [if_neg hfail]
        have haccept : accept drive ((channel.announced slot chunk).scripted script).taskFile Command.writeSectors =
            if drive.Reaches chunk then startPhase drive chunk (.write #[]) else .failed :=
          accept_announced hc (.write #[])
        rw [haccept]
        by_cases hreach : drive.Reaches chunk
        · rw [if_pos hreach]
          exact .inl ⟨drive, rfl, hreach, rfl⟩
        · rw [if_neg hreach]
          exact .inr (.inl ⟨by simp, rfl⟩)

theorem course_selectCycles (course : Course channel (selectCycles slot chunk) after) :
    after = channel.announced slot chunk :=
  course.write_inv.write_inv.write_inv.write_inv.write_inv.nil_inv

/-- If no status is made up, a command that was refused moves nothing. -/
theorem not_ok_of_failed (quiet : channel.faults.Quiet) (hd : channel.selected ≠ none) {count offset : Nat}
    {payload payload' : Payload} {result : Except AtaError Unit} (hc : 1 ≤ count)
    (moved : SectorsMoved count offset payload trace result payload')
    (course : Course (channel.inPhase .failed) trace after) : result ≠ .ok () := by
  cases moved with
  | finished => cases hc
  | cutOff => exact nofun
  | moved wait =>
      obtain ⟨_, course, _⟩ := Course.append_inv course
      obtain ⟨_, hwait, _⟩ := Course.append_inv course
      have hanswer := (course_waited wait hwait).2 quiet
      rw [status_of_failed quiet hd] at hanswer
      cases hanswer

theorem course_chunk {waits sectors : List Cycle} {status : UInt8} {offset : Nat} {payload' : Payload}
    {result : Except AtaError Unit} (hc : 1 ≤ chunk.sectors.toNat ∧ chunk.sectors.toNat ≤ 256)
    (hb : offset + chunk.sectors.toNat * sectorSize ≤ buffer.size) (wait : Waited Status.ready waits (.ok status))
    (moved : SectorsMoved chunk.sectors.toNat offset (.write buffer) sectors result payload')
    (course : Course channel
      (selectCycles slot chunk ++ waits ++ [.write .command Command.writeSectors] ++ sectors) after) :
    (channel.Spared after ∧ (channel.faults.Quiet → result ≠ .ok ())) ∨
    (result = .ok () ∧ channel.Rewritten slot buffer [(offset, chunk)] after) := by
  obtain ⟨started, course, hsectors⟩ := Course.append_inv course
  obtain ⟨between, course, hcommand⟩ := Course.append_inv course
  obtain ⟨_, hselect, hwait⟩ := Course.append_inv course
  rw [course_selectCycles hselect] at hwait
  obtain ⟨hheld, hanswer⟩ := course_waited wait hwait
  have hspared := (spared_announced channel slot chunk).trans hheld.spared
  have hstarted : started = between.execute Command.writeSectors := hcommand.write_inv.nil_inv
  rcases execute_announced hc hheld with ⟨drive, hd, hreach, hexecute⟩ | ⟨hd, hexecute⟩ | ⟨hd, hexecute⟩
  · have hpos : (#[] : Buffer).size < chunk.sectors.toNat * sectorSize := Nat.mul_pos hc.1 (by decide)
    have hcollect : started = between.collect chunk.sentLba chunk.sectors.toNat #[] := by
      rw [hstarted, hexecute, collect, if_pos hpos]
    rw [hcollect] at hsectors
    obtain ⟨held, hheld', ⟨rfl, rfl⟩ | ⟨error, taken, rfl, rfl⟩⟩ :=
      course_sectors_collect moved rfl (Nat.zero_add _) hb hsectors
    · obtain ⟨script, hscript, rfl⟩ := hheld.trans hheld'
      have hd' : (channel.scripted script).drive slot = some drive := hd
      rw [Array.empty_append]
      exact .inr ⟨rfl, (turned_collect hd' hreach hb).rewritten hscript hd hreach⟩
    · exact .inl ⟨(hspared.trans hheld'.spared).trans (spared_inPhase ..), fun _ hok => by cases hok⟩
  · rw [hstarted, hexecute] at hsectors
    have hdeaf := (deaf_failed between).sectors moved rfl hsectors
    refine .inl ⟨(hspared.trans (spared_inPhase ..)).trans hdeaf, fun quiet => ?_⟩
    exact not_ok_of_failed (hspared.quiet quiet) hd hc.1 moved hsectors
  · rw [hstarted, hexecute] at hsectors
    refine .inl ⟨hspared.trans (Deaf.sectors (.inl hd) moved rfl hsectors), fun quiet => ?_⟩
    have hanswer := hanswer quiet
    have hannounced : (channel.announced slot chunk).faults.Quiet := quiet
    rw [hheld.eq_of_quiet quiet] at hd
    rw [status_of_absent hannounced hd] at hanswer
    cases hanswer

/-! ## All chunks -/

/-- Of the chunks that a transfer has moved, some are written to the drive in the slot, and if no status is made up, all
of them are. Nothing else is written. -/
theorem course_chunks {list : List Chunk} {offset : Nat} {payload payload' : Payload} {result : Except AtaError Unit}
    (moved : ChunksMoved slot list offset payload trace result payload') (hp : payload = .write buffer)
    (hc : ∀ chunk ∈ list, 1 ≤ chunk.sectors.toNat ∧ chunk.sectors.toNat ≤ 256)
    (hb : offset + sectorTotal list * sectorSize ≤ buffer.size) (course : Course channel trace after) :
    ∃ done parts, Ended list.length done (announcements trace) result ∧
      parts.Sublist ((placed offset list).take done) ∧ channel.Rewritten slot buffer parts after ∧
      (channel.faults.Quiet → parts = (placed offset list).take done) := by
  induction moved generalizing channel with
  | finished =>
      rw [course.nil_inv]
      exact ⟨0, [], .finished, .slnil, (Spared.refl channel).rewritten .., fun _ => rfl⟩
  | @cutOff chunk list offset payload trace error wait =>
      obtain ⟨_, hselect, hwait⟩ := Course.append_inv course
      rw [course_selectCycles hselect] at hwait
      have hspared := (spared_announced channel slot chunk).trans (course_waited wait hwait).1.spared
      refine ⟨0, [], ?_, List.nil_sublist _, hspared.rewritten .., fun _ => rfl⟩
      rw [announcements_append, announcements_selectCycles, wait.unwritten.announcements_eq]
      exact .cutOff (Nat.succ_pos _)
  | @cutOffInside chunk list offset payload payload' trace sectors status error wait moved =>
      subst hp
      rw [sectorTotal_cons, Nat.add_mul] at hb
      have hb₀ : offset + chunk.sectors.toNat * sectorSize ≤ buffer.size := by omega
      rcases course_chunk (hc chunk List.mem_cons_self) hb₀ wait moved course with ⟨hspared, _⟩ | ⟨habsurd, _⟩
      · refine ⟨0, [], ?_, List.nil_sublist _, hspared.rewritten .., fun _ => rfl⟩
        rw [announcements_chunk wait moved]
        exact .cutOff (Nat.succ_pos _)
      · cases habsurd
  | @moved chunk list offset payload payload' payload'' trace sectors rest status result wait moved others ih =>
      subst hp
      cases moved.became with
      | write =>
          rw [sectorTotal_cons, Nat.add_mul] at hb
          obtain ⟨between, hfirst, hrest⟩ := Course.append_inv course
          have hb₀ : offset + chunk.sectors.toNat * sectorSize ≤ buffer.size := by omega
          have hb₁ : offset + chunk.sectors.toNat * sectorSize + sectorTotal list * sectorSize ≤ buffer.size := by omega
          obtain ⟨done, parts, hended, hsublist, hrewritten, hall⟩ :=
            ih rfl (fun next hn => hc next (List.mem_cons_of_mem _ hn)) hb₁ hrest
          have hended' : Ended (list.length + 1) (done + 1) (announcements (selectCycles slot chunk ++ trace ++
              [.write .command Command.writeSectors] ++ sectors ++ rest)) result := by
            rw [announcements_append, announcements_chunk wait moved]
            exact hended.succ
          rcases course_chunk (hc chunk List.mem_cons_self) hb₀ wait moved hfirst with ⟨hspared, hloud⟩ | ⟨_, hone⟩
          · refine ⟨done + 1, parts, hended', hsublist.cons _, ?_, fun quiet => absurd rfl (hloud quiet)⟩
            exact (hspared.rewritten slot buffer).trans hrewritten
          · refine ⟨done + 1, (offset, chunk) :: parts, hended', hsublist.cons_cons _, hone.trans hrewritten, ?_⟩
            intro quiet
            rw [hall (hone.quiet quiet)]
            rfl

end Channel

end PolledAta.Emulator
