import PolledAta.Proofs.Endings
import PolledAta.Proofs.Faulty

/-!
# Writes under faults

A request to write does the whole of some of its chunks on the drive it is for, and leaves every other drive alone,
whatever faults the channel has and whatever was left unfinished on it.
-/

namespace PolledAta

open Emulator

/-! ## The chunks of a request, by their numbers -/

/-- Where chunk `k` of a request goes on the drive: the position wraps at 32 bits, and 28 of them are sent. -/
def chunkAddress (lba : UInt32) (k : Nat) : Nat := (lba.toNat + 256 * k) % 2 ^ 32 % 2 ^ 28

def chunkLength (count : UInt32) (k : Nat) : Nat := min 256 (count.toNat - 256 * k)

/-- The drive with chunk `k` of a request to write on it. -/
def Emulator.Drive.withChunk (lba count : UInt32) (buffer : Buffer) (drive : Drive) (k : Nat) : Drive :=
  drive.written (chunkAddress lba k) buffer (256 * k * sectorSize) (chunkLength count k)

namespace Chunks

def chunkAt (rest : Chunks) (k : Nat) : Chunk :=
  ⟨rest.next + UInt32.ofNat (256 * k), UInt32.ofNat (min 256 (rest.remaining.toNat - 256 * k))⟩

theorem toNat_sectors_chunkAt (rest : Chunks) (k : Nat) :
    (rest.chunkAt k).sectors.toNat = chunkLength rest.remaining k := by
  rw [chunkAt, UInt32.toNat_ofNat', chunkLength]
  exact Nat.mod_eq_of_lt (by omega)

theorem sentLba_chunkAt (rest : Chunks) (k : Nat) : (rest.chunkAt k).sentLba = chunkAddress rest.next k := by
  rw [Chunk.sentLba, sentAddress, chunkAt, UInt32.toNat_add, UInt32.toNat_ofNat', chunkAddress]
  omega

theorem chunkAt_zero (rest : Chunks) : rest.chunkAt 0 = ⟨rest.next, rest.sectors⟩ := by
  rw [chunkAt, Nat.mul_zero, Chunk.mk.injEq]
  refine ⟨UInt32.add_zero _, UInt32.toNat_inj.mp ?_⟩
  rw [UInt32.toNat_ofNat', toNat_sectors]
  omega

/-- There is a chunk after the first one only if the first one is full. -/
theorem toNat_sectors_of_lt {rest : Chunks} {k : Nat}
    (hk : k < length ⟨rest.next + rest.sectors, rest.remaining - rest.sectors⟩) : rest.sectors.toNat = 256 := by
  rw [length, toNat_remaining_sub] at hk
  rw [toNat_sectors]
  omega

theorem chunkAt_succ {rest : Chunks} (hfull : rest.sectors.toNat = 256) (k : Nat) :
    rest.chunkAt (k + 1) = chunkAt ⟨rest.next + rest.sectors, rest.remaining - rest.sectors⟩ k := by
  rw [chunkAt, chunkAt, Chunk.mk.injEq]
  refine ⟨UInt32.toNat_inj.mp ?_, UInt32.toNat_inj.mp ?_⟩
  · simp only [UInt32.toNat_add, UInt32.toNat_ofNat', hfull]
    omega
  · rw [UInt32.toNat_ofNat', UInt32.toNat_ofNat', toNat_remaining_sub]
    omega

theorem placed_toList (rest : Chunks) (offset : Nat) :
    placed offset rest.toList =
      (List.range rest.length).map fun k => (offset + 256 * k * sectorSize, rest.chunkAt k) := by
  induction rest using Chunks.induction generalizing offset with
  | nil rest h =>
      rw [toList_eq_nil h, length, h]
      rfl
  | cons rest h ih =>
      rw [toList_eq_cons h, placed, ih, length_eq_succ h, List.range_succ_eq_map, List.map_cons, List.map_map]
      refine congrArg₂ List.cons ?_ (List.map_congr_left fun k hk => ?_)
      · rw [chunkAt_zero, Nat.mul_zero, Nat.zero_mul, Nat.add_zero]
      · have hfull := toNat_sectors_of_lt (List.mem_range.mp hk)
        have hshift : 256 * (k + 1) * sectorSize = 256 * sectorSize + 256 * k * sectorSize := by
          rw [Nat.mul_add, Nat.add_mul, Nat.add_comm]
        rw [hfull, Function.comp_apply, Nat.succ_eq_add_one, chunkAt_succ hfull, hshift, Nat.add_assoc]

end Chunks

theorem Ended.done_le {total done announced : Nat} {result : Except AtaError Unit}
    (h : Ended total done announced result) : done ≤ total := by
  cases h with
  | finished => exact Nat.le_refl _
  | cutOff short => exact short.le

/-- Part `k` of a request, with the place of its data in the buffer. -/
def chunkPart (lba count : UInt32) (k : Nat) : Nat × Chunk := (256 * k * sectorSize, (chunks lba count).chunkAt k)

theorem chunkPart_injective (lba count : UInt32) : Function.Injective (chunkPart lba count) := by
  intro k k' h
  have hoffset : 256 * k * sectorSize = 256 * k' * sectorSize := congrArg Prod.fst h
  unfold sectorSize at hoffset
  omega

theorem placed_chunks (lba count : UInt32) :
    placed 0 (chunks lba count).toList = (List.range (chunks lba count).length).map (chunkPart lba count) := by
  rw [Chunks.placed_toList]
  simp only [Nat.zero_add]
  rfl

theorem take_placed_chunks {lba count : UInt32} {done : Nat} (hd : done ≤ (chunks lba count).length) :
    (placed 0 (chunks lba count).toList).take done = (List.range done).map (chunkPart lba count) := by
  rw [placed_chunks, ← List.map_take, List.take_range, Nat.min_eq_left hd]

theorem Emulator.Drive.overwritten_map (drive : Drive) (lba count : UInt32) (buffer : Buffer) (applied : List Nat) :
    drive.overwritten buffer (applied.map (chunkPart lba count)) =
      applied.foldl (withChunk lba count buffer) drive := by
  rw [overwritten, List.foldl_map]
  simp only [chunkPart, Chunks.sentLba_chunkAt, Chunks.toNat_sectors_chunkAt]
  rfl

theorem Emulator.Drive.reaches_chunkPart {drive : Drive} {lba count : UInt32} {k : Nat} :
    drive.Reaches (chunkPart lba count k).2 ↔ chunkAddress lba k + chunkLength count k ≤ drive.sectorCount := by
  rw [Reaches, chunkPart, Chunks.sentLba_chunkAt, Chunks.toNat_sectors_chunkAt]
  rfl

/-! ## Steps that do not write -/

theorem Work.spared {work : Work} {s t : Session Channel} (h : work.Run s t) (hw : ¬work.Writes) :
    s.device.Spared t.device := by
  cases work with
  | reset base settings => exact Channel.course_spared (BusM.reset_eq_ok h).course silent_resetCycles
  | identify slot timeoutMs =>
      obtain ⟨answer, h⟩ := h
      obtain ⟨trace, hidentified, hruns⟩ := BusM.identify_eq_ok h
      exact Channel.course_spared hruns.course hidentified.sends_nothing
  | move slot timeoutMs chunks payload =>
      cases payload with
      | read buffer =>
          obtain ⟨⟨result, payload'⟩, h⟩ := h
          obtain ⟨trace, hmoved, hruns⟩ := BusM.moveChunks_eq_ok h
          exact Channel.course_spared hruns.course (hmoved.silent rfl)
      | write buffer => exact absurd trivial hw

namespace Ide

variable {ide ide' : Ide Channel} {writing : Prop}

theorem Move.drive?_eq (h : ide.Move writing ide') (hw : ¬writing) : ide'.drive? = ide.drive? := by
  cases h with
  | worked work allowed found run => exact drive?_worked found (Work.spared run fun h => hw (allowed h)).drives
  | noted => rfl
  | started => rfl
  | enlisted => rfl

theorem Moves.drive?_eq (h : ide.Moves writing ide') (hw : ¬writing) : ide'.drive? = ide.drive? :=
  h.induction (fun heq move => (move.drive?_eq hw).trans heq) rfl

/-- A step that neither writes nor changes a device leaves all drives as they are. -/
theorem drive?_of_done {step : Step Channel} (h : step.Done ide ide') (hw : ¬step.Writes)
    (ha : ∀ controller change, step ≠ .alter controller change) : ide'.drive? = ide.drive? := by
  cases h with
  | moved moves => exact moves.drive?_eq hw
  | marked => rfl
  | altered => exact absurd rfl (ha _ _)
  | advanced => rfl

/-- A change of a device that does not touch its drives. -/
theorem drive?_altered (ide : Ide Channel) (controller : Nat) {change : Channel → Channel}
    (spares : ∀ channel slot, (change channel).drive slot = channel.drive slot) :
    (ide.altered controller change).drive? = ide.drive? := by
  funext other slot
  have hcontroller : (ide.altered controller change).controllers[other]? = if controller = other then
      ide.controllers[other]?.map fun c => { c with device := change c.device } else ide.controllers[other]? :=
    Array.getElem?_modify
  rw [drive?, drive?, hcontroller]
  split
  · cases ide.controllers[other]? with
    | none => rfl
    | some c => exact spares c.device slot
  · rfl

end Ide

/-! ## Steps that write -/

section

variable {ide ide' : Ide Channel} {index : Nat} {lba count : UInt32} {buffer : Buffer} {result : Except AtaError Unit}

/-- A request to write that is turned down leaves the devices alone. -/
theorem Transferred.turned_down {payload payload' : Payload}
    (h : Transferred ide index lba count payload (result, payload') ide')
    (hdown : ide.table.get? index = none ∨ payload.buffer.size < count.toNat * sectorSize) :
    result ≠ .ok () ∧ ide'.controllers = ide.controllers := by
  cases h with
  | unknown => exact ⟨nofun, rfl⟩
  | short => exact ⟨nofun, rfl⟩
  | moved known fits =>
      rcases hdown with hnone | hsmall
      · rw [known] at hnone
        cases hnone
      · exact absurd hsmall (Nat.not_lt.mpr fits)

/-- A request to write that reaches its channel writes some of the chunks that are done, each as a whole and in their
order, and all of them if no status is made up. -/
theorem Transferred.whole_chunks {payload' : Payload} {disk : Disk}
    (h : Transferred ide index lba count (.write buffer) (result, payload') ide')
    (hd : ide.table.get? index = some disk) (hb : count.toNat * sectorSize ≤ buffer.size) :
    ∃ controller trace done applied, ide.controllers[disk.controller]? = some controller ∧
      ide'.cycles disk.controller = ide.cycles disk.controller ++ trace ∧
      (ide'.controllers[disk.controller]?.map fun after => after.device.overrun) = some controller.device.overrun ∧
      Ended (chunks lba count).length done (announcements trace) result ∧ applied.Sublist (List.range done) ∧
      (controller.device.faults.Quiet → applied = List.range done) ∧
      ide'.drive? disk.controller disk.slot =
        (ide.drive? disk.controller disk.slot).map (applied.foldl (Drive.withChunk lba count buffer)) ∧
      (∀ drive, ide.drive? disk.controller disk.slot = some drive → ∀ k ∈ applied,
        chunkAddress lba k + chunkLength count k ≤ drive.sectorCount) ∧
      ∀ other slot, (other, slot) ≠ (disk.controller, disk.slot) → ide'.drive? other slot = ide.drive? other slot := by
  cases h with
  | unknown absent =>
      rw [hd] at absent
      cases absent
  | short known small => exact absurd small (Nat.not_lt.mpr hb)
  | @moved disk' controller session _ known fits found run =>
      cases hd.symm.trans known
      obtain ⟨trace, hmoved, hruns⟩ := BusM.moveChunks_eq_ok run
      have htotal := @Request.sectorTotal_le ⟨index, lba, count, .write buffer⟩ hb
      obtain ⟨done, parts, hended, hsublist, hrewritten, hall⟩ := Channel.course_chunks hmoved rfl
        (fun _ hc => Chunks.sectors_of_mem hc) htotal hruns.course
      rw [Chunks.length_toList] at hended
      rw [take_placed_chunks hended.done_le] at hsublist hall
      obtain ⟨applied, happlied, rfl⟩ := List.sublist_map_iff.mp hsublist
      refine ⟨controller, trace, done, applied, found, ?_, ?_, hended, happlied, ?_, ?_, ?_, ?_⟩
      · rw [Ide.worked_cycles_self, hruns.cycles, Ide.opened_cycles, List.nil_append]
      · rw [Ide.worked_controllers_self _ _ _ found]
        exact congrArg some hrewritten.overrun
      · intro quiet
        exact List.map_injective_iff.mpr (chunkPart_injective lba count) (hall quiet)
      · rw [Ide.drive?_worked_self found, Ide.drive?_of_found found, hrewritten.drive]
        simp only [Drive.overwritten_map]
        rfl
      · intro drive hdrive k hk
        rw [Ide.drive?_of_found found] at hdrive
        exact Drive.reaches_chunkPart.mp (hrewritten.reaches drive hdrive _ (List.mem_map_of_mem hk))
      · intro other slot hne
        by_cases ho : other = disk.controller
        · subst ho
          rw [Ide.drive?_worked_self found, Ide.drive?_of_found found]
          exact hrewritten.others slot fun hs => hne (by rw [hs])
        · exact Ide.drive?_worked_elsewhere ho slot

end

/-- Whatever was asked of a driver and whatever was done to its channels meanwhile, a request to write is answered as
long as the clock moves. If it is turned down, it leaves the devices alone. Otherwise some of the chunks that are done
are on the drive of the disk afterwards, each as a whole and in their order, and all of them if no status is made up.
Every other drive is as before, and no write goes past the end of an image. No other step of a driver changes any
drive. -/
theorem writes_whole_chunks {controllers : Array (Controller Channel)} {maxDisks : Nat} {clock : Clock}
    {settings : Settings} {steps : List (Step Channel)} {answers : List Answer} {ide : Ide Channel}
    (run : history steps (.fresh controllers maxDisks clock settings) = .ok (answers, ide)) :
    (∀ (index : Nat) (buffer : Buffer) (lba count : UInt32),
      (ide.clock.Moving → ∃ result ide', IdeM.writeSectors index buffer lba count ide = .ok (result, ide')) ∧
      ∀ result ide', IdeM.writeSectors index buffer lba count ide = .ok (result, ide') →
        (ide.table.get? index = none ∨ buffer.size < count.toNat * sectorSize →
          result ≠ .ok () ∧ ide'.controllers = ide.controllers) ∧
        ∀ disk, ide.table.get? index = some disk → count.toNat * sectorSize ≤ buffer.size →
          ∃ (controller : Controller Channel) (trace : List Cycle) (done : Nat) (applied : List Nat),
            ide.controllers[disk.controller]? = some controller ∧
            ide'.cycles disk.controller = ide.cycles disk.controller ++ trace ∧
            (ide'.controllers[disk.controller]?.map fun after => after.device.overrun) =
              some controller.device.overrun ∧
            Ended (chunks lba count).length done (announcements trace) result ∧ applied.Sublist (List.range done) ∧
            (controller.device.faults.Quiet → applied = List.range done) ∧
            ide'.drive? disk.controller disk.slot =
              (ide.drive? disk.controller disk.slot).map (applied.foldl (Drive.withChunk lba count buffer)) ∧
            (∀ drive, ide.drive? disk.controller disk.slot = some drive → ∀ k ∈ applied,
              chunkAddress lba k + chunkLength count k ≤ drive.sectorCount) ∧
            ∀ other slot, (other, slot) ≠ (disk.controller, disk.slot) →
              ide'.drive? other slot = ide.drive? other slot) ∧
    ∀ (step : Step Channel) answer ide', ¬step.Writes → (∀ controller change, step ≠ .alter controller change) →
      step.perform ide = .ok (answer, ide') → ide'.drive? = ide.drive? := by
  have placed : ide.Placed :=
    (history_done_induction (fun _ _ _ _ h done => h.performed done) (Ide.registered_fresh ..) run).placed
  refine ⟨fun index buffer lba count => ⟨fun moving => ?_, fun result ide' hwrite => ?_⟩, ?_⟩
  · exact IdeM.writeSectors_ends placed moving index buffer lba count
  · obtain ⟨payload, htransfer⟩ := IdeM.writeSectors_eq_ok hwrite
    exact ⟨htransfer.turned_down, fun disk hd hb => htransfer.whole_chunks hd hb⟩
  · intro step answer ide' hw ha hstep
    exact Ide.drive?_of_done (step.done hstep) hw ha

namespace Ide

/-- A drive of 300 sectors, all of them zero. -/
def sampleLongDrive : Drive := ⟨⟨.replicate 512 Identify.lbaCapable⟩, .replicate (300 * 512) 0⟩

def sampleLong : Ide Channel := .fresh #[⟨0x1f0, .idle (some sampleLongDrive) none .none⟩] 1 ⟨.hz200, 0, 1⟩ .standard

/-- A drive that does not ask for its page to be read still has it to send once the fault is gone. -/
def sampleStale : List (Step Channel) :=
  [.probe 0 .master, .alter 0 fun channel => { channel with faults := { channel.faults with withholdRequest := true } },
    .identify 0 .master 10, .alter 0 fun channel => { channel with faults := .none }]

theorem exists_sampleStale : ∃ answers ide disk controller, history sampleStale sampleLong = .ok (answers, ide) ∧
    ide.table.get? 0 = some disk ∧ disk.controller = 0 ∧ disk.slot = .master ∧
    ide.controllers[0]? = some controller ∧ controller.device.faults = .none ∧
    controller.device.status = Status.ready ||| Status.dataRequest := by
  have hrun : (match history sampleStale sampleLong with
      | .ok (_, ide) => (ide.table.get? 0).any fun disk => ide.controllers[0]?.any fun controller =>
          decide ((disk.controller = 0 ∧ disk.slot = .master) ∧ (controller.device.faults.statusOverride = none ∧
              controller.device.faults.withholdRequest = false ∧ controller.device.faults.failCommands = false ∧
              controller.device.faults.script = []) ∧
            controller.device.status = Status.ready ||| Status.dataRequest)
      | .error _ => false) = true := by decide +kernel
  split at hrun
  · rename_i answers ide run
    obtain ⟨disk, known, hrun⟩ := (Option.any_eq_true _ _).mp hrun
    obtain ⟨controller, found, hrun⟩ := (Option.any_eq_true _ _).mp hrun
    obtain ⟨⟨hcontroller, hslot⟩, cleared, asks⟩ := of_decide_eq_true hrun
    exact ⟨answers, ide, disk, controller, run, known, hcontroller, hslot, found, Faults.eq_none cleared, asks⟩
  · cases hrun

/-- None of these steps writes. -/
theorem drive?_sampleStale {answers : List Answer} {ide : Ide Channel}
    (run : history sampleStale sampleLong = .ok (answers, ide)) : ide.drive? 0 .master = some sampleLongDrive := by
  have hkept : ide.drive? = sampleLong.drive? := by
    refine history_induction (P := fun ide => ide.drive? = sampleLong.drive?) ?_ rfl run
    intro step hmem before after answer hbefore hstep
    rw [← hbefore]
    have hdone := step.done hstep
    simp only [sampleStale, List.mem_cons, List.not_mem_nil, or_false] at hmem
    rcases hmem with rfl | rfl | rfl | rfl
    · exact drive?_of_done hdone id nofun
    · cases hstep
      exact drive?_altered _ _ fun _ slot => by cases slot <;> rfl
    · exact drive?_of_done hdone id nofun
    · cases hstep
      exact drive?_altered _ _ fun _ slot => by cases slot <;> rfl
  rw [hkept]
  rfl

end Ide

/-- Sevens for 600 sectors. -/
def sampleSevens : Buffer := .replicate (600 * 512) 7

theorem Ide.withChunk_sampleLongDrive : sampleLongDrive.withChunk 0 600 sampleSevens 0 =
    sampleLongDrive.written 0 sampleSevens 0 256 := by
  rw [Drive.withChunk, show chunkAddress 0 0 = 0 by decide, show chunkLength 600 0 = 256 by decide, Nat.mul_zero,
    Nat.zero_mul]

theorem Emulator.Drive.sectorCount_replicate (page : Identify.Page) (sectors : Nat) (byte : UInt8) :
    sectorCount ⟨page, .replicate (sectors * 512) byte⟩ = sectors := by
  rw [sectorCount, Array.size_replicate]
  exact Nat.mul_div_cancel sectors (by decide)

theorem Ide.sectorCount_sampleLongDrive : sampleLongDrive.sectorCount = 300 := Drive.sectorCount_replicate ..

theorem Ide.withChunk_sampleLongDrive_ne : sampleLongDrive.withChunk 0 600 sampleSevens 0 ≠ sampleLongDrive := by
  intro h
  have hroom : 0 + 256 * sectorSize ≤ sampleSevens.size := by
    rw [sampleSevens, Array.size_replicate, sectorSize]
    decide
  have hreach : 0 + 256 ≤ sampleLongDrive.sectorCount := by
    rw [sectorCount_sampleLongDrive]
    decide
  have hwritten := Drive.sector?_written_inside (i := 0) (by decide) hroom hreach
  rw [← withChunk_sampleLongDrive, h, Nat.add_zero, Nat.zero_mul] at hwritten
  obtain ⟨sector, hsector⟩ := Drive.exists_sector? (Nat.lt_of_lt_of_le (Nat.zero_lt_succ 255) hreach)
  have hzero := Buffer.sector?_eq_some_iff.mp hsector 0 (by decide)
  have hseven := Buffer.sector?_eq_some_iff.mp (hwritten.symm.trans hsector) 0 (by decide)
  rw [sampleLongDrive, Array.getElem?_replicate, if_pos (by decide)] at hzero
  rw [sampleSevens, Array.getElem?_replicate, if_pos (by decide)] at hseven
  cases Option.some.inj (hzero.trans hseven.symm)

/-- A request to write them all, from the first sector on. -/
def Request.sampleSevens : Request := ⟨0, 0, 600, .write PolledAta.sampleSevens⟩

theorem Request.fits_sampleSevens : Request.sampleSevens.bytes ≤ Request.sampleSevens.buffer.size :=
  (Array.size_replicate ..).ge

theorem Request.service_sampleSevens : Request.sampleSevens.service Ide.sampleLongDrive =
    ⟨Ide.sampleLongDrive.withChunk 0 600 PolledAta.sampleSevens 0, Request.sampleSevens.payload, false⟩ := by
  have hfirst : Ide.sampleLongDrive.Reaches ⟨0, 256⟩ := by
    rw [Drive.reaches_mk, Ide.sectorCount_sampleLongDrive]
    decide
  have hsecond : ¬Ide.sampleLongDrive.Reaches ⟨256, 256⟩ := by
    rw [Drive.reaches_mk, Ide.sectorCount_sampleLongDrive]
    decide
  rw [service, Chunks.toList_eq_cons (by decide)]
  refine (Drive.serve_of_reaches hfirst).trans ?_
  rw [Chunks.toList_eq_cons (by decide)]
  refine (Drive.serve_of_not_reaches ?_).trans ?_
  · exact mt Drive.reaches_serveChunk.mp hsecond
  · rw [Ide.withChunk_sampleLongDrive]
    rfl

/-- Of three chunks for a drive of 300 sectors only the first one lies on it. -/
theorem sample_writes_whole_chunks : ∃ answers ide disk controller ide',
    history Ide.sampleStale Ide.sampleLong = .ok (answers, ide) ∧ ide.table.get? 0 = some disk ∧
    ide.controllers[disk.controller]? = some controller ∧
    controller.device.status = Status.ready ||| Status.dataRequest ∧
    IdeM.writeSectors 0 sampleSevens 0 600 ide = .ok (.error (.device 0x41), ide') ∧
    ide.drive? disk.controller disk.slot = some Ide.sampleLongDrive ∧
    ide'.drive? disk.controller disk.slot = some (Ide.sampleLongDrive.withChunk 0 600 sampleSevens 0) := by
  obtain ⟨answers, ide, disk, controller, run, known, hcontroller, hslot, found, cleared, asks⟩ :=
    Ide.exists_sampleStale
  obtain ⟨index, _, slot, info, status⟩ := disk
  obtain rfl : _ = 0 := hcontroller
  obtain rfl : slot = .master := hslot
  have hdrive := Ide.drive?_sampleStale run
  have hpresent : controller.device.drive .master = some Ide.sampleLongDrive :=
    (Ide.drive?_of_found found .master).symm.trans hdrive
  have hphase : controller.device.phase ≠ .failed := by
    intro hfailed
    cases hselected : controller.device.selected with
    | none =>
        rw [Channel.status_eq_zero cleared hselected] at asks
        cases asks
    | some drive =>
        rw [Channel.status_eq cleared hselected, hfailed] at asks
        cases asks
  obtain ⟨after, phase, hleads, hturned⟩ := Channel.leads_moveChunks_of_ready ide.settings.commandTimeoutMs cleared
    hphase hpresent (fun _ hc => Chunks.sectors_of_mem hc) (Request.sectorTotal_le Request.fits_sampleSevens)
  obtain ⟨session, hrun, rfl⟩ := hleads.run (ide.opened controller) rfl
  have hservice := Request.service_sampleSevens
  rw [Request.service] at hservice
  rw [hservice] at hrun hturned
  have hperform := Request.perform_of_moveChunks known Request.fits_sampleSevens found (.write _) hrun
  obtain ⟨hwrite, -⟩ := Request.writeSectors_of_perform hperform
  obtain ⟨hwrites, -⟩ := writes_whole_chunks run
  obtain ⟨-, hwhole⟩ := hwrites 0 sampleSevens 0 600
  obtain ⟨_, _, done, applied, hfound, -, -, hended, -, hall, hafter, hreach, -⟩ :=
    (hwhole _ _ hwrite).2 _ known Request.fits_sampleSevens
  cases found.symm.trans hfound
  obtain rfl := hall (cleared ▸ ⟨rfl, rfl⟩)
  rw [hdrive] at hafter
  have hfew : done < 2 := by
    by_contra hmany
    have hsecond := hreach _ hdrive 1 (List.mem_range.mpr (Nat.not_lt.mp hmany))
    rw [Ide.sectorCount_sampleLongDrive] at hsecond
    exact absurd hsecond (by decide)
  have hsome : done ≠ 0 := by
    rintro rfl
    rw [Ide.drive?_worked_self found, hturned.drive] at hafter
    exact Ide.withChunk_sampleLongDrive_ne (Option.some.inj hafter)
  obtain rfl : done = 1 := by omega
  exact ⟨answers, ide, _, controller, _, run, known, found, asks, hwrite, hdrive, hafter⟩

end PolledAta
