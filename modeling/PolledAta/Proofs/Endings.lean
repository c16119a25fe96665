import PolledAta.Proofs.Pace
import PolledAta.Proofs.Registry

/-!
# Every operation ends

While the clock moves, nothing that a device answers can keep the driver from coming to an end. How often the clock is
read until then is bounded by the waits of the operation.
-/

namespace PolledAta

variable {δ α β : Type}

/-! ## Programs on a channel -/

namespace BusM

/-- From every session with a clock like `clock` the program ends, after at most `limit` readings. -/
structure Ends (clock : Clock) (limit : Nat) (program : BusM δ α) : Prop where
  run : ∀ s : Session δ, clock.SamePace s.clock →
    ∃ a t, program s = .ok (a, t) ∧ t.readings.length ≤ s.readings.length + limit

variable {clock : Clock} {limit : Nat}

theorem Spends.ends {program : BusM δ α} (h : Spends clock limit program) (hm : clock.Moving)
    (hends : ∀ s : Session δ, s.clock.Moving → ∃ result, program s = .ok result) : Ends clock limit program := by
  refine ⟨fun s hp => ?_⟩
  obtain ⟨⟨a, t⟩, hrun⟩ := hends s (hp.moving hm)
  obtain ⟨n, hreads, hle⟩ := h.run hrun hp
  refine ⟨a, t, hrun, ?_⟩
  rw [hreads.shown]
  exact Nat.add_le_add_left (hle hm) _

variable [Bank δ]

/-- How an identification ends, by the way its two waits end. -/
inductive Identifies (slot : DriveSlot) (timeoutMs : UInt32) (s : Session δ) :
    Except AtaError Identify.Page → Session δ → Prop where
  | unready {error : AtaError} {u : Session δ}
      (ready : awaitStatus Status.ready timeoutMs (s.wrote .device slot.selectBase) = .ok (.error error, u)) :
      Identifies slot timeoutMs s (.error .noDevice) u
  | silent {status : UInt8} {error : AtaError} {u v : Session δ}
      (ready : awaitStatus Status.ready timeoutMs (s.wrote .device slot.selectBase) = .ok (.ok status, u))
      (data : awaitStatus Status.dataRequest timeoutMs (u.wrote .command Command.identify) = .ok (.error error, v)) :
      Identifies slot timeoutMs s (.error .notResponding) v
  | answered {status status' : UInt8} {u v w : Session δ} {bytes : Sector}
      (ready : awaitStatus Status.ready timeoutMs (s.wrote .device slot.selectBase) = .ok (.ok status, u))
      (data : awaitStatus Status.dataRequest timeoutMs (u.wrote .command Command.identify) = .ok (.ok status', v))
      (page : readSector v = .ok (bytes, w)) :
      Identifies slot timeoutMs s (if Identify.Page.supportsLba ⟨bytes⟩ then .ok ⟨bytes⟩ else .error .unsupported) w

theorem Identifies.run {slot : DriveSlot} {timeoutMs : UInt32} {s t : Session δ} {answer : Except AtaError Identify.Page}
    (h : Identifies slot timeoutMs s answer t) : identify slot timeoutMs s = .ok (answer, t) := by
  rw [identify, Program.bind_of_ok (write_eq ..)]
  cases h with
  | unready ready =>
      rw [Program.bind_of_ok ready]
      rfl
  | silent ready data =>
      rw [Program.bind_of_ok ready]
      simp only [Program.bind_of_ok (write_eq ..), Program.bind_of_ok data]
      rfl
  | @answered _ _ _ _ _ bytes ready data page =>
      rw [Program.bind_of_ok ready]
      simp only [Program.bind_of_ok (write_eq ..), Program.bind_of_ok data, Program.bind_of_ok page]
      cases Identify.Page.supportsLba ⟨bytes⟩ <;> rfl

theorem exists_identifies (s : Session δ) (slot : DriveSlot) (timeoutMs : UInt32) (hm : s.clock.Moving) :
    ∃ answer t, Identifies slot timeoutMs s answer t := by
  obtain ⟨_, ready, u, _, hready, _, hgrows⟩ :=
    awaitStatus_run (s.wrote .device slot.selectBase) Status.ready timeoutMs hm
  cases ready with
  | error error => exact ⟨_, u, .unready hready⟩
  | ok status =>
      have hmoving : (s.wrote .device slot.selectBase).clock.Moving := hm
      obtain ⟨_, data, v, _, hdata, _⟩ :=
        awaitStatus_run (u.wrote .command Command.identify) Status.dataRequest timeoutMs (hgrows.moving hmoving)
      cases data with
      | error error => exact ⟨_, v, .silent hready hdata⟩
      | ok status' =>
          obtain ⟨driven, w, hwords, _⟩ := readWords_run 256 v
          exact ⟨_, w, .answered hready hdata (Program.bind_of_ok hwords)⟩

theorem identify_ends (s : Session δ) (slot : DriveSlot) (timeoutMs : UInt32) (hm : s.clock.Moving) :
    ∃ answer t, identify slot timeoutMs s = .ok (answer, t) := by
  obtain ⟨answer, t, h⟩ := exists_identifies s slot timeoutMs hm
  exact ⟨answer, t, h.run⟩

end BusM

/-! ## The driver -/

namespace Ide

variable [Bank δ]

/-- How an operation ends that finds disks: with an answer, or with a disk for which no label is left. -/
inductive Ends (ide : Ide δ) (limit : Nat) : Except Fault (α × Ide δ) → Prop where
  | answered {answer : α} {ide' : Ide δ} (moves : ide.Moves False ide')
      (within : ide'.readings.length ≤ ide.readings.length + limit) : Ends ide limit (.ok (answer, ide'))
  | unlabelled {last : Ide δ} (moves : ide.Moves False last)
      (within : last.readings.length ≤ ide.readings.length + limit) (room : last.table.isFull = false)
      (unnamed : Label.ofIndex last.table.count = .error .overflow) : Ends ide limit (.error .overflow)

variable {ide : Ide δ} {limit limit' : Nat}

theorem Ends.trans {mid : Ide δ} {a : α} {result : Except Fault (β × Ide δ)} (h : ide.Ends limit (.ok (a, mid)))
    (h' : mid.Ends limit' result) : ide.Ends (limit + limit') result := by
  cases h with
  | answered moves within =>
      cases h' with
      | answered moves' within' => exact .answered (moves.trans moves') (by omega)
      | unlabelled moves' within' room unnamed => exact .unlabelled (moves.trans moves') (by omega) room unnamed

theorem Ends.bind {program : IdeM δ α} {next : α → IdeM δ β} (h : ide.Ends limit (program ide))
    (hn : ∀ a mid, program ide = .ok (a, mid) → ide.Moves False mid → mid.Ends limit' (next a mid)) :
    ide.Ends (limit + limit') ((program >>= next) ide) := by
  generalize hp : program ide = result at h
  cases h with
  | unlabelled moves within room unnamed =>
      rw [Program.bind_of_error hp]
      exact .unlabelled moves (by omega) room unnamed
  | @answered a mid moves within =>
      have hmid : ide.Ends limit (.ok (a, mid)) := .answered moves within
      rw [Program.bind_of_ok hp]
      exact hmid.trans (hn a mid hp moves)

theorem Ends.mono {result : Except Fault (α × Ide δ)} (h : ide.Ends limit result) (hle : limit ≤ limit') :
    ide.Ends limit' result := by
  cases h with
  | answered moves within => exact .answered moves (by omega)
  | unlabelled moves within room unnamed => exact .unlabelled moves (by omega) room unnamed

theorem ends_pure (a : α) : ide.Ends 0 ((pure a : IdeM δ α) ide) := .answered .refl (Nat.le_refl _)

/-- Moves that take no readings. -/
theorem Ends.of_moves {mid : Ide δ} {result : Except Fault (α × Ide δ)} (h : mid.Ends limit result)
    (start : ide.Moves False mid) (same : mid.readings = ide.readings) : ide.Ends limit result := by
  cases h with
  | answered moves within => exact .answered (start.trans moves) (same ▸ within)
  | unlabelled moves within room unnamed => exact .unlabelled (start.trans moves) (same ▸ within) room unnamed

theorem Ends.of_noted {result : Except Fault (α × Ide δ)} {records : List Log.Record}
    (h : (ide.noted records).Ends limit result) : ide.Ends limit result :=
  h.of_moves (.single (.noted records)) (readings_noted records)

theorem ends_onController (work : Work) (reads : ¬work.Writes) (hm : ide.clock.Moving) {program : BusM δ α} {index : Nat}
    {controller : Controller δ} {session : Session δ} {a : α} (found : ide.controllers[index]? = some controller)
    (hrun : program (ide.opened controller) = .ok (a, session)) (hw : work.Run (ide.opened controller) session) :
    ide.Ends (work.limit ide.clock) (IdeM.onController index program ide) := by
  obtain ⟨n, hreads, hle⟩ := Work.reads hw (.refl _)
  have hshown : session.readings.length = 0 + n := hreads.shown
  have hle : n ≤ work.limit ide.clock := hle hm
  rw [IdeM.onController_of_ok found hrun]
  refine .answered (.single (.worked work reads found hw)) ?_
  rw [readings_worked, List.length_append]
  omega

theorem ends_enrol {controller : Nat} (present : controller < ide.controllers.size) (slot : DriveSlot)
    (info : DriveInfo) : ide.Ends 0 (IdeM.enrol controller slot info ide) := by
  by_cases hlabelled : ide.table.isFull = false → ∃ label, Label.ofIndex ide.table.count = .ok label
  · obtain ⟨⟨answer, ide'⟩, hrun⟩ := IdeM.enrol_ends hlabelled controller slot info
    rw [hrun]
    rcases IdeM.enrol_eq_ok hrun with ⟨_, _, rfl⟩ | ⟨label, hroom, hlabel, _, rfl⟩
    · exact Ends.of_noted (ends_pure _)
    · refine .answered (.single (.enlisted slot info present hroom hlabel)) ?_
      rw [readings_enlisted]
      exact Nat.le_refl _
  · obtain ⟨hroom, hnone⟩ := Classical.not_imp.mp hlabelled
    cases hlabel : Label.ofIndex ide.table.count with
    | ok label => exact absurd ⟨label, hlabel⟩ hnone
    | error fault =>
        obtain rfl := Label.eq_overflow_of_error hlabel
        rw [IdeM.enrol_of_unlabelled hroom hlabel]
        exact .unlabelled .refl (Nat.le_refl _) hroom hlabel

/-- Two waits, for ready and for the page. -/
theorem ends_probe (hm : ide.clock.Moving) (index : Nat) (slot : DriveSlot) :
    ide.Ends (2 * ide.clock.waitLimit ide.settings.commandTimeoutMs) (IdeM.probe index slot ide) := by
  cases hc : ide.controllers[index]? with
  | none =>
      rw [IdeM.probe_of_absent hc]
      exact (ends_pure _).mono (Nat.zero_le _)
  | some controller =>
      obtain ⟨answer, session, hrun⟩ :=
        BusM.identify_ends (ide.opened controller) slot ide.settings.commandTimeoutMs hm
      obtain ⟨hlt, _⟩ := Array.getElem?_eq_some_iff.mp hc
      have hidentified := ends_onController (.identify slot _) id hm hc hrun ⟨_, hrun⟩
      rw [IdeM.onController_of_ok hc hrun] at hidentified
      cases answer with
      | error error =>
          rw [IdeM.probe_of_error hc hrun]
          exact hidentified.trans (Ends.of_noted (ends_pure _))
      | ok page =>
          have present (records : List Log.Record) :
              index < ((ide.worked index controller session).noted records).controllers.size :=
            hlt.trans_eq (size_worked ..).symm
          rw [IdeM.probe_of_page hc hrun]
          exact hidentified.trans (Ends.of_noted (ends_enrol (present _) ..))

theorem ends_reset (hm : ide.clock.Moving) {index : Nat} (present : index < ide.controllers.size) :
    ide.Ends (ide.clock.waitLimit ide.settings.resetHoldMs + ide.clock.waitLimit ide.settings.resetSettleMs)
      (IdeM.reset index ide) := by
  have hc := Array.getElem?_eq_getElem present
  obtain ⟨session, hrun⟩ := BusM.reset_ends (s := ide.opened ide.controllers[index])
    ide.controllers[index].base ide.settings hm
  rw [IdeM.reset, Program.bind_of_ok rfl, Program.bind_of_ok rfl]
  simp only [hc, Option.map_some]
  exact ends_onController (.reset _ ide.settings) id hm hc hrun hrun

/-- The readings that starting one controller can take: two delays, and two waits for each of its slots. -/
def startLimit (clock : Clock) (settings : Settings) : Nat :=
  clock.waitLimit settings.resetHoldMs + clock.waitLimit settings.resetSettleMs +
    4 * clock.waitLimit settings.commandTimeoutMs

theorem ends_initController (hm : ide.clock.Moving) {index : Nat} (present : index < ide.controllers.size) :
    ide.Ends (startLimit ide.clock ide.settings) (IdeM.initController index ide) := by
  have hprobe (mid : Ide δ) (kept : ide.Kept mid) (slot : DriveSlot) :
      mid.Ends (2 * ide.clock.waitLimit ide.settings.commandTimeoutMs) (IdeM.probe index slot mid) := by
    rw [← kept.settings, ← kept.pace.waitLimit_eq]
    exact ends_probe (kept.moving hm) index slot
  have hlimit : startLimit ide.clock ide.settings =
      (ide.clock.waitLimit ide.settings.resetHoldMs + ide.clock.waitLimit ide.settings.resetSettleMs) +
      (2 * ide.clock.waitLimit ide.settings.commandTimeoutMs +
        (2 * ide.clock.waitLimit ide.settings.commandTimeoutMs + 0)) := by
    rw [startLimit]
    omega
  rw [hlimit]
  refine Ends.bind (ends_reset hm present) fun _ afterReset _ moves => ?_
  refine Ends.bind (hprobe afterReset moves.kept .master) fun _ afterMaster _ moves' => ?_
  have moves : ide.Moves False afterMaster := moves.trans moves'
  exact Ends.bind (hprobe afterMaster moves.kept .slave) fun _ _ _ _ => ends_pure _

theorem ends_initControllers {indices : List Nat} (hm : ide.clock.Moving)
    (present : ∀ index ∈ indices, index < ide.controllers.size) :
    ide.Ends (indices.length * startLimit ide.clock ide.settings) (IdeM.initControllers indices ide) := by
  induction indices generalizing ide with
  | nil => exact (ends_pure _).mono (Nat.zero_le _)
  | cons index rest ih =>
      obtain ⟨hfirst, hothers⟩ := List.forall_mem_cons.mp present
      rw [List.length_cons, Nat.succ_mul, Nat.add_comm]
      refine Ends.bind (ends_initController hm hfirst) fun _ mid _ moves => ?_
      have kept := moves.kept
      have hrest := ih (kept.moving hm) fun other hother => (hothers other hother).trans_eq kept.controllers.symm
      rwa [startLimit, kept.settings, kept.pace.waitLimit_eq, kept.pace.waitLimit_eq, kept.pace.waitLimit_eq] at hrest

/-- A later start only logs. -/
theorem ends_init (hm : ide.clock.Moving) :
    ide.Ends (ide.controllers.size * startLimit ide.clock ide.settings) (IdeM.init ide) := by
  cases hi : ide.initialised with
  | true =>
      rw [IdeM.init, Program.bind_of_ok rfl, hi, if_pos rfl, IdeM.log_run]
      exact (Ends.of_noted (ends_pure _)).mono (Nat.zero_le _)
  | false =>
      have hstart : Ends { ide with initialised := true }
          ((List.range ide.controllers.size).length * startLimit ide.clock ide.settings)
          (IdeM.initControllers (List.range ide.controllers.size) { ide with initialised := true }) :=
        ends_initControllers hm fun _ => List.mem_range.mp
      rw [List.length_range] at hstart
      rw [IdeM.init, Program.bind_of_ok rfl, hi]
      exact hstart.of_moves (.single .started) rfl

end Ide

/-! ## Requests -/

theorem Request.ends [Bank δ] {ide : Ide δ} (placed : ide.Placed) (moving : ide.clock.Moving) (request : Request) :
    ∃ answer ide', request.perform ide = .ok (answer, ide') ∧
      ide'.readings.length ≤ ide.readings.length +
        (request.count.toNat + (request.count.toNat + 255) / 256) *
          ide.clock.waitLimit ide.settings.commandTimeoutMs := by
  cases hd : ide.table.get? request.index with
  | none =>
      refine ⟨_, _, request.perform_of_unknown hd, ?_⟩
      rw [Ide.readings_noted]
      exact Nat.le_add_right ..
  | some disk =>
      by_cases hshort : request.buffer.size < request.bytes
      · exact ⟨_, _, request.perform_of_short hd hshort, Nat.le_add_right ..⟩
      · have hfits : request.bytes ≤ request.buffer.size := Nat.not_lt.mp hshort
        obtain ⟨controller, hc⟩ := placed.of_get? hd
        obtain ⟨result, payload, trace, session, _, hrun, hmoved, _⟩ :=
          BusM.moveChunks_run disk.slot ide.settings.commandTimeoutMs (sectorTotal_le hfits)
            (s := ide.opened controller) moving
        refine ⟨_, _, request.perform_of_moveChunks hd hfits hc hmoved.became hrun, ?_⟩
        obtain ⟨n, hreads, hle⟩ := (BusM.spends_moveChunks ..).run hrun (.refl _)
        have hshown : session.readings.length = 0 + n := hreads.shown
        have hle := hle moving
        rw [Chunks.sectorTotal_toList, Chunks.length_toList] at hle
        rw [Ide.readings_worked, List.length_append, hshown, Nat.zero_add]
        exact Nat.add_le_add_left hle _

/-- While the clock moves, every request to write is answered. -/
theorem IdeM.writeSectors_ends [Bank δ] {ide : Ide δ} (placed : ide.Placed) (moving : ide.clock.Moving) (index : Nat)
    (buffer : Buffer) (lba count : UInt32) :
    ∃ result ide', writeSectors index buffer lba count ide = .ok (result, ide') := by
  obtain ⟨⟨result, after⟩, ide', hperform, _⟩ := Request.ends placed moving ⟨index, lba, count, .write buffer⟩
  exact ⟨result, ide', (Request.writeSectors_of_perform hperform).1⟩

/-! ## Histories -/

section

variable {ide : Ide δ}

namespace Step

theorem whenPresent_ends {controller : Nat} {program : IdeM δ Answer}
    (h : ∀ found, ide.controllers[controller]? = some found → ∃ result, program ide = .ok result) :
    ∃ result, whenPresent controller program ide = .ok result := by
  unfold whenPresent
  rw [Program.bind_of_ok rfl]
  cases hc : ide.controllers[controller]? with
  | none => exact ⟨_, rfl⟩
  | some found => exact h found hc

theorem onVolume_ends {index : Nat} {program : Volume → IdeM δ Answer}
    (h : ∀ volume, ∃ result, program volume ide = .ok result) : ∃ result, onVolume index program ide = .ok result := by
  unfold onVolume
  rw [Program.bind_of_ok rfl]
  cases ide.volume? index with
  | none => exact ⟨_, rfl⟩
  | some volume => exact h volume

end Step

variable [Bank δ]

/-- With at most 208 disks there is a label for each. -/
theorem Ide.Ends.exists_ok {limit : Nat} {result : Except Fault (α × Ide δ)} (h : ide.Ends limit result)
    (capacity : ide.table.capacity ≤ 208) : ∃ answer ide', result = .ok (answer, ide') := by
  cases h with
  | answered => exact ⟨_, _, rfl⟩
  | @unlabelled last moves within room unnamed =>
      have hroom : last.table.count < last.table.capacity := by simpa [DiskTable.isFull] using room
      have hcapacity := moves.kept.capacity
      obtain ⟨label, hlabel⟩ := Label.exists_ofIndex (i := last.table.count) (by omega)
      rw [hlabel] at unnamed
      cases unnamed

theorem Volume.readBlocks_ends (placed : ide.Placed) (moving : ide.clock.Moving) (volume : Volume) (lba : UInt32)
    (buffer : Buffer) : ∃ answer ide', volume.readBlocks lba buffer ide = .ok (answer, ide') := by
  unfold readBlocks
  cases blocksIn buffer.size with
  | error error => exact ⟨_, _, rfl⟩
  | ok count =>
      obtain ⟨answer, ide', hrun, _⟩ := Request.ends placed moving ⟨volume.index, lba, count, .read buffer⟩
      exact ⟨answer, ide', hrun⟩

theorem Volume.writeBlocks_ends (placed : ide.Placed) (moving : ide.clock.Moving) (volume : Volume) (lba : UInt32)
    (buffer : Buffer) : ∃ answer ide', volume.writeBlocks lba buffer ide = .ok (answer, ide') := by
  unfold writeBlocks
  cases blocksIn buffer.size with
  | error error => exact ⟨_, _, rfl⟩
  | ok count => exact IdeM.writeSectors_ends placed moving volume.index buffer lba count

/-- Every step is answered. -/
theorem Step.ends (placed : ide.Placed) (capacity : ide.table.capacity ≤ 208) (moving : ide.clock.Moving)
    (step : Step δ) : ∃ answer ide', step.perform ide = .ok (answer, ide') := by
  cases step with
  | init =>
      obtain ⟨_, ide', hrun⟩ := (Ide.ends_init moving).exists_ok capacity
      exact ⟨_, ide', Program.bind_of_ok hrun⟩
  | probe controller slot =>
      obtain ⟨answer, ide', hrun⟩ := (Ide.ends_probe moving controller slot).exists_ok capacity
      exact ⟨_, ide', Program.bind_of_ok hrun⟩
  | identify controller slot timeoutMs =>
      refine Prod.exists.mp (whenPresent_ends fun found hc => ?_)
      obtain ⟨answer, session, hrun⟩ := BusM.identify_ends (ide.opened found) slot timeoutMs moving
      exact ⟨_, Program.bind_of_ok (IdeM.onController_of_ok hc hrun)⟩
  | reset controller =>
      refine Prod.exists.mp (whenPresent_ends fun found hc => ?_)
      obtain ⟨present, _⟩ := Array.getElem?_eq_some_iff.mp hc
      obtain ⟨_, ide', hrun⟩ := (Ide.ends_reset moving present).exists_ok capacity
      exact ⟨_, Program.bind_of_ok hrun⟩
  | transfer request =>
      obtain ⟨answer, ide', hrun, _⟩ := request.ends placed moving
      exact ⟨_, ide', Program.bind_of_ok hrun⟩
  | readBlocks index lba buffer =>
      refine Prod.exists.mp (onVolume_ends fun volume => ?_)
      obtain ⟨answer, ide', hrun⟩ := volume.readBlocks_ends placed moving lba buffer
      exact ⟨_, Program.bind_of_ok hrun⟩
  | writeBlocks index lba buffer =>
      refine Prod.exists.mp (onVolume_ends fun volume => ?_)
      obtain ⟨answer, ide', hrun⟩ := volume.writeBlocks_ends placed moving lba buffer
      exact ⟨_, Program.bind_of_ok hrun⟩
  | setStatus index status =>
      cases hd : ide.table.get? index with
      | none => exact ⟨_, _, Program.bind_of_ok (IdeM.setStatus_of_unknown hd status)⟩
      | some disk => exact ⟨_, _, Program.bind_of_ok (IdeM.setStatus_of_known hd status)⟩
  | alter controller change => exact ⟨_, _, rfl⟩
  | advance ticks => exact ⟨_, _, rfl⟩

theorem history_ends (registered : ide.Registered) (capacity : ide.table.capacity ≤ 208) (moving : ide.clock.Moving)
    (steps : List (Step δ)) : ∃ answers ide', history steps ide = .ok (answers, ide') := by
  induction steps generalizing ide with
  | nil => exact ⟨_, _, rfl⟩
  | cons step rest ih =>
      obtain ⟨answer, mid, hstep⟩ := step.ends registered.placed capacity moving
      have hdone := step.done hstep
      have hkept := (Ide.Kept.refl ide).performed hdone
      obtain ⟨answers, ide', hrest⟩ :=
        ih (registered.performed hdone) (hkept.capacity.trans_le capacity) (hkept.moving moving)
      exact ⟨_, ide', (Program.bind_of_ok hstep).trans (Program.bind_of_ok hrest)⟩

end

/-- Nothing that the devices answer keeps a driver from coming to an end while its clock moves: not a wait, a delay, the
reset of a channel or the identification of a drive, and not a request, a probe or a start, whatever has been asked of
the driver before. Each of them reads the clock at most as often as its waits and delays can take together. -/
theorem every_operation_ends [Bank δ] {controllers : Array (Controller δ)} {maxDisks : Nat} {clock : Clock}
    {settings : Settings} (moving : clock.Moving) {steps : List (Step δ)} {answers : List Answer} {ide : Ide δ}
    (run : history steps (.fresh controllers maxDisks clock settings) = .ok (answers, ide)) :
    (∀ bits ms, BusM.Ends clock (clock.waitLimit ms) (BusM.awaitStatus bits ms : BusM δ _)) ∧
    (∀ ms, BusM.Ends clock (clock.waitLimit ms) (BusM.delayMs ms : BusM δ _)) ∧
    (∀ base other, BusM.Ends clock (clock.waitLimit other.resetHoldMs + clock.waitLimit other.resetSettleMs)
      (BusM.reset base other : BusM δ _)) ∧
    (∀ slot ms, BusM.Ends clock (2 * clock.waitLimit ms) (BusM.identify slot ms : BusM δ _)) ∧
    (∀ request : Request, ∃ answer ide', request.perform ide = .ok (answer, ide') ∧
      ide'.readings.length ≤ ide.readings.length +
        (request.count.toNat + (request.count.toNat + 255) / 256) * clock.waitLimit settings.commandTimeoutMs) ∧
    (∀ index slot, ide.Ends (2 * clock.waitLimit settings.commandTimeoutMs) (IdeM.probe index slot ide)) ∧
    ide.Ends (controllers.size * (clock.waitLimit settings.resetHoldMs + clock.waitLimit settings.resetSettleMs +
      4 * clock.waitLimit settings.commandTimeoutMs)) (IdeM.init ide) := by
  have kept : Ide.Kept (.fresh controllers maxDisks clock settings) ide := Ide.kept_history run
  have hm : ide.clock.Moving := kept.moving moving
  have hwait (ms : UInt32) : ide.clock.waitLimit ms = clock.waitLimit ms := kept.pace.waitLimit_eq ms
  have hsettings : ide.settings = settings := kept.settings
  have hsize : ide.controllers.size = controllers.size := kept.controllers
  have hreg := Ide.registered_history run
  refine ⟨fun bits ms => ?_, fun ms => ?_, fun base other => ?_, fun slot ms => ?_, fun request => ?_,
    fun index slot => ?_, ?_⟩
  · refine (BusM.spends_awaitStatus bits ms).ends moving fun s hs => ?_
    obtain ⟨_, answer, t, _, hrun, _⟩ := BusM.awaitStatus_run s bits ms hs
    exact ⟨_, hrun⟩
  · refine (BusM.spends_delayMs ms).ends moving fun s hs => ?_
    obtain ⟨t, hrun⟩ := BusM.delayMs_ends s ms hs
    exact ⟨_, hrun⟩
  · refine (BusM.spends_reset base other).ends moving fun s hs => ?_
    obtain ⟨t, hrun⟩ := BusM.reset_ends base other hs
    exact ⟨_, hrun⟩
  · refine (BusM.spends_identify slot).ends moving fun s hs => ?_
    obtain ⟨answer, t, hrun⟩ := BusM.identify_ends s slot ms hs
    exact ⟨_, hrun⟩
  · rw [← hsettings, ← hwait]
    exact request.ends hreg.placed hm
  · rw [← hsettings, ← hwait]
    exact Ide.ends_probe hm index slot
  · have hinit := Ide.ends_init hm
    rwa [Ide.startLimit, hsize, hsettings, hwait, hwait, hwait] at hinit

theorem sample_operations_end : ∃ answers ide, Ide.sample.clock.Moving ∧
    history [.init] Ide.sample = .ok (answers, ide) ∧
    (∀ buffer, ∃ answer ide', (Request.mk 0 0 1 (.read buffer)).perform ide = .ok (answer, ide') ∧
      ide'.readings.length ≤ ide.readings.length + 1204) ∧
    ide.Ends 2442 (IdeM.init ide) := by
  obtain ⟨ide, started, _⟩ := Ide.exists_init_sample
  have moving : Ide.sample.clock.Moving := ⟨by decide, by decide⟩
  have hstep : Step.init.perform Ide.sample = .ok (.done, ide) := Program.bind_of_ok started
  have run := history_singleton hstep
  have hwait : Ide.sample.clock.waitLimit Settings.standard.commandTimeoutMs = 602 := by decide
  have hhold : Ide.sample.clock.waitLimit Settings.standard.resetHoldMs = 22 := by decide
  have hsettle : Ide.sample.clock.waitLimit Settings.standard.resetSettleMs = 12 := by decide
  obtain ⟨_, _, _, _, hrequest, _, hinit⟩ := every_operation_ends moving run
  rw [hwait, hhold, hsettle] at hinit
  refine ⟨_, ide, moving, run, fun buffer => ?_, hinit⟩
  obtain ⟨answer, ide', hperform, hle⟩ := hrequest ⟨0, 0, 1, .read buffer⟩
  have hcount : (Request.mk 0 0 1 (.read buffer)).count.toNat = 1 := rfl
  rw [hwait, hcount] at hle
  exact ⟨answer, ide', hperform, hle⟩

end PolledAta
