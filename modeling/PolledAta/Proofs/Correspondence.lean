import PolledAta.Ide.Probe
import PolledAta.Ide.Transfer
import PolledAta.Proofs.Parallel

/-!
# One driver on two machines

A driver only reaches its channels, its timer and its log through a few operations. If two machines do these alike, they
do all programs of the driver alike.
-/

namespace PolledAta

/-- Which states of two machines are alike: of a channel at work, in a way that may depend on what was done before, and
of a driver. -/
structure Correspondence (δ κ δ' κ' : Type) where
  Past : Type
  sessions : Past → Session δ κ → Session δ' κ' → Prop
  drivers : Ide δ κ → Ide δ' κ' → Prop

variable {δ κ δ' κ' α : Type} {c : Correspondence δ κ δ' κ'}

/-- The programs on a channel end alike from sessions that are alike, whatever was done before. -/
structure BusM.Alike (c : Correspondence δ κ δ' κ') (program : TimedBusM δ κ α) (program' : TimedBusM δ' κ' α) :
    Prop where
  after : ∀ past, Parallel (c.sessions past) Eq program program'

/-- The programs end alike from drivers that are alike. -/
abbrev IdeM.Alike (c : Correspondence δ κ δ' κ') (program : TimedIdeM δ κ α) (program' : TimedIdeM δ' κ' α) : Prop :=
  Parallel c.drivers Eq program program'

section

variable [Wiring δ κ] [Host κ] [Wiring δ' κ'] [Host κ']

/-- Both machines do what programs on a channel are made of alike. -/
structure Correspondence.SoundOnChannels (c : Correspondence δ κ δ' κ') : Prop where
  write : ∀ reg value, BusM.Alike c (BusM.write reg value) (BusM.write reg value)
  readData : BusM.Alike c BusM.readData BusM.readData
  writeData : ∀ word, BusM.Alike c (BusM.writeData word) (BusM.writeData word)
  log : ∀ level text, BusM.Alike c (BusM.log level text) (BusM.log level text)
  delayMs : ∀ ms, BusM.Alike c (BusM.delayMs ms) (BusM.delayMs ms)
  awaitStatus : ∀ bits timeoutMs, BusM.Alike c (BusM.awaitStatus bits timeoutMs) (BusM.awaitStatus bits timeoutMs)

/-- They also do alike what programs of a driver are made of. -/
structure Correspondence.Sound (c : Correspondence δ κ δ' κ') : Prop extends c.SoundOnChannels where
  bases : ∀ x y, c.drivers x y → y.controllers.map (·.base) = x.controllers.map (·.base)
  table : ∀ x y, c.drivers x y → y.table = x.table
  settings : ∀ x y, c.drivers x y → y.settings = x.settings
  initialised : ∀ x y, c.drivers x y → y.initialised = x.initialised
  withTable : ∀ x y table, c.drivers x y → c.drivers { x with table } { y with table }
  started : ∀ x y, c.drivers x y → c.drivers { x with initialised := true } { y with initialised := true }
  mounted : ∀ x y index label, c.drivers x y → c.drivers { x with journal := x.journal.push (.mount index label) }
    { y with journal := y.journal.push (.mount index label) }
  logDriver : ∀ level text, IdeM.Alike c (IdeM.log level text) (IdeM.log level text)
  onController : ∀ {α : Type} (index : Nat) {program : TimedBusM δ κ α} {program' : TimedBusM δ' κ' α},
    BusM.Alike c program program' → IdeM.Alike c (IdeM.onController index program) (IdeM.onController index program')

/-- Both machines do single accesses alike, and the second is always ahead by one distance. -/
structure Correspondence.InStep (c : Correspondence δ κ δ' κ') (distance : UInt32) : Prop where
  rate : ∀ past s t, c.sessions past s t → Host.rate t.clock = Host.rate s.clock
  patience : Host.patience κ' = Host.patience κ
  read : ∀ reg, BusM.Alike c (BusM.read reg) (BusM.read reg)
  write : ∀ reg value, BusM.Alike c (BusM.write reg value) (BusM.write reg value)
  readData : BusM.Alike c BusM.readData BusM.readData
  writeData : ∀ word, BusM.Alike c (BusM.writeData word) (BusM.writeData word)
  readClock : ∀ past, Parallel (c.sessions past) (fun now now' => now' = now + distance) BusM.readClock BusM.readClock
  log : ∀ level text, BusM.Alike c (BusM.log level text) (BusM.log level text)

end

/-! ## Programs on a channel -/

theorem BusM.alike_pure (a : α) : Alike c (pure a) (pure a) := ⟨fun _ => parallel_pure rfl⟩

theorem BusM.alike_throw (fault : Fault) :
    Alike c (throw fault : TimedBusM δ κ α) (throw fault : TimedBusM δ' κ' α) := ⟨fun _ => parallel_throw fault⟩

theorem BusM.Alike.bind {β : Type} {program : TimedBusM δ κ α} {program' : TimedBusM δ' κ' α}
    {next : α → TimedBusM δ κ β} {next' : α → TimedBusM δ' κ' β} (h : Alike c program program')
    (hn : ∀ a, Alike c (next a) (next' a)) : Alike c (program >>= next) (program' >>= next') :=
  ⟨fun past => (h.after past).bind_eq fun a => (hn a).after past⟩

/-! ### Delays and waits -/

/-- A deadline that is as much later as the machine is ahead. -/
def LaterBy (distance : UInt32) (deadline deadline' : Deadline) : Prop := deadline'.tick = deadline.tick + distance

theorem LaterBy.passedAt_add {distance : UInt32} {deadline deadline' : Deadline} (h : LaterBy distance deadline deadline')
    (now : UInt32) : deadline'.passedAt (now + distance) = deadline.passedAt now := by
  have hahead : deadline'.tick - (now + distance) = deadline.tick - now := by
    rw [h]
    grind
  rw [Deadline.passedAt, hahead, Deadline.passedAt]

namespace Correspondence.InStep

open BusM

variable [Wiring δ κ] [Host κ] [Wiring δ' κ'] [Host κ'] {distance : UInt32} (inStep : c.InStep distance)

include inStep

theorem deadline (past : c.Past) (ticks : UInt32) :
    Parallel (c.sessions past) (LaterBy distance) (deadline ticks) (deadline ticks) := by
  have hread : Parallel (c.sessions past) (LaterBy distance)
      (do return ⟨(← BusM.readClock) + Deadline.duration ticks⟩)
      (do return ⟨(← BusM.readClock) + Deadline.duration ticks⟩) := by
    refine (inStep.readClock past).bind fun now now' hnow => parallel_pure ?_
    rw [LaterBy, hnow]
    simp only [UInt32.add_assoc, UInt32.add_comm distance]
  unfold BusM.deadline
  split
  · exact ((inStep.log ..).after past).bind_eq fun _ => hread
  · exact hread

theorem deadlineMs (past : c.Past) (ms : UInt32) :
    Parallel (c.sessions past) (LaterBy distance) (deadlineMs ms) (deadlineMs ms) := by
  refine parallel_get_bind fun s t h => ?_
  rw [inStep.rate past s t h]
  exact inStep.deadline past _

theorem expired (past : c.Past) {deadline deadline' : Deadline} (h : LaterBy distance deadline deadline') :
    Parallel (c.sessions past) Eq (expired deadline) (expired deadline') := by
  refine (inStep.readClock past).bind fun now now' hnow => parallel_pure ?_
  rw [hnow, h.passedAt_add]

theorem spin (past : c.Past) {deadline deadline' : Deadline} (h : LaterBy distance deadline deadline') (readings : Nat) :
    Parallel (c.sessions past) Eq (spin deadline readings) (spin deadline' readings) := by
  induction readings with
  | zero => exact parallel_throw _
  | succ readings ih =>
      refine (inStep.expired past h).bind_eq fun passed => ?_
      cases passed with
      | true => exact parallel_pure rfl
      | false => exact ih

theorem delayMs (ms : UInt32) : Alike c (delayMs ms) (delayMs ms) := by
  refine ⟨fun past => (inStep.deadlineMs past ms).bind fun deadline deadline' h => ?_⟩
  rw [waitUntil, waitUntil, inStep.patience]
  exact inStep.spin past h _

theorem poll (past : c.Past) (bits : UInt8) {deadline deadline' : Deadline} (h : LaterBy distance deadline deadline')
    (samples : Nat) : Parallel (c.sessions past) Eq (poll bits deadline samples) (poll bits deadline' samples) := by
  induction samples with
  | zero => exact parallel_throw _
  | succ samples ih =>
      refine ((inStep.read .status).after past).bind_eq fun status => ?_
      cases Status.judge status bits with
      | done => exact parallel_pure rfl
      | failed error => exact parallel_pure rfl
      | pending =>
          refine (inStep.expired past h).bind_eq fun passed => ?_
          cases passed with
          | true => exact ((inStep.log ..).after past).bind_eq fun _ => parallel_pure rfl
          | false => exact ih

theorem awaitStatus (bits : UInt8) (timeoutMs : UInt32) :
    Alike c (awaitStatus bits timeoutMs) (awaitStatus bits timeoutMs) := by
  refine ⟨fun past => ((inStep.read .altStatus).after past).bind_eq fun _ =>
    (inStep.deadlineMs past timeoutMs).bind fun deadline deadline' h => ?_⟩
  rw [inStep.patience]
  exact inStep.poll past bits h _

theorem onChannels : c.SoundOnChannels where
  write := inStep.write
  readData := inStep.readData
  writeData := inStep.writeData
  log := inStep.log
  delayMs := inStep.delayMs
  awaitStatus := inStep.awaitStatus

end Correspondence.InStep

namespace Correspondence.SoundOnChannels

open BusM

variable [Wiring δ κ] [Host κ] [Wiring δ' κ'] [Host κ'] (sound : c.SoundOnChannels)

include sound

/-! ### Sectors -/

theorem readWords (n : Nat) : Alike c (readWords n) (readWords n) := by
  induction n with
  | zero => exact alike_pure _
  | succ n ih => exact ih.bind fun _ => sound.readData.bind fun _ => alike_pure _

theorem writeWords (words : List UInt16) : Alike c (writeWords words) (writeWords words) := by
  induction words with
  | nil => exact alike_pure _
  | cons word words ih => exact (sound.writeData word).bind fun _ => ih

theorem readSector : Alike c readSector readSector := (sound.readWords 256).bind fun _ => alike_pure _

theorem moveSector (offset : Nat) (payload : Payload) :
    Alike c (moveSector offset payload) (moveSector offset payload) := by
  cases payload with
  | read buffer =>
      have hfill : Alike c (fillSector buffer offset) (fillSector buffer offset) := by
        unfold fillSector
        split
        · exact sound.readSector.bind fun _ => alike_pure _
        · exact alike_throw _
      exact hfill.bind fun _ => alike_pure _
  | write buffer =>
      have hsend : Alike c (sendSector buffer offset) (sendSector buffer offset) := by
        unfold sendSector
        cases buffer.sector? offset with
        | some sector => exact sound.writeWords _
        | none => exact alike_throw _
      exact hsend.bind fun _ => alike_pure _

theorem moveSectors (timeoutMs : UInt32) (count offset : Nat) (payload : Payload) :
    Alike c (moveSectors timeoutMs count offset payload) (moveSectors timeoutMs count offset payload) := by
  induction count generalizing offset payload with
  | zero => exact alike_pure _
  | succ count ih =>
      refine (sound.awaitStatus _ _).bind fun answer => ?_
      cases answer with
      | error error => exact alike_pure _
      | ok status => exact (sound.moveSector offset payload).bind fun _ => ih _ _

theorem selectSectors (slot : DriveSlot) (chunk : Chunk) :
    Alike c (selectSectors slot chunk) (selectSectors slot chunk) :=
  (sound.write ..).bind fun _ => (sound.write ..).bind fun _ => (sound.write ..).bind fun _ =>
    (sound.write ..).bind fun _ => sound.write ..

theorem moveChunks (slot : DriveSlot) (timeoutMs : UInt32) (list : List Chunk) (offset : Nat) (payload : Payload) :
    Alike c (moveChunks slot timeoutMs list offset payload) (moveChunks slot timeoutMs list offset payload) := by
  induction list generalizing offset payload with
  | nil => exact alike_pure _
  | cons chunk list ih =>
      refine (sound.selectSectors slot chunk).bind fun _ => (sound.awaitStatus _ _).bind fun answer => ?_
      cases answer with
      | error error => exact alike_pure _
      | ok status =>
          refine (sound.write ..).bind fun _ => (sound.moveSectors ..).bind fun moved => ?_
          obtain ⟨result, payload'⟩ := moved
          cases result with
          | error error => exact alike_pure _
          | ok _ => exact ih _ _

/-! ### Controllers -/

theorem reset (base : UInt16) (settings : Settings) : Alike c (reset base settings) (reset base settings) :=
  (sound.log ..).bind fun _ => (sound.write ..).bind fun _ => (sound.write ..).bind fun _ =>
    (sound.delayMs _).bind fun _ => (sound.write ..).bind fun _ => sound.delayMs _

theorem identify (slot : DriveSlot) (timeoutMs : UInt32) :
    Alike c (identify slot timeoutMs) (identify slot timeoutMs) := by
  refine (sound.write ..).bind fun _ => (sound.awaitStatus _ _).bind fun ready => ?_
  cases ready with
  | error error => exact alike_pure _
  | ok status =>
      refine (sound.write ..).bind fun _ => (sound.awaitStatus _ _).bind fun data => ?_
      cases data with
      | error error => exact alike_pure _
      | ok status =>
          refine sound.readSector.bind fun bytes => ?_
          dsimp only
          split
          · exact alike_pure _
          · exact alike_pure _

end Correspondence.SoundOnChannels

/-! ## The driver -/

theorem IdeM.alike_pure (a : α) : Alike c (pure a) (pure a) := parallel_pure rfl

namespace Correspondence.Sound

open IdeM

variable [Wiring δ κ] [Host κ] [Wiring δ' κ'] [Host κ'] (sound : c.Sound)

include sound

theorem base_eq {x : Ide δ κ} {y : Ide δ' κ'} (h : c.drivers x y) (index : Nat) :
    y.controllers[index]?.map (·.base) = x.controllers[index]?.map (·.base) := by
  rw [← Array.getElem?_map, sound.bases x y h, Array.getElem?_map]

theorem size_eq {x : Ide δ κ} {y : Ide δ' κ'} (h : c.drivers x y) : y.controllers.size = x.controllers.size := by
  simpa using congrArg Array.size (sound.bases x y h)

theorem replaceTable (table : DiskTable) :
    Alike c (modify fun ide : Ide δ κ => { ide with table }) (modify fun ide : Ide δ' κ' => { ide with table }) :=
  parallel_modify fun x y h => sound.withTable x y table h

theorem setStatus (index : Nat) (status : MountStatus) : Alike c (setStatus index status) (setStatus index status) := by
  refine parallel_get_bind fun x y h => ?_
  rw [sound.table x y h]
  cases x.table.setStatus index status with
  | error error => exact alike_pure _
  | ok table => exact (sound.replaceTable table).bind_eq fun _ => alike_pure _

theorem dumpPage (lines : List String) : Alike c (dumpPage lines) (dumpPage lines) := by
  induction lines with
  | nil => exact alike_pure _
  | cons line lines ih => exact (sound.logDriver ..).bind_eq fun _ => ih

theorem enrol (controller : Nat) (slot : DriveSlot) (info : DriveInfo) :
    Alike c (enrol controller slot info) (enrol controller slot info) := by
  refine parallel_get_bind fun x y h => ?_
  rw [sound.table x y h]
  cases x.table.register controller slot info with
  | error error => exact (sound.logDriver ..).bind_eq fun _ => alike_pure _
  | ok registered =>
      refine (parallel_lift _).bind_eq fun label => (sound.replaceTable _).bind_eq fun _ =>
        (sound.logDriver ..).bind_eq fun _ => Parallel.bind_eq ?_ fun _ => alike_pure _
      exact parallel_modify fun x y h => sound.mounted x y _ label h

theorem probe (controller : Nat) (slot : DriveSlot) : Alike c (probe controller slot) (probe controller slot) := by
  refine parallel_get_bind fun x y h => parallel_get_bind fun x' y' h' => ?_
  rw [sound.settings x y h, sound.base_eq h']
  cases x'.controllers[controller]?.map (·.base) with
  | none => exact alike_pure _
  | some base =>
      refine (sound.onController _ (sound.identify _ _)).bind_eq fun answer => ?_
      cases answer with
      | error error => exact (sound.logDriver ..).bind_eq fun _ => alike_pure _
      | ok page =>
          dsimp only
          split
          · exact (sound.dumpPage _).bind_eq fun _ => (sound.logDriver ..).bind_eq fun _ => sound.enrol ..
          · exact (sound.logDriver ..).bind_eq fun _ => sound.enrol ..

theorem resetController (controller : Nat) : Alike c (IdeM.reset controller) (IdeM.reset controller) := by
  refine parallel_get_bind fun x y h => parallel_get_bind fun x' y' h' => ?_
  rw [sound.settings x y h, sound.base_eq h']
  cases x'.controllers[controller]?.map (·.base) with
  | none => exact parallel_throw _
  | some base => exact sound.onController _ (sound.reset ..)

theorem initControllers (indices : List Nat) : Alike c (initControllers indices) (initControllers indices) := by
  induction indices with
  | nil => exact alike_pure _
  | cons index rest ih =>
      refine Parallel.bind_eq ?_ fun _ => ih
      exact (sound.resetController index).bind_eq fun _ => (sound.probe index _).bind_eq fun _ =>
        (sound.probe index _).bind_eq fun _ => alike_pure _

theorem init : Alike c init init := by
  refine parallel_get_bind fun x y h => ?_
  rw [sound.initialised x y h]
  split
  · exact sound.logDriver ..
  · refine (parallel_modify sound.started).bind_eq fun _ => parallel_get_bind fun x y h => ?_
    rw [sound.size_eq h]
    exact sound.initControllers _

theorem transfer (index : Nat) (lba count : UInt32) (payload : Payload) :
    Alike c (transfer index lba count payload) (transfer index lba count payload) := by
  refine parallel_get_bind fun x y h => ?_
  rw [sound.table x y h]
  cases x.table.get? index with
  | none => exact (sound.logDriver ..).bind_eq fun _ => alike_pure _
  | some disk =>
      dsimp only
      split
      · exact alike_pure _
      · refine parallel_get_bind fun x y h => ?_
        rw [sound.settings x y h]
        exact sound.onController _ (sound.moveChunks ..)

theorem readSectors (index : Nat) (buffer : Buffer) (lba count : UInt32) :
    Alike c (readSectors index buffer lba count) (readSectors index buffer lba count) :=
  (sound.transfer ..).bind_eq fun _ => alike_pure _

theorem writeSectors (index : Nat) (buffer : Buffer) (lba count : UInt32) :
    Alike c (writeSectors index buffer lba count) (writeSectors index buffer lba count) :=
  (sound.transfer ..).bind_eq fun _ => alike_pure _

end Correspondence.Sound

end PolledAta
