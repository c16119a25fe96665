import Mathlib.Logic.Relation
import PolledAta.Proofs.History
import PolledAta.Proofs.Reached

/-!
# Moves of a driver

All that a driver does, but for marking a disk, is made of a few kinds of moves: it works on a channel, it logs, it is
started, and it enters a disk in its table. What every move keeps, every step of a history keeps.
-/

namespace PolledAta

variable {δ : Type}

/-! ## Marking a disk -/

/-- The driver once the disk at `index` has another status. -/
def Ide.marked (ide : Ide δ) (index : Nat) (disk : Disk) (status : MountStatus) : Ide δ :=
  { ide with table := ide.table.marked index { disk with status } }

namespace IdeM

variable {ide : Ide δ} {index : Nat}

theorem setStatus_of_unknown (h : ide.table.get? index = none) (status : MountStatus) :
    setStatus index status ide = .ok (.error (.badIndex index), ide) := by
  unfold setStatus
  refine (Program.bind_of_ok rfl).trans ?_
  rw [DiskTable.setStatus, h]
  rfl

theorem setStatus_of_known {disk : Disk} (h : ide.table.get? index = some disk) (status : MountStatus) :
    setStatus index status ide = .ok (.ok (), ide.marked index disk status) := by
  unfold setStatus
  refine (Program.bind_of_ok rfl).trans ?_
  rw [DiskTable.setStatus, h]
  rfl

end IdeM

/-! ## Steps on what may be absent -/

namespace Step

variable {ide ide' : Ide δ} {answer : Answer}

theorem whenPresent_eq_ok {controller : Nat} {program : IdeM δ Answer}
    (h : whenPresent controller program ide = .ok (answer, ide')) :
    (answer = .absent ∧ ide' = ide) ∨ program ide = .ok (answer, ide') := by
  unfold whenPresent at h
  obtain ⟨_, _, hget, h⟩ := Program.bind_eq_ok.mp h
  cases hget
  cases hc : ide.controllers[controller]? with
  | none =>
      rw [hc] at h
      cases h
      exact .inl ⟨rfl, rfl⟩
  | some _ =>
      rw [hc] at h
      exact .inr h

theorem onVolume_eq_ok {index : Nat} {program : Volume → IdeM δ Answer}
    (h : onVolume index program ide = .ok (answer, ide')) :
    (answer = .absent ∧ ide' = ide) ∨ ∃ volume, program volume ide = .ok (answer, ide') := by
  unfold onVolume at h
  obtain ⟨_, _, hget, h⟩ := Program.bind_eq_ok.mp h
  cases hget
  cases hv : ide.volume? index with
  | none =>
      rw [hv] at h
      cases h
      exact .inl ⟨rfl, rfl⟩
  | some volume =>
      rw [hv] at h
      exact .inr ⟨volume, h⟩

end Step

/-! ## Moves -/

variable [Bank δ]

/-- What a driver has a channel do. -/
inductive Work where
  | reset (base : UInt16) (settings : Settings)
  | identify (slot : DriveSlot) (timeoutMs : UInt32)
  | move (slot : DriveSlot) (timeoutMs : UInt32) (chunks : List Chunk) (payload : Payload)

namespace Work

/-- The work takes the channel from one state to the other. -/
def Run : Work → Session δ → Session δ → Prop
  | .reset base settings, s, t => BusM.reset base settings s = .ok ((), t)
  | .identify slot timeoutMs, s, t => ∃ answer, BusM.identify slot timeoutMs s = .ok (answer, t)
  | .move slot timeoutMs chunks payload, s, t =>
    ∃ answer, BusM.moveChunks slot timeoutMs chunks 0 payload s = .ok (answer, t)

def Writes : Work → Prop
  | .move _ _ _ (.write _) => True
  | _ => False

end Work

/-- One move of a driver, which writes to its disks only if `writing`. -/
inductive Ide.Move (writing : Prop) (ide : Ide δ) : Ide δ → Prop where
  | worked {index : Nat} {controller : Controller δ} {session : Session δ} (work : Work)
      (allowed : work.Writes → writing) (found : ide.controllers[index]? = some controller)
      (run : work.Run (ide.opened controller) session) : Move writing ide (ide.worked index controller session)
  | noted (records : List Log.Record) : Move writing ide (ide.noted records)
  | started : Move writing ide { ide with initialised := true }
  | enlisted {controller : Nat} (slot : DriveSlot) (info : DriveInfo) {label : Label}
      (present : controller < ide.controllers.size) (room : ide.table.isFull = false)
      (labelled : Label.ofIndex ide.table.count = .ok label) :
      Move writing ide (ide.enlisted ⟨ide.table.count, controller, slot, info, .uninitialized⟩ label)

/-- One move after the other. -/
abbrev Ide.Moves (writing : Prop) : Ide δ → Ide δ → Prop := Relation.ReflTransGen (Ide.Move writing)

/-- What each move keeps, a chain of moves keeps. -/
theorem Ide.Moves.induction {P : Ide δ → Prop} {writing : Prop} {ide ide' : Ide δ} (h : ide.Moves writing ide')
    (keeps : ∀ {before after : Ide δ}, P before → before.Move writing after → P after) (start : P ide) : P ide' := by
  induction h with
  | refl => exact start
  | tail _ move ih => exact keeps ih move

/-! ## The driver -/

section

variable {writing : Prop} {ide ide' : Ide δ} {index : Nat} {slot : DriveSlot}

theorem IdeM.Probed.moves {answer : Except AtaError Nat} (h : Probed ide index slot answer ide') :
    ide.Moves writing ide' := by
  cases h with
  | missing => exact .refl
  | refused found identified =>
      exact .tail (.single (.worked (.identify ..) False.elim found ⟨_, identified⟩)) (.noted _)
  | @enrolled controller session page _ _ found identified enrolment =>
      have hnoted : ide.Moves writing ((ide.worked index controller session).noted
          (IdeM.report controller.base slot ide.settings.dumpIdentify page)) :=
        .tail (.single (.worked (.identify ..) False.elim found ⟨_, identified⟩)) (.noted _)
      obtain ⟨hlt, _⟩ := Array.getElem?_eq_some_iff.mp found
      rcases IdeM.enrol_eq_ok enrolment with ⟨_, _, rfl⟩ | ⟨label, hroom, hlabel, _, rfl⟩
      · exact hnoted.tail (.noted _)
      · refine hnoted.tail (.enlisted slot _ ?_ hroom hlabel)
        exact hlt.trans_eq (Ide.size_worked ..).symm

theorem IdeM.moves_reset (h : IdeM.reset index ide = .ok ((), ide')) : ide.Moves writing ide' := by
  obtain ⟨controller, session, found, hrun, rfl⟩ := IdeM.reset_eq_ok h
  exact .single (.worked (.reset ..) False.elim found hrun)

theorem IdeM.moves_initControllers {indices : List Nat} (h : IdeM.initControllers indices ide = .ok ((), ide')) :
    ide.Moves writing ide' := by
  refine IdeM.initControllers_induction (P := fun _ => ide.Moves writing) ?_ .refl h
  intro _ rest before after hb hstep
  obtain ⟨_, _, _, _, hreset, hmaster, hslave⟩ := IdeM.initController_eq_ok hstep
  exact ((hb.trans (moves_reset hreset)).trans (probe_eq_ok hmaster).moves).trans (probe_eq_ok hslave).moves

theorem IdeM.moves_init (h : IdeM.init ide = .ok ((), ide')) : ide.Moves writing ide' := by
  rcases IdeM.init_eq_ok h with ⟨_, rfl⟩ | ⟨_, h⟩
  · exact .single (.noted _)
  · exact .head .started (moves_initControllers h)

theorem Transferred.moves {lba count : UInt32} {payload : Payload} {answer : Except AtaError Unit × Payload}
    (h : Transferred ide index lba count payload answer ide') (hw : (∃ buffer, payload = .write buffer) → writing) :
    ide.Moves writing ide' := by
  cases h with
  | unknown => exact .single (.noted _)
  | short => exact .refl
  | moved known fits found run =>
      refine .single (.worked (.move _ _ _ payload) ?_ found ⟨_, run⟩)
      cases payload with
      | read buffer => exact False.elim
      | write buffer => exact fun _ => hw ⟨buffer, rfl⟩

theorem IdeM.moves_readSectors {buffer after : Buffer} {lba count : UInt32} {result : Except AtaError Unit}
    (h : IdeM.readSectors index buffer lba count ide = .ok ((result, after), ide')) : ide.Moves writing ide' := by
  obtain ⟨_, htransfer, _⟩ := IdeM.readSectors_eq_ok h
  exact htransfer.moves nofun

theorem IdeM.moves_writeSectors {buffer : Buffer} {lba count : UInt32} {result : Except AtaError Unit} (hw : writing)
    (h : IdeM.writeSectors index buffer lba count ide = .ok (result, ide')) : ide.Moves writing ide' := by
  obtain ⟨_, htransfer⟩ := IdeM.writeSectors_eq_ok h
  exact htransfer.moves fun _ => hw

theorem Request.moves_perform {request : Request} {after : Buffer} {result : Except AtaError Unit}
    (h : request.perform ide = .ok ((result, after), ide')) :
    ide.Moves (∃ buffer, request.payload = .write buffer) ide' := by
  obtain ⟨index, lba, count, payload⟩ := request
  cases payload with
  | read buffer => exact IdeM.moves_readSectors h
  | write buffer => exact IdeM.moves_writeSectors ⟨buffer, rfl⟩ (writeSectors_of_perform h).1

theorem Volume.moves_readBlocks {volume : Volume} {lba : UInt32} {buffer after : Buffer} {result : Except AtaError Unit}
    (h : volume.readBlocks lba buffer ide = .ok ((result, after), ide')) : ide.Moves writing ide' := by
  unfold readBlocks at h
  cases hcount : blocksIn buffer.size with
  | error error =>
      rw [hcount] at h
      cases h
      exact .refl
  | ok count =>
      rw [hcount] at h
      exact IdeM.moves_readSectors h

theorem Volume.moves_writeBlocks {volume : Volume} {lba : UInt32} {buffer : Buffer} {result : Except AtaError Unit}
    (hw : writing) (h : volume.writeBlocks lba buffer ide = .ok (result, ide')) : ide.Moves writing ide' := by
  unfold writeBlocks at h
  cases hcount : blocksIn buffer.size with
  | error error =>
      rw [hcount] at h
      cases h
      exact .refl
  | ok count =>
      rw [hcount] at h
      exact IdeM.moves_writeSectors hw h

end

namespace Step

/-- Steps that write to a disk. -/
def Writes : Step δ → Prop
  | .transfer request => ∃ buffer, request.payload = .write buffer
  | .writeBlocks .. => True
  | _ => False

/-- What a step does: the driver moves, marks a disk, or is left alone while something around it changes. -/
inductive Done : Step δ → Ide δ → Ide δ → Prop where
  | moved {step : Step δ} {ide ide' : Ide δ} (moves : ide.Moves step.Writes ide') : Done step ide ide'
  | marked {index : Nat} {disk : Disk} {status : MountStatus} {ide : Ide δ}
      (known : ide.table.get? index = some disk) : Done (.setStatus index status) ide (ide.marked index disk status)
  | altered {controller : Nat} {change : δ → δ} {ide : Ide δ} :
      Done (.alter controller change) ide (ide.altered controller change)
  | advanced {ticks : UInt32} {ide : Ide δ} : Done (.advance ticks) ide (ide.advanced ticks)

variable {ide ide' : Ide δ} {answer : Answer}

theorem done (step : Step δ) (h : step.perform ide = .ok (answer, ide')) : step.Done ide ide' := by
  cases step with
  | init =>
      obtain ⟨_, _, hinit, h⟩ := Program.bind_eq_ok.mp h
      cases h
      exact .moved (IdeM.moves_init hinit)
  | probe controller slot =>
      obtain ⟨_, _, hprobe, h⟩ := Program.bind_eq_ok.mp h
      cases h
      exact .moved (IdeM.probe_eq_ok hprobe).moves
  | identify controller slot timeoutMs =>
      rcases whenPresent_eq_ok h with ⟨_, rfl⟩ | h
      · exact .moved .refl
      · obtain ⟨_, _, hwork, h⟩ := Program.bind_eq_ok.mp h
        cases h
        obtain ⟨_, _, found, hrun, rfl⟩ := IdeM.onController_eq_ok hwork
        exact .moved (.single (.worked (.identify ..) False.elim found ⟨_, hrun⟩))
  | reset controller =>
      rcases whenPresent_eq_ok h with ⟨_, rfl⟩ | h
      · exact .moved .refl
      · obtain ⟨_, _, hreset, h⟩ := Program.bind_eq_ok.mp h
        cases h
        exact .moved (IdeM.moves_reset hreset)
  | transfer request =>
      obtain ⟨⟨_, _⟩, _, hperform, h⟩ := Program.bind_eq_ok.mp h
      cases h
      exact .moved (Request.moves_perform hperform)
  | readBlocks index lba buffer =>
      rcases onVolume_eq_ok h with ⟨_, rfl⟩ | ⟨volume, h⟩
      · exact .moved .refl
      · obtain ⟨⟨_, _⟩, _, hread, h⟩ := Program.bind_eq_ok.mp h
        cases h
        exact .moved (Volume.moves_readBlocks hread)
  | writeBlocks index lba buffer =>
      rcases onVolume_eq_ok h with ⟨_, rfl⟩ | ⟨volume, h⟩
      · exact .moved .refl
      · obtain ⟨_, _, hwrite, h⟩ := Program.bind_eq_ok.mp h
        cases h
        exact .moved (Volume.moves_writeBlocks trivial hwrite)
  | setStatus index status =>
      obtain ⟨_, _, hset, h⟩ := Program.bind_eq_ok.mp h
      cases h
      cases hd : ide.table.get? index with
      | none =>
          rw [IdeM.setStatus_of_unknown hd] at hset
          cases hset
          exact .moved .refl
      | some disk =>
          rw [IdeM.setStatus_of_known hd] at hset
          cases hset
          exact .marked hd
  | alter controller change =>
      cases h
      exact .altered
  | advance ticks =>
      cases h
      exact .advanced

end Step

/-- What the work of each step keeps, a history keeps. -/
theorem history_done_induction {P : Ide δ → Prop} {steps : List (Step δ)} {answers : List Answer} {ide ide' : Ide δ}
    (keeps : ∀ step ∈ steps, ∀ {before after : Ide δ}, P before → step.Done before after → P after)
    (start : P ide) (h : history steps ide = .ok (answers, ide')) : P ide' :=
  history_induction (fun step hstep _ _ _ hp run => keeps step hstep hp (step.done run)) start h

end PolledAta
