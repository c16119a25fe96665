import PolledAta.Ide.Volume
import PolledAta.Proofs.Request

/-!
# Histories

What is asked of a driver, step by step, while its devices and its clock may change in between.
-/

namespace PolledAta

/-- A call of the driver, or a change around it. -/
inductive Step (δ : Type) where
  | init
  | probe (controller : Nat) (slot : DriveSlot)
  | identify (controller : Nat) (slot : DriveSlot) (timeoutMs : UInt32)
  | reset (controller : Nat)
  | transfer (request : Request)
  | readBlocks (index : Nat) (lba : UInt32) (buffer : Buffer)
  | writeBlocks (index : Nat) (lba : UInt32) (buffer : Buffer)
  | setStatus (index : Nat) (status : MountStatus)
  /-- A device becomes another one, for instance by a fault that comes or goes. -/
  | alter (controller : Nat) (change : δ → δ)
  | advance (ticks : UInt32)

inductive Answer where
  | done
  /-- There is no such controller, or no such volume. -/
  | absent
  | found (answer : Except AtaError Nat)
  | page (answer : Except AtaError Identify.Page)
  | moved (result : Except AtaError Unit) (buffer : Buffer)
  | marked (result : Except AtaError Unit)

variable {δ : Type}

def Ide.altered (ide : Ide δ) (controller : Nat) (change : δ → δ) : Ide δ :=
  { ide with controllers := ide.controllers.modify controller fun c => { c with device := change c.device } }

def Ide.advanced (ide : Ide δ) (ticks : UInt32) : Ide δ := { ide with clock := ide.clock.advance ticks }

namespace Step

def whenPresent (controller : Nat) (program : IdeM δ Answer) : IdeM δ Answer := do
  match (← get).controllers[controller]? with
  | none => return .absent
  | some _ => program

def onVolume (index : Nat) (program : Volume → IdeM δ Answer) : IdeM δ Answer := do
  match (← get).volume? index with
  | none => return .absent
  | some volume => program volume

variable [Bank δ]

def perform : Step δ → IdeM δ Answer
  | .init => do
    IdeM.init
    return .done
  | .probe controller slot => return .found (← IdeM.probe controller slot)
  | .identify controller slot timeoutMs => whenPresent controller do
    return .page (← IdeM.onController controller (BusM.identify slot timeoutMs))
  | .reset controller => whenPresent controller do
    IdeM.reset controller
    return .done
  | .transfer request => do
    let (result, buffer) ← request.perform
    return .moved result buffer
  | .readBlocks index lba buffer => onVolume index fun volume => do
    let (result, buffer) ← volume.readBlocks lba buffer
    return .moved result buffer
  | .writeBlocks index lba buffer => onVolume index fun volume => do
    return .moved (← volume.writeBlocks lba buffer) buffer
  | .setStatus index status => return .marked (← IdeM.setStatus index status)
  | .alter controller change => do
    modify (·.altered controller change)
    return .done
  | .advance ticks => do
    modify (·.advanced ticks)
    return .done

end Step

/-- One step after the other, with an answer to each. -/
def history [Bank δ] : List (Step δ) → IdeM δ (List Answer)
  | [] => return []
  | step :: rest => do
    let answer ← step.perform
    return answer :: (← history rest)

/-! ## Histories that end -/

section

variable [Bank δ] {ide ide' : Ide δ} {answers : List Answer}

theorem history_cons_eq_ok {step : Step δ} {rest : List (Step δ)}
    (h : history (step :: rest) ide = .ok (answers, ide')) :
    ∃ answer mid after, step.perform ide = .ok (answer, mid) ∧ history rest mid = .ok (after, ide') ∧
      answers = answer :: after := by
  obtain ⟨answer, mid, hstep, h⟩ := Program.bind_eq_ok.mp h
  obtain ⟨after, _, hrest, h⟩ := Program.bind_eq_ok.mp h
  cases h
  exact ⟨answer, mid, after, hstep, hrest, rfl⟩

theorem history_singleton {step : Step δ} {answer : Answer} (h : step.perform ide = .ok (answer, ide')) :
    history [step] ide = .ok ([answer], ide') := by
  rw [history, Program.bind_of_ok h]
  rfl

/-- What each step of a history keeps, the history keeps. -/
theorem history_induction {P : Ide δ → Prop} {steps : List (Step δ)}
    (keeps : ∀ step ∈ steps, ∀ {before after : Ide δ} {answer : Answer}, P before →
      step.perform before = .ok (answer, after) → P after)
    (start : P ide) (h : history steps ide = .ok (answers, ide')) : P ide' := by
  induction steps generalizing ide answers with
  | nil =>
      cases h
      exact start
  | cons step rest ih =>
      obtain ⟨answer, mid, later, hstep, hrest, rfl⟩ := history_cons_eq_ok h
      obtain ⟨hfirst, hothers⟩ := List.forall_mem_cons.mp keeps
      exact ih hothers (hfirst start hstep) hrest

end

end PolledAta
