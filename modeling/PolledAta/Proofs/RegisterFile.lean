import Mathlib.Logic.Function.Basic
import PolledAta.Proofs.Placement

/-!
# Register files

A register file keeps what it is told: a byte for each register, and the word of the data port. A bank that does as a
register file does under every access does so under every sequence of operations, sectors included, and what such a
sequence reads is what was written last.
-/

namespace PolledAta

/-- Nine cells that know nothing of each other. -/
@[ext]
structure RegisterFile where
  registers : Register → UInt8
  data : UInt16

namespace RegisterFile

/-- Nothing has been written yet. -/
def blank : RegisterFile := ⟨fun _ => 0, 0⟩

def set (file : RegisterFile) (reg : Register) (value : UInt8) : RegisterFile :=
  { file with registers := Function.update file.registers reg value }

def setData (file : RegisterFile) (word : UInt16) : RegisterFile := { file with data := word }

theorem registers_set_self (file : RegisterFile) (reg : Register) (value : UInt8) :
    (file.set reg value).registers reg = value :=
  Function.update_self ..

theorem registers_set_of_ne (file : RegisterFile) {reg other : Register} (value : UInt8) (h : other ≠ reg) :
    (file.set reg value).registers other = file.registers other :=
  Function.update_of_ne h ..

instance : Bank RegisterFile where
  read file reg := (file.registers reg, file)
  write := set
  readData file := (some file.data, file)
  writeData := setData

end RegisterFile

/-! ## Operations -/

/-- What can be done with the registers of a channel. -/
inductive Operation where
  | read (reg : Register)
  | write (reg : Register) (value : UInt8)
  | readData
  | writeData (word : UInt16)
  /-- A sector is read into a buffer. -/
  | fill (buffer : Buffer) (offset : Nat) (room : offset + sectorSize ≤ buffer.size)
  /-- A sector of a buffer is sent. -/
  | send (buffer : Buffer) (offset : Nat) (enough : offset + sectorSize ≤ buffer.size)

namespace Operation

inductive Result where
  | done
  | byte (value : UInt8)
  | word (value : UInt16)
  | buffer (bytes : Buffer)
  deriving DecidableEq

def perform {δ κ : Type} [Bank δ] : Operation → TimedBusM δ κ Result
  | .read reg => return .byte (← BusM.read reg)
  | .write reg value => do
    BusM.write reg value
    return .done
  | .readData => return .word (← BusM.readData)
  | .writeData word => do
    BusM.writeData word
    return .done
  | .fill buffer offset _ => return .buffer (← BusM.fillSector buffer offset)
  | .send buffer offset _ => do
    BusM.sendSector buffer offset
    return .done

def performAll {δ κ : Type} [Bank δ] : List Operation → TimedBusM δ κ (List Result)
  | [] => return []
  | operation :: operations => do
    let result ← operation.perform
    return result :: (← performAll operations)

/-- The byte that the operation writes to this register. -/
def byteTo (reg : Register) : Operation → Option UInt8
  | .write other value => if other = reg then some value else none
  | _ => none

/-- The words that the operation writes to the data port. -/
def words : Operation → List UInt16
  | .writeData word => [word]
  | .send buffer offset _ => ((buffer.sector? offset).map (·.words.toList)).getD []
  | _ => []

/-- What the operation reads if the cells hold these values. -/
def result (file : RegisterFile) : Operation → Result
  | .read reg => .byte (file.registers reg)
  | .readData => .word file.data
  | .fill buffer offset _ => .buffer (buffer.put offset (wordBytes (List.replicate sectorWords file.data)))
  | _ => .done

end Operation

namespace RegisterFile

/-- Every cell holds what was written to it last; if nothing was, what it held before. -/
def after (file : RegisterFile) (operations : List Operation) : RegisterFile where
  registers reg := (operations.filterMap (Operation.byteTo reg)).getLast?.getD (file.registers reg)
  data := (operations.flatMap Operation.words).getLast?.getD file.data

variable (file : RegisterFile)

@[simp]
theorem after_nil : file.after [] = file := rfl

theorem after_append (first second : List Operation) :
    file.after (first ++ second) = (file.after first).after second := by
  ext
  · simp only [after, List.filterMap_append, List.getLast?_append, Option.getD_or]
  · simp only [after, List.flatMap_append, List.getLast?_append, Option.getD_or]

theorem after_cons (operation : Operation) (operations : List Operation) :
    file.after (operation :: operations) = (file.after [operation]).after operations :=
  file.after_append [operation] operations

theorem after_write (reg : Register) (value : UInt8) : file.after [.write reg value] = file.set reg value := by
  ext other
  · by_cases h : other = reg
    · rw [h, registers_set_self]
      simp [after, Operation.byteTo]
    · rw [file.registers_set_of_ne value h]
      simp [after, Operation.byteTo, Ne.symm h]
  · rfl

end RegisterFile

/-! ## Banks that do as a register file does -/

/-- `Shows device file` is kept by every access, and what is read is in the file. -/
structure Mirrors {δ : Type} [Bank δ] (Shows : δ → RegisterFile → Prop) : Prop where
  read : ∀ {device file} reg, Shows device file →
    (Bank.read device reg).1 = file.registers reg ∧ Shows (Bank.read device reg).2 file
  write : ∀ {device file} reg value, Shows device file → Shows (Bank.write device reg value) (file.set reg value)
  readData : ∀ {device file}, Shows device file →
    (Bank.readData device).1 = some file.data ∧ Shows (Bank.readData device).2 file
  writeData : ∀ {device file} word, Shows device file → Shows (Bank.writeData device word) (file.setData word)

theorem RegisterFile.mirrors_eq : Mirrors (fun device file : RegisterFile => device = file) where
  read _ h := ⟨by rw [h]; rfl, h⟩
  write _ _ h := by rw [h]; rfl
  readData h := ⟨by rw [h]; rfl, h⟩
  writeData _ h := by rw [h]; rfl

namespace Mirrors

variable {δ κ : Type} [Bank δ] {Shows : δ → RegisterFile → Prop} (mirrors : Mirrors Shows) {s : Session δ κ}
  {file : RegisterFile}

include mirrors

theorem readData_run (h : Shows s.device file) : ∃ t, BusM.readData s = .ok (file.data, t) ∧ Shows t.device file := by
  obtain ⟨hdriven, hnext⟩ := mirrors.readData h
  have hread : BusM.readData s = .ok (dataLines (Bank.readData s.device).1, ⟨(Bank.readData s.device).2, s.clock,
    s.history.push (.cycle (.readData (Bank.readData s.device).1))⟩) := rfl
  rw [hdriven] at hread
  exact ⟨_, hread, hnext⟩

theorem readWords_run (n : Nat) (h : Shows s.device file) :
    ∃ t, BusM.readWords n s = .ok (Vector.replicate n file.data, t) ∧ Shows t.device file := by
  induction n with
  | zero => exact ⟨s, rfl, h⟩
  | succ n ih =>
      obtain ⟨t, hrun, ht⟩ := ih
      obtain ⟨u, hread, hu⟩ := mirrors.readData_run ht
      refine ⟨u, ?_, hu⟩
      rw [BusM.readWords, Program.bind_of_ok hrun, Program.bind_of_ok hread, Vector.replicate_succ]
      rfl

/-- Of several words the last one stays. -/
theorem writeWords_run (words : List UInt16) (h : Shows s.device file) :
    ∃ t, BusM.writeWords words s = .ok ((), t) ∧ Shows t.device (file.setData (words.getLast?.getD file.data)) := by
  induction words generalizing s file with
  | nil => exact ⟨s, rfl, h⟩
  | cons word words ih =>
      obtain ⟨t, hrun, ht⟩ := ih (s := ⟨Bank.writeData s.device word, s.clock, _⟩) (mirrors.writeData word h)
      refine ⟨t, (Program.bind_of_ok rfl).trans hrun, ?_⟩
      rwa [List.getLast?_cons, Option.getD_some]

theorem perform_run (operation : Operation) (h : Shows s.device file) :
    ∃ t, operation.perform s = .ok (operation.result file, t) ∧ Shows t.device (file.after [operation]) := by
  cases operation with
  | read reg =>
      obtain ⟨hvalue, hnext⟩ := mirrors.read reg h
      have hread : BusM.read reg s = .ok ((Bank.read s.device reg).1, ⟨(Bank.read s.device reg).2, s.clock,
        s.history.push (.cycle (.read reg (Bank.read s.device reg).1))⟩) := rfl
      rw [hvalue] at hread
      exact ⟨_, Program.bind_of_ok hread, hnext⟩
  | write reg value =>
      refine ⟨_, rfl, ?_⟩
      rw [file.after_write]
      exact mirrors.write reg value h
  | readData =>
      obtain ⟨t, hread, ht⟩ := mirrors.readData_run h
      exact ⟨t, Program.bind_of_ok hread, ht⟩
  | writeData word => exact ⟨_, rfl, mirrors.writeData word h⟩
  | fill buffer offset room =>
      obtain ⟨t, hread, ht⟩ := mirrors.readWords_run 256 h
      have hsector : BusM.readSector s = .ok (Sector.ofWords (Vector.replicate 256 file.data), t) :=
        Program.bind_of_ok hread
      have hfill : BusM.fillSector buffer offset s =
          .ok (buffer.put offset (wordBytes (List.replicate sectorWords file.data)), t) := by
        rw [BusM.fillSector, if_pos room, Program.bind_of_ok hsector, Sector.toList_ofWords, Vector.toList_replicate]
        rfl
      exact ⟨t, Program.bind_of_ok hfill, ht⟩
  | send buffer offset enough =>
      obtain ⟨sector, hsector⟩ := Buffer.exists_sector? enough
      obtain ⟨t, hwrite, ht⟩ := mirrors.writeWords_run sector.words.toList h
      have hsend : BusM.sendSector buffer offset s = .ok ((), t) := by
        rw [BusM.sendSector, hsector]
        exact hwrite
      refine ⟨t, Program.bind_of_ok hsend, ?_⟩
      have hafter : file.after [.send buffer offset enough] =
          file.setData (sector.words.toList.getLast?.getD file.data) := by
        simp [RegisterFile.after, RegisterFile.setData, Operation.byteTo, Operation.words, hsector]
      rwa [hafter]

/-- What an operation reads was written last by those before it. -/
theorem performAll_run (operations : List Operation) (h : Shows s.device file) :
    ∃ results t, Operation.performAll operations s = .ok (results, t) ∧ Shows t.device (file.after operations) ∧
      ∀ i, results[i]? = operations[i]?.map (Operation.result (file.after (operations.take i))) := by
  induction operations generalizing s file with
  | nil => exact ⟨[], s, rfl, h, fun i => by simp⟩
  | cons operation operations ih =>
      obtain ⟨t, hfirst, ht⟩ := mirrors.perform_run operation h
      obtain ⟨results, u, hrest, hu, hresults⟩ := ih ht
      refine ⟨operation.result file :: results, u, ?_, ?_, fun i => ?_⟩
      · rw [Operation.performAll, Program.bind_of_ok hfirst, Program.bind_of_ok hrest]
        rfl
      · rwa [file.after_cons]
      · cases i with
        | zero => simp
        | succ i => simp [hresults, file.after_cons operation (operations.take i)]

end Mirrors

end PolledAta
