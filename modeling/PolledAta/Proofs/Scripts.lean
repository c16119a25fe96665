import PolledAta.Proofs.Course
import PolledAta.Proofs.Request

/-!
# What is in a script

What the cycles of a run select and command, and which runs send no data at all.
-/

namespace PolledAta

/-! ## Writing no register -/

/-- No register is written. -/
def Unwritten (trace : List Cycle) : Prop := ∀ reg value, Cycle.write reg value ∉ trace

theorem Unwritten.append {first second : List Cycle} (h : Unwritten first) (h' : Unwritten second) :
    Unwritten (first ++ second) :=
  fun reg value hw => (List.mem_append.mp hw).elim (h reg value) (h' reg value)

theorem unwritten_readData (driven : List (Option UInt16)) : Unwritten (driven.map .readData) := by
  intro reg value
  simp

theorem Waited.unwritten {bits : UInt8} {trace : List Cycle} {answer : Except AtaError UInt8}
    (h : Waited bits trace answer) : Unwritten trace := by
  intro reg value
  cases h with
  | intro => simp

theorem SectorMoved.unwritten {offset : Nat} {payload payload' : Payload} {words : List Cycle}
    (h : SectorMoved offset payload words payload') : Unwritten words := by
  intro reg value
  cases h with
  | filled => simp
  | sent => simp

theorem SectorsMoved.unwritten {count offset : Nat} {payload payload' : Payload} {trace : List Cycle}
    {result : Except AtaError Unit} (h : SectorsMoved count offset payload trace result payload') :
    Unwritten trace := by
  induction h with
  | finished => exact fun _ _ => List.not_mem_nil
  | cutOff wait => exact wait.unwritten
  | moved wait sector _ ih => exact (wait.unwritten.append sector.unwritten).append ih

/-! ## Selecting a slot -/

/-- How often a slot has been selected. A transfer does so once for each chunk, before anything else. -/
def announcements (trace : List Cycle) : Nat :=
  trace.countP fun
    | .write .device _ => true
    | _ => false

theorem announcements_append (first second : List Cycle) :
    announcements (first ++ second) = announcements first + announcements second :=
  List.countP_append

theorem announcements_selectCycles (slot : DriveSlot) (chunk : Chunk) : announcements (selectCycles slot chunk) = 1 :=
  rfl

theorem Unwritten.announcements_eq {trace : List Cycle} (h : Unwritten trace) : announcements trace = 0 := by
  refine List.countP_eq_zero.mpr fun cycle hc => ?_
  cases cycle with
  | write reg value => exact absurd hc (h reg value)
  | _ => simp

theorem announcements_chunk {slot : DriveSlot} {chunk : Chunk} {value : UInt8} {waits sectors : List Cycle}
    {answer : Except AtaError UInt8} {count offset : Nat} {payload payload' : Payload} {result : Except AtaError Unit}
    (wait : Waited Status.ready waits answer) (moved : SectorsMoved count offset payload sectors result payload') :
    announcements (selectCycles slot chunk ++ waits ++ [.write .command value] ++ sectors) = 1 := by
  rw [announcements_append, announcements_append, announcements_append, wait.unwritten.announcements_eq,
    moved.unwritten.announcements_eq]
  rfl

/-- How a transfer of `total` chunks ends: the chunks that are done were announced, and one more if it fails. -/
inductive Ended (total : Nat) : (done announced : Nat) → Except AtaError Unit → Prop where
  | finished : Ended total total total (.ok ())
  | cutOff {done : Nat} {error : AtaError} (short : done < total) : Ended total done (done + 1) (.error error)

theorem Ended.succ {total done announced : Nat} {result : Except AtaError Unit}
    (h : Ended total done announced result) : Ended (total + 1) (done + 1) (1 + announced) result := by
  rw [Nat.add_comm 1]
  cases h with
  | finished => exact .finished
  | cutOff short => exact .cutOff (Nat.succ_lt_succ short)

/-! ## Commands -/

/-- The slot that is selected after a cycle. -/
def Cycle.selects (slot : DriveSlot) : Cycle → DriveSlot
  | .write .device value => .ofDevice value
  | _ => slot

def selection (slot : DriveSlot) (trace : List Cycle) : DriveSlot := trace.foldl Cycle.selects slot

/-- The commands of a trace, each with the slot that is selected when it is given. -/
def commands : DriveSlot → List Cycle → List (DriveSlot × UInt8)
  | _, [] => []
  | slot, .write .command value :: rest => (slot, value) :: commands slot rest
  | slot, cycle :: rest => commands (cycle.selects slot) rest

theorem commands_append (slot : DriveSlot) (first second : List Cycle) :
    commands slot (first ++ second) = commands slot first ++ commands (selection slot first) second := by
  induction first generalizing slot with
  | nil => rfl
  | cons cycle first ih =>
      cases cycle with
      | write reg value => cases reg <;> simp [commands, selection, Cycle.selects, ih]
      | _ => simp [commands, selection, Cycle.selects, ih]

theorem selection_append (slot : DriveSlot) (first second : List Cycle) :
    selection slot (first ++ second) = selection (selection slot first) second :=
  List.foldl_append

theorem Unwritten.commands_eq {trace : List Cycle} (h : Unwritten trace) (slot : DriveSlot) :
    commands slot trace = [] ∧ selection slot trace = slot := by
  induction trace with
  | nil => exact ⟨rfl, rfl⟩
  | cons cycle trace ih =>
      have hrest := ih fun reg value hw => h reg value (List.mem_cons_of_mem _ hw)
      cases cycle with
      | write reg value => exact absurd List.mem_cons_self (h reg value)
      | _ => exact hrest

theorem commands_resetCycles (slot : DriveSlot) : commands slot BusM.resetCycles = [] := rfl

/-- A slot is sent the command to identify itself once, if it turns out that a drive is there. -/
theorem Identified.commands_eq {slot : DriveSlot} {trace : List Cycle} {answer : Except AtaError Identify.Page}
    (h : Identified slot trace answer) (selected : DriveSlot) :
    (answer = .error .noDevice ∧ commands selected trace = []) ∨
    (answer ≠ .error .noDevice ∧ commands selected trace = [(slot, Command.identify)]) := by
  have hselect : commands selected [.write .device slot.selectBase] = [] ∧
      selection selected [.write .device slot.selectBase] = slot := ⟨rfl, slot.ofDevice_selectBase⟩
  cases h with
  | missing wait =>
      refine .inl ⟨rfl, ?_⟩
      rw [commands_append, hselect.1, hselect.2, (wait.unwritten.commands_eq slot).1]
      rfl
  | silent ready wait =>
      refine .inr ⟨nofun, ?_⟩
      simp only [commands_append, selection_append, hselect.1, hselect.2, ready.unwritten.commands_eq,
        wait.unwritten.commands_eq]
      rfl
  | @answered _ _ _ _ ready wait driven page =>
      have hwords := unwritten_readData driven.toList
      refine .inr ⟨by split <;> nofun, ?_⟩
      simp only [commands_append, selection_append, hselect.1, hselect.2, ready.unwritten.commands_eq,
        wait.unwritten.commands_eq, hwords.commands_eq]
      rfl

/-! ## Sending nothing -/

/-- No data is sent. -/
def Silent (trace : List Cycle) : Prop := ∀ word, Cycle.writeData word ∉ trace

theorem Silent.append {first second : List Cycle} (h : Silent first) (h' : Silent second) : Silent (first ++ second) :=
  fun word hw => (List.mem_append.mp hw).elim (h word) (h' word)

theorem silent_write (reg : Register) (value : UInt8) : Silent [.write reg value] := by
  intro word
  simp

theorem silent_readData (driven : List (Option UInt16)) : Silent (driven.map .readData) := by
  intro word
  simp

theorem silent_selectCycles (slot : DriveSlot) (chunk : Chunk) : Silent (selectCycles slot chunk) := by
  intro word
  simp [selectCycles]

theorem silent_resetCycles : Silent BusM.resetCycles := by
  intro word
  simp [BusM.resetCycles]

theorem Waited.silent {bits : UInt8} {trace : List Cycle} {answer : Except AtaError UInt8}
    (h : Waited bits trace answer) : Silent trace := by
  intro word
  cases h with
  | intro => simp

theorem Identified.sends_nothing {slot : DriveSlot} {trace : List Cycle} {answer : Except AtaError Identify.Page}
    (h : Identified slot trace answer) : Silent trace := by
  cases h with
  | missing wait => exact (silent_write _ _).append wait.silent
  | silent ready wait =>
      exact (((silent_write _ _).append ready.silent).append (silent_write _ _)).append wait.silent
  | answered ready wait driven =>
      exact ((((silent_write _ _).append ready.silent).append (silent_write _ _)).append wait.silent).append
        (silent_readData _)

theorem SectorsMoved.silent {count offset : Nat} {payload payload' : Payload} {trace : List Cycle}
    {result : Except AtaError Unit} (h : SectorsMoved count offset payload trace result payload') {buffer : Buffer}
    (hp : payload = .read buffer) : Silent trace := by
  induction h generalizing buffer with
  | finished => exact fun _ => List.not_mem_nil
  | cutOff wait => exact wait.silent
  | moved wait sector _ ih =>
      subst hp
      cases sector with
      | filled driven => exact (wait.silent.append (silent_readData _)).append (ih rfl)

theorem ChunksMoved.silent {slot : DriveSlot} {chunks : List Chunk} {offset : Nat} {payload payload' : Payload}
    {trace : List Cycle} {result : Except AtaError Unit}
    (h : ChunksMoved slot chunks offset payload trace result payload') {buffer : Buffer} (hp : payload = .read buffer) :
    Silent trace := by
  induction h generalizing buffer with
  | finished => exact fun _ => List.not_mem_nil
  | cutOff wait => exact (silent_selectCycles _ _).append wait.silent
  | cutOffInside wait moved =>
      exact (((silent_selectCycles _ _).append wait.silent).append (silent_write _ _)).append (moved.silent hp)
  | moved wait moved _ ih =>
      subst hp
      cases moved.became with
      | read =>
          exact ((((silent_selectCycles _ _).append wait.silent).append (silent_write _ _)).append
            (moved.silent rfl)).append (ih rfl)

end PolledAta
