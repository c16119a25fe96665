import PolledAta.Isa.Mapped
import PolledAta.Proofs.RegisterFile

/-!
# Registers on the bus

The ports of a controller lie in memory without meeting each other: byte accesses use the odd lane of a port, and the
data word takes both lanes of the base port, which no register shares. So over plain memory they are a register file,
and nothing else in memory changes.
-/

namespace PolledAta

theorem Buffer.getElem?_put_outside (buffer : Buffer) {offset i : Nat} (bytes : List UInt8)
    (h : i < offset ∨ offset + bytes.length ≤ i) : (buffer.put offset bytes)[i]? = buffer[i]? :=
  h.elim (getElem?_put_of_lt buffer bytes) (getElem?_put_of_le buffer bytes)

/-! ## Ports and their places -/

namespace Register

theorem offset_pos (reg : Register) : 0 < reg.offset := by cases reg <;> decide

theorem offset_le (reg : Register) : reg.offset ≤ Register.control.offset := by cases reg <;> decide

theorem offset_injective {a b : Register} (h : a.offset = b.offset) : a = b := by
  cases a <;> cases b <;> first | rfl | cases h

end Register

namespace Isa

namespace Ports

variable {base : UInt16}

theorem port_of_le {offset : Nat} (h : base.toNat + offset ≤ 0xffff) : port base offset = .ok (base.toNat + offset) :=
  if_pos (by omega)

/-- A sum that does not fit and one that fits end alike if all that follows the latter fails. -/
theorem port_bind_eq_overflow {α : Type} {offset : Nat} {next : Nat → Except Fault α}
    (h : ∀ port, next port = .error .overflow) : (port base offset >>= next) = .error .overflow := by
  unfold port
  split
  · exact h _
  · rfl

/-- The ports are those of the base and of the registers. -/
theorem exists_ofBase (h : base.toNat + 0x206 ≤ 0xffff) :
    ∃ ports, ofBase base = .ok ports ∧ ports.data = base.toNat ∧
      ∀ reg, ports.register reg = base.toNat + reg.offset := by
  have hdata : port base dataOffset = .ok (base.toNat + dataOffset) := port_of_le (by rw [dataOffset]; omega)
  have hport (reg : Register) : port base reg.offset = .ok (base.toNat + reg.offset) := by
    have hle : reg.offset ≤ 0x206 := reg.offset_le
    exact port_of_le (by omega)
  rw [ofBase, hdata]
  simp only [hport]
  exact ⟨_, rfl, rfl, fun reg => by cases reg <;> rfl⟩

/-- The last sum is the one that does not fit, if any does not. -/
theorem ofBase_eq_overflow (h : 0xffff < base.toNat + 0x206) : ofBase base = .error .overflow := by
  have hcontrol : port base Register.control.offset = .error .overflow :=
    if_neg (by rw [show Register.control.offset = 0x206 from rfl]; omega)
  rw [ofBase]
  iterate 8 refine port_bind_eq_overflow fun _ => ?_
  rw [hcontrol]
  rfl

theorem ofBase_eq_error_iff (base : UInt16) : ofBase base = .error .overflow ↔ 0xffff < base.toNat + 0x206 := by
  refine ⟨fun herror => ?_, ofBase_eq_overflow⟩
  by_contra hfits
  obtain ⟨ports, hports, -⟩ := exists_ofBase (Nat.not_lt.mp hfits)
  rw [hports] at herror
  cases herror

end Ports

namespace Window

variable (window : Window) (base : Nat) {reg other : Register}

/-- The places of the registers of a controller, and those of its data word. -/
def place (reg : Register) : Nat := window.byteAddress (base + reg.offset)

theorem place_injective (h : window.place base reg = window.place base other) : reg = other := by
  simp only [place, byteAddress] at h
  exact Register.offset_injective (by omega)

theorem wordAddress_lt_place (reg : Register) : window.wordAddress base + 1 < window.place base reg := by
  have hpos := reg.offset_pos
  simp only [place, byteAddress, wordAddress]
  omega

theorem place_le (reg : Register) : window.place base reg ≤ window.place base .control := by
  have hle := reg.offset_le
  simp only [place, byteAddress]
  omega

/-- A place in memory that belongs to none of the cells. -/
def Outside (i : Nat) : Prop :=
  (∀ reg, i ≠ window.place base reg) ∧ i ≠ window.wordAddress base ∧ i ≠ window.wordAddress base + 1

/-- What the cells hold. -/
def fileIn (memory : Buffer) : RegisterFile where
  registers reg := memory.getD (window.place base reg) 0
  data := Word.littleEndian (memory.getD (window.wordAddress base) 0) (memory.getD (window.wordAddress base + 1) 0)

theorem fileIn_replicate (size : Nat) : window.fileIn base (Array.replicate size 0) = .blank := by
  have hzero (i : Nat) : (Array.replicate size (0 : UInt8)).getD i 0 = 0 := by
    rw [Array.getD_eq_getD_getElem?, Array.getElem?_replicate]
    split <;> rfl
  simp only [fileIn, hzero]
  rfl

end Window

/-! ## Accesses -/

/-- The bank lies where it was put over `memory`, its cells hold what the file holds, and all else is as it was. -/
structure Mapped.Shows (window : Window) (base : Nat) (memory : Buffer) (bank : Mapped) (file : RegisterFile) :
    Prop where
  data : bank.data = window.wordAddress base
  address : ∀ reg, bank.address reg = window.place base reg
  register : ∀ reg, bank.memory[window.place base reg]? = some (file.registers reg)
  low : bank.memory[window.wordAddress base]? = some (Word.low file.data)
  high : bank.memory[window.wordAddress base + 1]? = some (Word.high file.data)
  outside : ∀ i, window.Outside base i → bank.memory[i]? = memory[i]?
  size : bank.memory.size = memory.size

namespace Mapped

variable {window : Window} {base : Nat} {memory : Buffer} {bank : Mapped} {file : RegisterFile}

theorem Shows.fileIn_eq (h : Shows window base memory bank file) : window.fileIn base bank.memory = file := by
  simp only [Window.fileIn, Array.getD_eq_getD_getElem?, h.register, h.low, h.high, Option.getD_some,
    Word.littleEndian_low_high]

theorem shows_resolve {base : UInt16} {ports : Ports} (hdata : ports.data = base.toNat)
    (hports : ∀ reg, ports.register reg = base.toNat + reg.offset)
    (hsize : window.place base.toNat .control < memory.size) :
    Shows window base.toNat memory (resolve window ports memory) (window.fileIn base.toNat memory) := by
  have hget {i : Nat} (hi : i ≤ window.place base.toNat .control) : memory[i]? = some (memory.getD i 0) := by
    rw [Array.getD_eq_getD_getElem?, Array.getElem?_eq_getElem (by omega), Option.getD_some]
  have hword := window.wordAddress_lt_place base.toNat .control
  constructor
  case data => exact congrArg window.wordAddress hdata
  case address =>
    intro reg
    rw [resolve, Registers.address, Registers.resolve, Vector.getElem_map]
    exact congrArg window.byteAddress (hports reg)
  case register => exact fun reg => hget (window.place_le base.toNat reg)
  case low =>
    simp only [Window.fileIn, Word.low_littleEndian]
    exact hget (by omega)
  case high =>
    simp only [Window.fileIn, Word.high_littleEndian]
    exact hget (by omega)
  case outside => exact fun _ _ => rfl
  case size => rfl

theorem Shows.writeRegister (h : Shows window base memory bank file) (reg : Register) (value : UInt8) :
    Shows window base memory (Bank.write bank reg value) (file.set reg value) := by
  have hword := window.wordAddress_lt_place base reg
  have hstored : (Bank.write bank reg value).memory = bank.memory.put (window.place base reg) [value] := by
    rw [← h.address reg]
    rfl
  have hkept {i : Nat} (hi : i ≠ window.place base reg) :
      (Bank.write bank reg value).memory[i]? = bank.memory[i]? := by
    rw [hstored]
    exact Buffer.getElem?_put_outside _ _ (Nat.lt_or_gt_of_ne hi)
  constructor
  case data => exact h.data
  case address => exact h.address
  case register =>
    intro other
    by_cases hother : other = reg
    · obtain ⟨hplace, -⟩ := Array.getElem?_eq_some_iff.mp (h.register reg)
      have hholds : (bank.memory.put (window.place base reg) [value]).Holds (window.place base reg) [value] :=
        Buffer.holds_put hplace
      rw [hstored, hother, file.registers_set_self]
      exact hholds 0 Nat.one_pos
    · rw [hkept fun hplace => hother (window.place_injective base hplace), h.register other,
        file.registers_set_of_ne value hother]
  case low => exact (hkept (by omega)).trans h.low
  case high => exact (hkept (by omega)).trans h.high
  case outside => exact fun i hi => (hkept (hi.1 reg)).trans (h.outside i hi)
  case size => rw [hstored, Buffer.size_put, h.size]

theorem Shows.writeWord (h : Shows window base memory bank file) (word : UInt16) :
    Shows window base memory (Bank.writeData bank word) (file.setData word) := by
  have hstored : (Bank.writeData bank word).memory =
      bank.memory.put (window.wordAddress base) [Word.low word, Word.high word] := by
    rw [← h.data]
    rfl
  have hkept {i : Nat} (hlow : i ≠ window.wordAddress base) (hhigh : i ≠ window.wordAddress base + 1) :
      (Bank.writeData bank word).memory[i]? = bank.memory[i]? := by
    have houtside : i < window.wordAddress base ∨ window.wordAddress base + 2 ≤ i := by omega
    rw [hstored]
    exact Buffer.getElem?_put_outside _ _ houtside
  obtain ⟨hsize, -⟩ := Array.getElem?_eq_some_iff.mp h.high
  have hholds : (Bank.writeData bank word).memory.Holds (window.wordAddress base) [Word.low word, Word.high word] := by
    rw [hstored]
    exact Buffer.holds_put hsize
  constructor
  case data => exact h.data
  case address => exact h.address
  case register =>
    intro reg
    have hword := window.wordAddress_lt_place base reg
    exact (hkept (by omega) (by omega)).trans (h.register reg)
  case low => exact hholds 0 Nat.two_pos
  case high => exact hholds 1 Nat.one_lt_two
  case outside => exact fun i hi => (hkept hi.2.1 hi.2.2).trans (h.outside i hi)
  case size => rw [hstored, Buffer.size_put, h.size]

/-- Memory under a controller is a register file. -/
theorem mirrors_shows : Mirrors (Shows window base memory) where
  read {bank file} reg h := by
    refine ⟨?_, h⟩
    calc (Bank.read bank reg).1
      _ = bank.memory.getD (bank.address reg) 0 := rfl
      _ = bank.memory[window.place base reg]?.getD 0 := by rw [h.address, Array.getD_eq_getD_getElem?]
      _ = file.registers reg := by rw [h.register, Option.getD_some]
  write reg value h := h.writeRegister reg value
  readData {bank file} h := by
    refine ⟨congrArg some ?_, h⟩
    rw [h.data, Array.getD_eq_getD_getElem?, Array.getD_eq_getD_getElem?, h.low, h.high, Option.getD_some,
      Option.getD_some, Word.littleEndian_low_high]
  writeData word h := h.writeWord word

end Mapped

/--
A controller has its ports unless the last one would lie past the end of the port space. Then, over plain memory, each
operation of a sequence reads what was written last to the same cell, a register file ends with what lies in the cells,
and the rest of the memory is as it was.
-/
theorem bank_is_register_file (window : Window) (base : UInt16) :
    (Ports.ofBase base = .error .overflow ↔ 0xffff < base.toNat + 0x206) ∧
    (base.toNat + 0x206 ≤ 0xffff → ∃ ports, Ports.ofBase base = .ok ports ∧
      ∀ {κ : Type} (timer : κ) (memory : Buffer), window.place base.toNat .control < memory.size →
      ∀ operations : List Operation, ∃ results t u,
        Operation.performAll operations ⟨Mapped.resolve window ports memory, timer, #[]⟩ = .ok (results, t) ∧
        Operation.performAll operations ⟨window.fileIn base.toNat memory, timer, #[]⟩ = .ok (results, u) ∧
        (∀ i, results[i]? =
          operations[i]?.map (Operation.result ((window.fileIn base.toNat memory).after (operations.take i)))) ∧
        u.device = (window.fileIn base.toNat memory).after operations ∧
        window.fileIn base.toNat t.device.memory = u.device ∧
        t.device.memory.size = memory.size ∧
        ∀ i, window.Outside base.toNat i → t.device.memory[i]? = memory[i]?) ∧
    ∀ size, window.fileIn base.toNat (Array.replicate size 0) = .blank := by
  refine ⟨Ports.ofBase_eq_error_iff base, fun hbase => ?_, window.fileIn_replicate base.toNat⟩
  obtain ⟨ports, hofBase, hdata, hports⟩ := Ports.exists_ofBase hbase
  refine ⟨ports, hofBase, fun {κ} timer memory hsize operations => ?_⟩
  have hstart : Mapped.Shows window base.toNat memory (Mapped.resolve window ports memory) _ :=
    Mapped.shows_resolve hdata hports hsize
  obtain ⟨results, t, hrun, ht, hresults⟩ := Mapped.mirrors_shows.performAll_run
    (s := (⟨_, timer, #[]⟩ : Session Mapped κ)) operations hstart
  obtain ⟨results', u, hrun', hu, hresults'⟩ := RegisterFile.mirrors_eq.performAll_run
    (s := (⟨window.fileIn base.toNat memory, timer, #[]⟩ : Session RegisterFile κ)) operations rfl
  obtain rfl : results' = results := List.ext_getElem? fun i => (hresults' i).trans (hresults i).symm
  exact ⟨results', t, u, hrun, hrun', hresults', hu, ht.fileIn_eq.trans hu.symm, ht.size, ht.outside⟩

/-- Writes to the registers at both ends and to the data port, then reads. -/
def sampleOperations : List Operation :=
  [.write .control 0x12, .writeData 0xabcd, .write .error 0x34, .read .status, .read .control, .readData]

theorem sample_register_file :
    ∃ ports results t, Ports.ofBase 0x1f0 = .ok ports ∧
      Operation.performAll sampleOperations
        ⟨Mapped.resolve ⟨0⟩ ports (Array.replicate 0x1000 0), (), #[]⟩ = .ok (results, t) ∧
      results[3]? = some (.byte 0) ∧ results[4]? = some (.byte 0x12) ∧ results[5]? = some (.word 0xabcd) ∧
      t.device.memory[0]? = some 0 := by
  obtain ⟨-, hfile, hblank⟩ := bank_is_register_file ⟨0⟩ 0x1f0
  obtain ⟨ports, hports, hrun⟩ := hfile (by decide)
  have hroom : Window.place ⟨0⟩ (0x1f0 : UInt16).toNat .control < (Array.replicate 0x1000 (0 : UInt8)).size := by
    rw [Array.size_replicate]
    decide
  obtain ⟨results, t, -, hdone, -, hresults, -, -, -, houtside⟩ := hrun () _ hroom sampleOperations
  rw [hblank] at hresults
  have hfirst : Window.Outside ⟨0⟩ (0x1f0 : UInt16).toNat 0 :=
    ⟨fun reg => by cases reg <;> decide, by decide, by decide⟩
  refine ⟨ports, results, t, hports, hdone, hresults 3, hresults 4, hresults 5, (houtside 0 hfirst).trans ?_⟩
  rw [Array.getElem?_replicate, if_pos (by decide)]

end Isa

end PolledAta
