import PolledAta.DriveSlot
import PolledAta.Register

/-!
The register values that a channel holds, and the request they spell.
-/

namespace PolledAta

structure TaskFile where
  values : Vector UInt8 8
  deriving DecidableEq

namespace TaskFile

def clear : TaskFile := ⟨Vector.replicate 8 0⟩

def get (file : TaskFile) (reg : Register) : UInt8 := getElem file.values reg.number.val reg.number_lt

def set (file : TaskFile) (reg : Register) (value : UInt8) : TaskFile :=
  ⟨file.values.set reg.number.val value reg.number_lt⟩

@[simp]
theorem get_clear (reg : Register) : clear.get reg = 0 := by
  simp [get, clear]

@[simp]
theorem get_set_self (file : TaskFile) (reg : Register) (value : UInt8) :
    (file.set reg value).get reg = value := by
  simp [get, set]

theorem get_set_of_ne (file : TaskFile) {reg other : Register} (value : UInt8) (h : other ≠ reg) :
    (file.set reg value).get other = file.get other := by
  have : (reg.number : Nat) ≠ other.number := fun e =>
    h (Register.number_injective (Fin.ext e)).symm
  simp [get, set, Vector.getElem_set_ne, this]

theorem eq_of_get_eq {file other : TaskFile} (h : ∀ reg, file.get reg = other.get reg) : file = other := by
  cases file
  cases other
  congr
  apply Vector.ext
  intro i hi
  obtain ⟨reg, hreg⟩ := Register.number_surjective ⟨i, hi⟩
  have hget := h reg
  simp only [get, hreg] at hget
  exact hget

def slot (file : TaskFile) : DriveSlot := .ofDevice (file.get .device)

def lba (file : TaskFile) : Nat :=
  (file.get .device &&& 0x0f).toNat * 0x1000000 + (file.get .lbaHigh).toNat * 0x10000 +
    (file.get .lbaMid).toNat * 0x100 + (file.get .lbaLow).toNat

/-- A count of 0 means 256. -/
def sectorCount (file : TaskFile) : Nat :=
  if file.get .sectorCount = 0 then 256 else (file.get .sectorCount).toNat

end TaskFile

end PolledAta
