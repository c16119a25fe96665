import PolledAta.AtaError
import PolledAta.Disk.Info
import PolledAta.Disk.Label
import PolledAta.DriveSlot

/-!
The disks found so far. A disk's place in the table is its handle and never changes.
-/

namespace PolledAta

inductive MountStatus where
  | uninitialized
  | mounted
  | error
  deriving DecidableEq

structure Disk where
  index : Nat
  /-- The place of its controller in the driver. -/
  controller : Nat
  slot : DriveSlot
  info : DriveInfo
  status : MountStatus
  deriving DecidableEq

def Disk.label (disk : Disk) : Except Fault Label := Label.ofIndex disk.index

/-- Slots for disks, and how many of them are in use. -/
structure DiskTable where
  capacity : Nat
  slots : Vector (Option Disk) capacity
  used : Nat

namespace DiskTable

def empty (capacity : Nat) : DiskTable := ⟨capacity, .replicate capacity none, 0⟩

def count (table : DiskTable) : Nat := table.used

def isEmpty (table : DiskTable) : Bool := table.count == 0

def isFull (table : DiskTable) : Bool := table.capacity ≤ table.count

/-- What the slot holds, whether it counts as used or not. -/
def get? (table : DiskTable) (index : Nat) : Option Disk := table.slots[index]?.join

def register (table : DiskTable) (controller : Nat) (slot : DriveSlot) (info : DriveInfo) :
    Except AtaError (Disk × DiskTable) :=
  if full : table.isFull then .error .tableFull
  else
    have inside : table.used < table.capacity := Nat.lt_of_not_le fun h => full (decide_eq_true h)
    let disk : Disk := { index := table.used, controller, slot, info, status := .uninitialized }
    .ok (disk, { table with slots := table.slots.set table.used (some disk), used := table.used + 1 })

def setStatus (table : DiskTable) (index : Nat) (status : MountStatus) : Except AtaError DiskTable :=
  match table.get? index with
  | none => .error (.badIndex index)
  | some disk => .ok { table with slots := table.slots.setIfInBounds index (some { disk with status }) }

/-- The disks in the slots that are used. -/
def disks (table : DiskTable) : Array Disk := ((table.slots.toList.take table.used).filterMap id).toArray

/-- The disks one after the other, unless more slots are said to be used than there are. -/
def listing (table : DiskTable) : Except Fault (List Disk) :=
  if table.used ≤ table.capacity then .ok table.disks.toList else .error .outOfRange

end DiskTable

end PolledAta
