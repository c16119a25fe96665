import PolledAta.Proofs.Discovery

/-!
# The driver as a store of sectors

On channels without faults, requests that keep to their drives act on a store that maps each controller, slot and
number to a sector: a write replaces what it is about, and a read finds what was written last.
-/

namespace PolledAta

open Emulator

abbrev SectorStore := Nat → DriveSlot → Nat → Option Sector

namespace SectorStore

/-- The store with the sectors of a disk from `lba` on replaced by the first `count` of the buffer. -/
def write (store : SectorStore) (disk : Disk) (lba count : Nat) (buffer : Buffer) : SectorStore :=
  fun controller slot n =>
    if (controller, slot) = (disk.controller, disk.slot) ∧ lba ≤ n ∧ n < lba + count then
      buffer.sector? ((n - lba) * sectorSize)
    else store controller slot n

/-- What a request makes of the store, and the buffer its caller has afterwards. -/
inductive Serves (disk : Disk) (store : SectorStore) : Request → Buffer → SectorStore → Prop where
  | read {index : Nat} {lba count : UInt32} {before after : Buffer}
      (filled : before.Filled 0 count.toNat (fun i => store disk.controller disk.slot (lba.toNat + i)) after) :
      Serves disk store ⟨index, lba, count, .read before⟩ after store
  | write (index : Nat) (lba count : UInt32) (buffer : Buffer) :
      Serves disk store ⟨index, lba, count, .write buffer⟩ buffer
        (store.write disk lba.toNat count.toNat buffer)

end SectorStore

/-! ## One request -/

section

variable {lba count : UInt32} {before after origin : Nat → Option Sector}

theorem Overwritten.eq_of_le (h : Overwritten before (sentAddress lba) count.toNat origin after)
    (hin : lba.toNat + count.toNat ≤ 2 ^ 28) (n : Nat) :
    after n = if lba.toNat ≤ n ∧ n < lba.toNat + count.toNat then origin (n - lba.toNat) else before n := by
  have haddress : ∀ i < count.toNat, sentAddress lba i = lba.toNat + i :=
    fun i hi => sentAddress_eq_of_lt (by omega)
  split
  · rename_i hn
    obtain ⟨i, rfl⟩ : ∃ i, n = lba.toNat + i := ⟨n - lba.toNat, by omega⟩
    have hi : i < count.toNat := by omega
    rw [Nat.add_sub_cancel_left, ← haddress i hi]
    refine h.last i hi fun j hj hij => ?_
    rw [haddress i hi, haddress j hj]
    omega
  · rename_i hn
    refine h.others n fun i hi => ?_
    rw [haddress i hi]
    omega

end

variable {request : Request} {ide : Ide Channel} {disk : Disk} {controller : Controller Channel} {drive : Drive}

theorem Request.Moved.serves {buffer : Buffer} {drive' : Drive} {session : Session Channel}
    (hm : request.Moved drive.sector? buffer drive'.sector?) (hs : ide.Stands disk controller drive .idle)
    (ht : controller.device.Turned disk.slot drive' .idle session.device)
    (hin : request.lba.toNat + request.count.toNat ≤ 2 ^ 28) :
    SectorStore.Serves disk ide.sectors request buffer (ide.worked disk.controller controller session).sectors := by
  obtain ⟨index, lba, count, payload⟩ := request
  cases payload with
  | read before =>
      obtain ⟨hfilled, hsame⟩ := hm.of_read
      rw [hs.sectors_worked_eq ht hsame]
      refine .read (hfilled.congr fun i hi => ?_)
      have haddress : sentAddress lba i = lba.toNat + i :=
        sentAddress_eq_of_lt (Nat.lt_of_lt_of_le (Nat.add_lt_add_left hi _) hin)
      rw [haddress, hs.sectors_eq]
  | write before =>
      obtain ⟨hwritten, rfl⟩ := hm.of_write
      have hstore : (ide.worked disk.controller controller session).sectors =
          SectorStore.write ide.sectors disk lba.toNat count.toNat buffer := by
        funext other slot n
        unfold SectorStore.write
        by_cases hne : (other, slot) = (disk.controller, disk.slot)
        · obtain ⟨rfl, rfl⟩ := Prod.mk.inj hne
          rw [hs.sectors_worked ht, hwritten.eq_of_le hin n, hs.sectors_eq]
          simp
        · rw [hs.sectors_worked_of_ne ht hne]
          simp [hne]
      rw [hstore]
      exact .write ..

/-! ## Runs -/

/-- The request is to a disk of the table, its buffer is large enough, and its sectors are on the drive of the disk,
which 28 bits can address. -/
structure Request.Fits (request : Request) (ide : Ide Channel) : Prop where
  known : request.index < ide.table.count
  room : request.bytes ≤ request.buffer.size
  inside : ∀ disk drive, ide.table.get? request.index = some disk →
    ide.drive? disk.controller disk.slot = some drive →
    request.lba.toNat + request.count.toNat ≤ drive.sectorCount ∧ drive.sectorCount ≤ 2 ^ 28

theorem Request.Fits.worked {drive' : Drive} {session : Session Channel} (h : request.Fits ide)
    (hs : ide.Stands disk controller drive .idle)
    (ht : controller.device.Turned disk.slot drive' .idle session.device)
    (hcount : drive'.sectorCount = drive.sectorCount) :
    request.Fits (ide.worked disk.controller controller session) := by
  refine ⟨h.known, h.room, fun other found hother hfound => ?_⟩
  by_cases hne : (other.controller, other.slot) = (disk.controller, disk.slot)
  · obtain ⟨hcontroller, hslot⟩ := Prod.mk.inj hne
    rw [hcontroller, hslot, (hs.worked ht).drive?_eq] at hfound
    obtain rfl := Option.some.inj hfound
    rw [hcount]
    exact h.inside other drive hother (by rw [hcontroller, hslot, hs.drive?_eq])
  · rw [hs.drive?_worked_of_ne ht hne] at hfound
    exact h.inside other found hother hfound

/-- The requests are answered one after the other, each without an error, and the store follows step by step. -/
inductive SimulatedRun : Ide Channel → SectorStore → List Request → Ide Channel → SectorStore → Prop where
  | done {ide : Ide Channel} {store : SectorStore} (agree : ide.sectors = store) : SimulatedRun ide store [] ide store
  | step {ide mid ide' : Ide Channel} {store between store' : SectorStore} {request : Request}
      {requests : List Request} {disk : Disk} {buffer : Buffer} (agree : ide.sectors = store)
      (found : ide.table.get? request.index = some disk)
      (answer : request.perform ide = .ok ((.ok (), buffer), mid))
      (serves : store.Serves disk request buffer between)
      (rest : SimulatedRun mid between requests ide' store') :
      SimulatedRun ide store (request :: requests) ide' store'

theorem Ide.AtRest.simulated {requests : List Request} (h : ide.AtRest fun _ => True)
    (fits : ∀ request ∈ requests, request.Fits ide) :
    ∃ ide' store, SimulatedRun ide ide.sectors requests ide' store ∧ ide'.AtRest fun _ => True := by
  induction requests generalizing ide with
  | nil => exact ⟨ide, ide.sectors, .done rfl, h⟩
  | cons request requests ih =>
      obtain ⟨hfits, hrest⟩ := List.forall_mem_cons.mp fits
      obtain ⟨disk, hd⟩ := h.dense.exists_get?_of_lt hfits.known
      obtain ⟨controller, drive, hs⟩ := h.stands hd
      obtain ⟨hin, hS⟩ := hfits.inside disk drive hd hs.drive?_eq
      obtain ⟨buffer, session, drive', hrun, hturned, hcount, hmoved⟩ :=
        Request.perform_of_reaches hd hs hfits.room hS (Drive.reaches_toList_of_le hS hin)
      have hserves := hmoved.serves hs hturned (hin.trans hS)
      obtain ⟨ide', store, hrun', hrest'⟩ := ih (hs.atRest_worked h hturned)
        fun next hn => (hrest next hn).worked hs hturned hcount
      exact ⟨ide', store, .step rfl hd hrun hserves hrun', hrest'⟩

/-- After a start without faults, requests that fit are all answered, and the run is that of a store of sectors. -/
theorem requests_simulate_store {controllers : Array (Controller Channel)} {maxDisks : Nat} {clock : Clock}
    {settings : Settings}
    (healthy : ∀ controller ∈ controllers, controller.device.faults = .none ∧ controller.device.overrun = false)
    (started : IdeM.init (.fresh controllers maxDisks clock settings) = .ok ((), ide))
    {requests : List Request} (fits : ∀ request ∈ requests, request.Fits ide) :
    ∃ ide' store,
      SimulatedRun ide (Ide.fresh controllers maxDisks clock settings).sectors requests ide' store ∧
      ∀ controller ∈ ide'.controllers, controller.device.overrun = false := by
  have hdiscovered := Ide.Discovering.init healthy started
  obtain ⟨ide', store, hrun, hrest⟩ := hdiscovered.toAtRest.simulated fits
  refine ⟨ide', store, ?_, fun controller hc => ?_⟩
  · have hsectors : ide.sectors = (Ide.fresh controllers maxDisks clock settings).sectors := by
      funext controller slot n
      rw [Ide.sectors, Ide.sectors, hdiscovered.drives]
    rwa [← hsectors]
  · obtain ⟨i, hi⟩ := Array.mem_iff_getElem?.mp hc
    exact hrest.overrun i controller hi

theorem sample_requests_simulated :
    ∃ ide ide' store, IdeM.init Ide.sample = .ok ((), ide) ∧
      SimulatedRun ide Ide.sample.sectors
        [⟨0, 1, 1, .write (.replicate 512 7)⟩, ⟨0, 0, 2, .read (.replicate 1030 0)⟩] ide' store ∧
      ∀ controller ∈ ide'.controllers, controller.device.overrun = false := by
  obtain ⟨ide, started, known, _⟩ := Ide.exists_init_sample
  have fits : ∀ request ∈ ([⟨0, 1, 1, .write (.replicate 512 7)⟩, ⟨0, 0, 2, .read (.replicate 1030 0)⟩] :
      List Request), request.Fits ide := by
    intro request hr
    simp only [List.mem_cons, List.not_mem_nil, or_false] at hr
    rcases hr with rfl | rfl
    · refine ⟨by rw [known]; decide, (Array.size_replicate ..).ge, fun disk drive _ hd => ?_⟩
      rw [Ide.sectorCount_sample started hd]
      decide
    · refine ⟨by rw [known]; decide, ?_, fun disk drive _ hd => ?_⟩
      · show 2 * 512 ≤ (Array.replicate 1030 0 : Buffer).size
        rw [Array.size_replicate]
        decide
      · rw [Ide.sectorCount_sample started hd]
        decide
  obtain ⟨ide', store, hrun⟩ := requests_simulate_store Ide.healthy_sample started fits
  exact ⟨ide, ide', store, started, hrun⟩

end PolledAta
