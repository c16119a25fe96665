import PolledAta.Proofs.SectorStore

/-!
# A refusal stands

A device shows that it has refused a command until it is given another one. The driver takes that for a failure of the
next command and never sends it, so one request past the end of a drive makes every later request fail.
-/

namespace PolledAta

open Emulator

/-- The request is sent to the drive, and a part of it is past the end. -/
def Request.Refused (request : Request) (sectors : Nat) : Prop :=
  request.bytes ≤ request.buffer.size ∧ ¬InReach sectors request.lba request.count

/-- The requests are carried out one after the other, whatever they are answered. -/
inductive Carried : Ide Channel → List Request → Ide Channel → Prop where
  | done (ide : Ide Channel) : Carried ide [] ide
  | step {ide mid ide' : Ide Channel} {request : Request} {requests : List Request}
      {result : Except AtaError Unit} {buffer : Buffer} (answer : request.perform ide = .ok ((result, buffer), mid))
      (rest : Carried mid requests ide') : Carried ide (request :: requests) ide'

/-! ## One request -/

/-- The disk is served by a drive of so many sectors, whose last command was refused or not. -/
structure Ide.Latched (ide : Ide Channel) (disk : Disk) (sectors : Nat) (refused : Prop) : Prop where
  small : sectors ≤ 2 ^ 28
  stands : ∃ controller drive phase, ide.Stands disk controller drive phase ∧ drive.sectorCount = sectors ∧
    (refused ∧ phase = .failed ∨ ¬refused ∧ phase = .idle)

variable {ide : Ide Channel} {disk : Disk} {request : Request} {drive : Drive} {sectors : Nat} {refused : Prop}

/-- A request leaves a refusal standing, and may leave one of its own. -/
theorem Ide.Latched.perform (h : ide.Latched disk sectors refused) (hd : ide.table.get? request.index = some disk) :
    ∃ result buffer after, request.perform ide = .ok ((result, buffer), after) ∧ after.table = ide.table ∧
      after.Latched disk sectors (refused ∨ request.Refused sectors) := by
  obtain ⟨small, controller, drive, phase, hs, rfl, hphase⟩ := h
  by_cases hb : request.bytes ≤ request.buffer.size
  · by_cases hz : request.count = 0
    · have hout : ¬request.Refused drive.sectorCount := fun hr => hr.2 (.inl hz)
      refine ⟨_, _, ide, Request.perform_of_count_eq_zero hd hb hs.found hz, rfl, small, controller, drive, phase, hs,
        rfl, ?_⟩
      simpa [hout] using hphase
    · rcases hphase with ⟨hrefused, rfl⟩ | ⟨hrefused, rfl⟩
      · obtain ⟨session, hrun, hturned⟩ := Request.perform_of_failed hd hs hb hz
        exact ⟨_, _, _, hrun, rfl, small, _, _, _, hs.worked hturned, rfl, .inl ⟨.inl hrefused, rfl⟩⟩
      · by_cases hin : InReach drive.sectorCount request.lba request.count
        · obtain ⟨buffer, session, drive', hrun, hturned, hcount, _⟩ := Request.perform_of_reaches hd hs hb small
            ((Drive.reaches_toList_iff small _ _).mpr hin)
          refine ⟨_, _, _, hrun, rfl, small, _, _, _, hs.worked hturned, hcount, .inr ⟨?_, rfl⟩⟩
          exact not_or_intro hrefused fun hr => hr.2 hin
        · obtain ⟨buffer, session, drive', hrun, hturned, hcount⟩ := Request.perform_of_not_reaches hd hs hb
            (mt (Drive.reaches_toList_iff small _ _).mp hin)
          exact ⟨_, _, _, hrun, rfl, small, _, _, _, hs.worked hturned, hcount, .inl ⟨.inr ⟨hb, hin⟩, rfl⟩⟩
  · have hout : ¬request.Refused drive.sectorCount := fun hr => hb hr.1
    refine ⟨_, _, ide, Request.perform_of_short hd (Nat.not_le.mp hb), rfl, small, controller, drive, phase, hs,
      rfl, ?_⟩
    simpa [hout] using hphase

theorem Ide.Latched.perform_of_clear (h : ide.Latched disk sectors refused) (hclear : ¬refused)
    (hd : ide.table.get? request.index = some disk) (hb : request.bytes ≤ request.buffer.size)
    (hin : request.lba.toNat + request.count.toNat ≤ sectors) :
    ∃ buffer after, request.perform ide = .ok ((.ok (), buffer), after) ∧
      SectorStore.Serves disk ide.sectors request buffer after.sectors := by
  obtain ⟨small, controller, drive, phase, hs, rfl, hphase⟩ := h
  obtain ⟨_, rfl⟩ := hphase.resolve_left fun hrefused => hclear hrefused.1
  obtain ⟨buffer, session, drive', hrun, hturned, _, hmoved⟩ :=
    Request.perform_of_reaches hd hs hb small (Drive.reaches_toList_of_le small hin)
  exact ⟨buffer, _, hrun, hmoved.serves hs hturned (hin.trans small)⟩

theorem Ide.Latched.perform_of_refused (h : ide.Latched disk sectors refused) (hrefused : refused)
    (hd : ide.table.get? request.index = some disk) (hb : request.bytes ≤ request.buffer.size)
    (hz : request.count ≠ 0) :
    ∃ after, request.perform ide = .ok ((.error (.device Service.refusal), request.buffer), after) ∧
      after.sectors = ide.sectors := by
  obtain ⟨small, controller, drive, phase, hs, rfl, hphase⟩ := h
  obtain ⟨_, rfl⟩ := hphase.resolve_right fun hclear => hclear.1 hrefused
  obtain ⟨session, hrun, hturned⟩ := Request.perform_of_failed hd hs hb hz
  exact ⟨_, hrun, hs.sectors_worked_eq hturned rfl⟩

/-! ## Any history -/

theorem Ide.Latched.congr (h : ide.Latched disk sectors refused) {refused' : Prop} (he : refused ↔ refused') :
    ide.Latched disk sectors refused' := by
  rwa [← propext he]

theorem Ide.Latched.carried {index : Nat} {history : List Request} (h : ide.Latched disk sectors refused)
    (hd : ide.table.get? index = some disk) (one : ∀ request ∈ history, request.index = index) :
    ∃ later, Carried ide history later ∧ later.table = ide.table ∧
      later.Latched disk sectors (refused ∨ ∃ earlier ∈ history, earlier.Refused sectors) := by
  induction history generalizing ide refused with
  | nil => exact ⟨ide, .done ide, rfl, h.congr (by simp)⟩
  | cons request history ih =>
      obtain ⟨rfl, one⟩ := List.forall_mem_cons.mp one
      obtain ⟨result, buffer, mid, hrun, htable, hmid⟩ := h.perform hd
      obtain ⟨later, hcarried, htable', hlater⟩ := ih hmid (by rwa [htable]) one
      refine ⟨later, .step hrun hcarried, htable'.trans htable, hlater.congr ?_⟩
      simp only [List.mem_cons, exists_eq_or_imp, or_assoc]

theorem Ide.Stands.latched {controller : Controller Channel} (h : ide.Stands disk controller drive .idle)
    (hS : drive.sectorCount ≤ 2 ^ 28) : ide.Latched disk drive.sectorCount False :=
  ⟨hS, controller, drive, .idle, h, rfl, .inr ⟨not_false, rfl⟩⟩

/-- On a disk without faults, a request that keeps to the drive is served after any history of requests to the disk in
which no request was refused. After a refusal it fails with the status of the refused command, and nothing moves. -/
theorem refusal_stands {controllers : Array (Controller Channel)} {maxDisks : Nat} {clock : Clock}
    {settings : Settings}
    (healthy : ∀ controller ∈ controllers, controller.device.faults = .none ∧ controller.device.overrun = false)
    (started : IdeM.init (.fresh controllers maxDisks clock settings) = .ok ((), ide)) {index : Nat}
    (hd : ide.table.get? index = some disk) (hdrive : ide.drive? disk.controller disk.slot = some drive)
    (hS : drive.sectorCount ≤ 2 ^ 28) {history : List Request} (one : ∀ request ∈ history, request.index = index) :
    ∃ later, Carried ide history later ∧
      ∀ request : Request, request.index = index → request.bytes ≤ request.buffer.size → request.count ≠ 0 →
        request.lba.toNat + request.count.toNat ≤ drive.sectorCount →
        ((∀ earlier ∈ history, ¬earlier.Refused drive.sectorCount) →
          ∃ buffer after, request.perform later = .ok ((.ok (), buffer), after) ∧
            SectorStore.Serves disk later.sectors request buffer after.sectors) ∧
        ((∃ earlier ∈ history, earlier.Refused drive.sectorCount) →
          ∃ after, request.perform later = .ok ((.error (.device 0x41), request.buffer), after) ∧
            after.sectors = later.sectors) := by
  have hrest := (Ide.Discovering.init healthy started).toAtRest
  obtain ⟨controller, drive₀, hs⟩ := hrest.stands hd
  obtain rfl : drive₀ = drive := Option.some.inj (hs.drive?_eq.symm.trans hdrive)
  obtain ⟨later, hcarried, htable, hlater⟩ := (hs.latched hS).carried hd one
  rw [false_or] at hlater
  refine ⟨later, hcarried, ?_⟩
  rintro request rfl hb hz hin
  have hd : later.table.get? request.index = some disk := by rwa [htable]
  constructor
  · intro hnone
    have hclear : ¬∃ earlier ∈ history, earlier.Refused drive₀.sectorCount := by
      rintro ⟨earlier, he, hr⟩
      exact hnone earlier he hr
    exact hlater.perform_of_clear hclear hd hb hin
  · intro hsome
    exact hlater.perform_of_refused hsome hd hb hz

theorem sample_refusal_stands :
    ∃ ide later after, IdeM.init Ide.sample = .ok ((), ide) ∧
      Carried ide [⟨0, 2, 1, .read (.replicate 512 0)⟩] later ∧
      Request.perform ⟨0, 0, 1, .read (.replicate 512 0)⟩ later =
        .ok ((.error (.device 0x41), .replicate 512 0), after) ∧ after.sectors = later.sectors := by
  obtain ⟨ide, disk, controller, drive, started, hd, hs, hcount⟩ := Ide.exists_stands_sample
  have hsize : 1 * 512 ≤ (Array.replicate 512 0 : Buffer).size := (Array.size_replicate ..).ge
  have hone : ∀ request ∈ ([⟨0, 2, 1, .read (.replicate 512 0)⟩] : List Request), request.index = 0 := by simp
  have hrefused : Request.Refused ⟨0, 2, 1, .read (.replicate 512 0)⟩ drive.sectorCount := by
    rw [hcount]
    exact ⟨hsize, by unfold InReach; decide⟩
  obtain ⟨later, hcarried, hlater⟩ :=
    refusal_stands Ide.healthy_sample started hd hs.drive?_eq (by rw [hcount]; decide) hone
  obtain ⟨_, hfails⟩ := hlater ⟨0, 0, 1, .read (.replicate 512 0)⟩ rfl hsize (by decide) (by rw [hcount]; decide)
  obtain ⟨after, hrun, hsectors⟩ := hfails ⟨_, List.mem_singleton_self _, hrefused⟩
  exact ⟨ide, later, after, started, hcarried, hrun, hsectors⟩

end PolledAta
