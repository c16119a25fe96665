import PolledAta.Proofs.Course
import PolledAta.Proofs.Pace
import PolledAta.Proofs.Registry
import PolledAta.Proofs.TickOrigin

/-!
# Requests to different controllers

A request to a disk is a program on the channel of its controller. It does the same whatever time it is when it starts,
and it leaves the other channels alone, so requests to different controllers can be carried out in either order.
-/

namespace PolledAta

variable {δ α β : Type}

theorem Session.Apart.cycles {distance : UInt32} {s t : Session δ} (h : s.Apart distance t) : t.cycles = s.cycles := by
  refine h.filterMap_history fun event => ?_
  cases event <;> rfl

/-- What has a result at one time has the same at any other. -/
theorem BusM.Steady.run_apart {distance : UInt32} {program : BusM δ α} {s s' t : Session δ} {a : α}
    (steady : Steady distance program) (run : program s = .ok (a, s')) (h : s.Apart distance t) :
    ∃ t', program t = .ok (a, t') ∧ s'.Apart distance t' := by
  have hends := steady.run s t h
  rw [run] at hends
  generalize program t = result at hends
  cases hends with
  | @ok _ result related =>
      obtain ⟨b, t'⟩ := result
      obtain ⟨rfl, hapart⟩ := related
      exact ⟨t', rfl, hapart⟩

/-! ## Work on different controllers -/

namespace Ide

/-- The drivers differ at most in the order of their journals. -/
structure Alike (x y : Ide δ) : Prop where
  controllers : y.controllers = x.controllers
  table : y.table = x.table
  clock : y.clock = x.clock
  cycles : ∀ controller, y.cycles controller = x.cycles controller

variable {ide : Ide δ} {i j : Nat} {c d : Controller δ} {s s' t t' : Session δ} {m n : UInt32}

/-- The one that works second starts as much later as the other one has taken. -/
theorem opened_worked (hs : s.clock = ide.clock.advance m) :
    (ide.opened d).Apart m ((ide.worked i c s).opened d) :=
  ⟨rfl, trivial, hs, rfl⟩

theorem alike_worked (hij : i ≠ j) (hs : s.clock = ide.clock.advance m) (ht : t.clock = ide.clock.advance n)
    (hs' : s.Apart n s') (ht' : t.Apart m t') :
    ((ide.worked i c s).worked j d t').Alike ((ide.worked j d t).worked i c s') where
  controllers := by
    simp only [worked, hs'.device, ht'.device]
    exact Array.setIfInBounds_comm _ _ hij.symm
  table := rfl
  clock := by
    -- both orders add the same two delays to the clock
    show s'.clock = t'.clock
    rw [hs'.clock, ht'.clock, hs, ht]
    simp only [Clock.advance, UInt32.add_assoc, UInt32.add_comm m]
  cycles := by
    intro k
    by_cases hi : k = i
    · subst hi
      rw [worked_cycles_self, worked_cycles_of_ne _ _ _ hij, worked_cycles_of_ne _ _ _ hij, worked_cycles_self,
        hs'.cycles]
    · by_cases hj : k = j
      · subst hj
        rw [worked_cycles_of_ne _ _ _ hi, worked_cycles_self, worked_cycles_self, worked_cycles_of_ne _ _ _ hi,
          ht'.cycles]
      · rw [worked_cycles_of_ne _ _ _ hi, worked_cycles_of_ne _ _ _ hj, worked_cycles_of_ne _ _ _ hj,
          worked_cycles_of_ne _ _ _ hi]

end Ide

/-- Programs on different channels that do not ask for the time can be carried out in either order. -/
theorem Ide.worked_either_order {ide : Ide δ} {i j : Nat} {c d : Controller δ} {s t : Session δ} {k l : Nat}
    {first : BusM δ α} {second : BusM δ β} {a : α} {b : β} (hij : i ≠ j)
    (steady : ∀ distance, BusM.Steady distance first) (steady' : ∀ distance, BusM.Steady distance second)
    (run : first (ide.opened c) = .ok (a, s)) (run' : second (ide.opened d) = .ok (b, t))
    (reads : (ide.opened c).Reads s k) (reads' : (ide.opened d).Reads t l) :
    ∃ s' t', first ((ide.worked j d t).opened c) = .ok (a, s') ∧ second ((ide.worked i c s).opened d) = .ok (b, t') ∧
      ((ide.worked i c s).worked j d t').Alike ((ide.worked j d t).worked i c s') := by
  obtain ⟨s', hfirst, hs⟩ := (steady _).run_apart run (Ide.opened_worked (c := d) reads'.clock)
  obtain ⟨t', hsecond, ht⟩ := (steady' _).run_apart run' (Ide.opened_worked (c := c) reads.clock)
  exact ⟨s', t', hfirst, hsecond, Ide.alike_worked hij reads.clock reads'.clock hs ht⟩

/-! ## Requests -/

namespace Request

variable [Bank δ]

/-- What a request to a disk does on its channel. -/
def onDisk (request : Request) (slot : DriveSlot) (timeoutMs : UInt32) : BusM δ (Except AtaError Unit × Buffer) :=
  if request.buffer.size < request.bytes then
    return (.error (.badBuffer request.buffer.size request.bytes), request.buffer)
  else do
    let (result, payload) ← BusM.moveChunks slot timeoutMs (chunks request.lba request.count).toList 0 request.payload
    return (result, payload.buffer)

theorem steady_onDisk (request : Request) (slot : DriveSlot) (timeoutMs distance : UInt32) :
    BusM.Steady distance (request.onDisk slot timeoutMs : BusM δ _) := by
  unfold onDisk
  split
  · exact parallel_pure rfl
  · exact ((BusM.corresponds_apart.moveChunks ..).after ()).bind_eq fun _ => parallel_pure rfl

theorem onDisk_ends (request : Request) (slot : DriveSlot) (timeoutMs : UInt32) {s : Session δ}
    (moving : s.clock.Moving) :
    ∃ answer t n, request.onDisk slot timeoutMs s = .ok (answer, t) ∧ s.Reads t n := by
  unfold onDisk
  split
  · exact ⟨_, s, 0, rfl, .refl s⟩
  · rename_i hfits
    obtain ⟨result, payload, _, t, _, hrun, _⟩ :=
      BusM.moveChunks_run slot timeoutMs (sectorTotal_le (Nat.not_lt.mp hfits)) moving
    obtain ⟨n, hreads, _⟩ := (BusM.spends_moveChunks ..).run hrun (.refl _)
    exact ⟨_, t, n, Program.bind_of_ok hrun, hreads⟩

variable {ide : Ide δ} {request : Request} {disk : Disk} {controller : Controller δ} {session : Session δ}
  {answer : Except AtaError Unit × Buffer}

theorem perform_of_onDisk (hd : ide.table.get? request.index = some disk)
    (hc : ide.controllers[disk.controller]? = some controller)
    (hrun : request.onDisk disk.slot ide.settings.commandTimeoutMs (ide.opened controller) = .ok (answer, session)) :
    request.perform ide = .ok (answer, ide.worked disk.controller controller session) := by
  unfold onDisk at hrun
  split at hrun
  · rename_i hshort
    cases hrun
    rw [Ide.worked_opened _ _ hc]
    exact perform_of_short hd hshort
  · rename_i hfits
    obtain ⟨⟨result, payload⟩, _, hmove, hrun⟩ := Program.bind_eq_ok.mp hrun
    cases hrun
    obtain ⟨_, hmoved, _⟩ := BusM.moveChunks_eq_ok hmove
    exact perform_of_moveChunks hd (Nat.not_lt.mp hfits) hc hmoved.became hmove

end Request

/-- Two requests to disks of different controllers can be carried out in either order, whatever has been asked of the
driver before and whatever the devices do: each of them has the same result and leaves the same buffer, and then every
device, the table of disks, the clock and the cycles on every channel are the same. -/
theorem requests_commute [Bank δ] {controllers : Array (Controller δ)} {maxDisks : Nat} {clock : Clock}
    {settings : Settings} (moving : clock.Moving) {steps : List (Step δ)} {answers : List Answer} {ide : Ide δ}
    (run : history steps (.fresh controllers maxDisks clock settings) = .ok (answers, ide)) {first second : Request}
    {disk other : Disk} (known : ide.table.get? first.index = some disk)
    (known' : ide.table.get? second.index = some other) (different : disk.controller ≠ other.controller) :
    ∃ answer answer' afterFirst afterSecond x y,
      first.perform ide = .ok (answer, afterFirst) ∧ second.perform afterFirst = .ok (answer', x) ∧
      second.perform ide = .ok (answer', afterSecond) ∧ first.perform afterSecond = .ok (answer, y) ∧
      y.controllers = x.controllers ∧ y.table = x.table ∧ y.clock = x.clock ∧
      ∀ controller, y.cycles controller = x.cycles controller := by
  have hm : ide.clock.Moving := (Ide.kept_history run).moving moving
  have placed := (Ide.registered_history run).placed
  obtain ⟨c, hc⟩ := placed.of_get? known
  obtain ⟨d, hd⟩ := placed.of_get? known'
  obtain ⟨answer, s, _, hfirst, hreads⟩ :=
    first.onDisk_ends disk.slot ide.settings.commandTimeoutMs (s := ide.opened c) hm
  obtain ⟨answer', t, _, hsecond, hreads'⟩ :=
    second.onDisk_ends other.slot ide.settings.commandTimeoutMs (s := ide.opened d) hm
  obtain ⟨s', t', hfirst', hsecond', halike⟩ := Ide.worked_either_order different
    (fun distance => first.steady_onDisk _ _ distance) (fun distance => second.steady_onDisk _ _ distance)
    hfirst hsecond hreads hreads'
  have hc' := (Ide.worked_controllers_of_ne ide d t different).trans hc
  have hd' := (Ide.worked_controllers_of_ne ide c s different.symm).trans hd
  exact ⟨answer, answer', _, _, _, _, Request.perform_of_onDisk known hc hfirst,
    Request.perform_of_onDisk known' hd' hsecond', Request.perform_of_onDisk known' hd hsecond,
    Request.perform_of_onDisk known hc' hfirst', halike.controllers, halike.table, halike.clock, halike.cycles⟩

/-- A driver with two channels and a drive on each, before it is started. -/
def Ide.samplePair : Ide Emulator.Channel :=
  .fresh #[⟨0x1f0, .idle (some sampleDrive) none .none⟩, ⟨0x170, .idle (some sampleDrive) none .none⟩] 2
    ⟨.hz200, 0, 1⟩ .standard

theorem Ide.exists_init_samplePair : ∃ ide disk other, IdeM.init samplePair = .ok ((), ide) ∧
    ide.table.get? 0 = some disk ∧ ide.table.get? 1 = some other ∧ disk.controller ≠ other.controller := by
  have hrun : (match IdeM.init samplePair with
      | .ok (_, ide) => match ide.table.get? 0, ide.table.get? 1 with
        | some disk, some other => decide (disk.controller ≠ other.controller)
        | _, _ => false
      | .error _ => false) = true := by decide +kernel
  split at hrun
  · rename_i ide started
    split at hrun
    · rename_i disk other known known'
      exact ⟨ide, disk, other, started, known, known', of_decide_eq_true hrun⟩
    · cases hrun
  · cases hrun

theorem sample_requests_commute : ∃ answers ide disk other, Ide.samplePair.clock.Moving ∧
    history [.init] Ide.samplePair = .ok (answers, ide) ∧ ide.table.get? 0 = some disk ∧
    ide.table.get? 1 = some other ∧ disk.controller ≠ other.controller ∧
    ∀ buffer buffer', ∃ answer answer' afterFirst afterSecond x y,
      (Request.mk 0 0 2 (.write buffer)).perform ide = .ok (answer, afterFirst) ∧
      (Request.mk 1 1 1 (.read buffer')).perform afterFirst = .ok (answer', x) ∧
      (Request.mk 1 1 1 (.read buffer')).perform ide = .ok (answer', afterSecond) ∧
      (Request.mk 0 0 2 (.write buffer)).perform afterSecond = .ok (answer, y) ∧
      y.controllers = x.controllers ∧ y.table = x.table ∧ y.clock = x.clock ∧
      ∀ controller, y.cycles controller = x.cycles controller := by
  obtain ⟨ide, disk, other, started, known, known', different⟩ := Ide.exists_init_samplePair
  have moving : Ide.samplePair.clock.Moving := ⟨by decide, by decide⟩
  have hstep : Step.init.perform Ide.samplePair = .ok (.done, ide) := Program.bind_of_ok started
  have run := history_singleton hstep
  refine ⟨_, ide, disk, other, moving, run, known, known', different, fun buffer buffer' => ?_⟩
  exact requests_commute moving run known known' different

end PolledAta
