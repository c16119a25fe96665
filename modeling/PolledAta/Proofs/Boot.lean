import PolledAta.Proofs.Endings
import PolledAta.Proofs.Floating
import PolledAta.Proofs.FrameCounter
import PolledAta.Proofs.Lasting
import PolledAta.Proofs.OnBoard

/-!
# The boot program

What a board shows while it boots is what its driver does when it is started on the same drives, with any clock that
moves in the place of the interrupts.
-/

namespace PolledAta

open Emulator Rom

/-! ## Lines of a journal -/

namespace Ide

variable {δ : Type} {ide ide' : Ide δ}

/-- Every line of the journal is about a controller that is there. -/
def Inside (ide : Ide δ) : Prop := ∀ i event, .line i event ∈ ide.journal.toList → i < ide.controllers.size

theorem Inside.moved [Bank δ] {writing : Prop} (h : ide.Inside) (move : ide.Move writing ide') : ide'.Inside := by
  intro i event hmem
  cases move with
  | @worked index controller session work allowed found run =>
      rw [size_worked]
      rcases List.mem_append.mp (Array.toList_append ▸ hmem) with hmem | hmem
      · exact h i event hmem
      · obtain ⟨_, _, hline⟩ := List.mem_map.mp (Array.toList_map ▸ hmem)
        cases hline
        exact (Array.getElem?_eq_some_iff.mp found).1
  | noted records =>
      rcases List.mem_append.mp (Array.toList_append ▸ hmem) with hmem | hmem
      · exact h i event hmem
      · obtain ⟨_, _, hlog⟩ := List.mem_map.mp hmem
        cases hlog
  | started => exact h i event hmem
  | enlisted slot info present room labelled =>
      have hold : .line i event ∈ ide.journal.toList := by simpa [enlisted] using hmem
      exact h i event hold

theorem inside_fresh (controllers : Array (Controller δ)) (maxDisks : Nat) (clock : Clock) (settings : Settings) :
    (fresh controllers maxDisks clock settings).Inside :=
  fun _ _ => nofun

/-- All that a driver with one controller has done, it has done there. -/
theorem Inside.cycles_eq (h : ide.Inside) (one : ide.controllers.size = 1) :
    ide.events.filterMap Event.cycle? = ide.cycles 0 := by
  rw [events, List.filterMap_filterMap]
  refine List.filterMap_congr fun entry hmem => ?_
  cases entry with
  | line i event =>
      have hi : i = 0 := Nat.lt_one_iff.mp ((h i event hmem).trans_eq one)
      rw [Entry.cycleOn?, if_pos hi]
      rfl
  | _ => rfl

end Ide

/-! ## What does not depend on the timer -/

namespace Ide.Like

variable {κ κ' : Type} [Timer κ] [Timer κ'] {x : Ide Channel κ} {y : Ide Channel κ'}

theorem records_eq (h : x.Like (.lasting κ κ') y) : y.records = x.records := by
  refine h.filterMap_journal fun entry => ?_
  rcases entry with ⟨_, event⟩ | _ | _
  · rcases event with (_ | _ | _ | _) | _ | _ <;> rfl
  · rfl
  · rfl

theorem watch_eq (h : x.Like (.lasting κ κ') y) (monitor : Monitor) :
    monitor.watch (onBoard (y.events.filterMap Event.cycle?)) =
      monitor.watch (onBoard (x.events.filterMap Event.cycle?)) := by
  have hseen : y.journal.toList.filterMap (fun entry => (entry.event?.bind Event.cycle?).filter isSeen) =
      x.journal.toList.filterMap (fun entry => (entry.event?.bind Event.cycle?).filter isSeen) := by
    refine h.filterMap_journal fun entry => ?_
    rcases entry with ⟨_, event⟩ | _ | _
    · rcases event with (_ | _ | _ | _) | _ | _ <;> rfl
    · rfl
    · rfl
  rw [← Monitor.watch_filter_isSeen, ← Monitor.watch_filter_isSeen monitor (x.events.filterMap Event.cycle?),
    Ide.events, Ide.events, List.filterMap_filterMap, List.filterMap_filterMap, List.filter_filterMap,
    List.filter_filterMap, hseen]

end Ide.Like

/-! ## The list of disks -/

namespace Rom

/-- A disk by its label, its model and its size. -/
def diskLine (disk : Disk) : String :=
  "  " ++ (toString disk.index ++ ":") ++ " " ++ disk.info.model.text ++ " (" ++
    toString disk.info.sizeMb.toNat ++ " MB)"

theorem text_ofIndex {index : Nat} (h : index < Board.maxDisks) :
    ∃ label, Label.ofIndex index = .ok label ∧ label.text = toString index ++ ":" :=
  match index, h with
  | 0, _ => ⟨⟨0x30⟩, rfl, by decide⟩
  | 1, _ => ⟨⟨0x31⟩, rfl, by decide⟩
  | 2, _ => ⟨⟨0x32⟩, rfl, by decide⟩
  | 3, _ => ⟨⟨0x33⟩, rfl, by decide⟩

theorem diskText_eq {disk : Disk} (h : disk.index < Board.maxDisks) : diskText disk = .ok (diskLine disk) := by
  obtain ⟨label, hlabel, htext⟩ := text_ofIndex h
  have hlabel : disk.label = .ok label := hlabel
  rw [diskText, hlabel, diskLine, ← htext]
  rfl

end Rom

/-! ## The whole program -/

namespace Rom

variable {δ κ : Type} {frames looks : Nat}

/-- All that the console says while a board boots. -/
def bootLog (ide : Ide δ κ) : List Log.Record :=
  [⟨.info, "Setup interrupts"⟩] ++ ide.records ++ [⟨.info, toString ide.table.count ++ " disk(s) found"⟩] ++
    (ide.table.disks.toList.map diskLine).map (⟨.info, ·⟩)

variable [Bank δ]

theorem shows_listDisks (words : Nat) {disks : List Disk} (h : ∀ disk ∈ disks, disk.index < Board.maxDisks) :
    (listDisks disks : BootM (Machine δ frames looks) Unit).Shows (.unlatched words)
      (onConsole ((disks.map diskLine).map (⟨.info, ·⟩))) [] (.unlatched words) := by
  induction disks with
  | nil => exact BootM.shows_pure _
  | cons disk disks ih =>
      obtain ⟨hfirst, hrest⟩ := List.forall_mem_cons.mp h
      rw [listDisks, diskText_eq hfirst, List.map_cons, List.map_cons, ← List.singleton_append, onConsole_append]
      exact (shows_info words _).bind (ih hrest)

/-- The driver on the board knows in the end what the driver knows that is started with the channel and the counter
alone, and the board has shown what that one has done. -/
theorem discover_run {machine : Machine δ frames looks} {ide : Ide δ (FrameCounter frames)}
    (started : IdeM.init (.fresh #[⟨Board.controllerPort, machine.device⟩] Board.maxDisks machine.counter .standard) =
      .ok ((), ide)) :
    ∃ after, discover machine = .ok (ide.table, after) ∧ machine.HasShown after ide.events := by
  obtain ⟨ports, hports, hat⟩ := Isa.Registers.exists_atChannel
  have hopened : Ide.OnBoard machine
      (.fresh #[⟨Board.controllerPort, machine.device⟩] Board.maxDisks machine.counter .standard)
      (.fresh #[⟨Board.controllerPort, .resolve .board ports⟩] Board.maxDisks machine .standard) :=
    ⟨⟨_, _, hat, rfl, rfl⟩, rfl, rfl, rfl, rfl, rfl, machine.hasShown_nil⟩
  have hends := (sound_alongside machine).init.run _ _ hopened
  rw [started] at hends
  have hdiscover : discover machine = (IdeM.init (.fresh #[⟨Board.controllerPort, Isa.Registers.resolve .board ports⟩]
      Board.maxDisks machine .standard)).map fun result => (result.2.table, result.2.clock) := by
    rw [discover, hports]
    rfl
  rw [hdiscover]
  generalize IdeM.init (.fresh #[⟨Board.controllerPort, Isa.Registers.resolve .board ports⟩] Board.maxDisks machine
    .standard) = ending at hends ⊢
  cases hends with
  | @ok _ result related =>
      refine ⟨result.2.clock, ?_, related.2.shown⟩
      rw [← related.2.table]
      rfl

/-- What a board shows of a boot. -/
theorem bootWith_shows {counter : FrameCounter frames} {device : δ} {ide : Ide δ (FrameCounter frames)}
    (started : IdeM.init (.fresh #[⟨Board.controllerPort, device⟩] Board.maxDisks counter .standard) = .ok ((), ide))
    (listed : ide.table.listing = .ok ide.table.disks.toList)
    (indices : ∀ disk ∈ ide.table.disks, disk.index < Board.maxDisks) (console : Console looks) :
    ∃ accesses words, bootWith counter console device = .ok accesses ∧
      Monitor.start.Shows accesses (onConsole (bootLog ide))
        (setup counter.rate ++ Monitor.start.watch (onBoard (ide.events.filterMap Event.cycle?)))
        (.unlatched words) := by
  obtain ⟨m₁, hstart, hspares₁, hshows₁⟩ := (shows_start counter.rate).run (Machine.start counter console device)
  obtain ⟨m₂, hinfo, hspares₂, hshows₂⟩ := (shows_info 0 "Setup interrupts").run m₁
  obtain ⟨m₃, hsetup, hspares₃, hshows₃⟩ := setupInterrupts_run 0 m₂
  have hspares := (hspares₁.trans hspares₂).trans hspares₃
  have hstarted : IdeM.init (.fresh #[⟨Board.controllerPort, m₃.device⟩] Board.maxDisks m₃.counter .standard) =
      .ok ((), ide) := by
    rw [hspares.device, hspares.counter]
    exact started
  obtain ⟨m₄, hdiscover, words, hshows₄, -⟩ := discover_run hstarted
  obtain ⟨m₅, hcount, -, hshows₅⟩ := (shows_info words (toString ide.table.count ++ " disk(s) found")).run m₄
  have hindices : ∀ disk ∈ ide.table.disks.toList, disk.index < Board.maxDisks :=
    fun disk hd => indices disk (Array.mem_toList_iff.mp hd)
  obtain ⟨m₆, hlist, -, hshows₆⟩ := (shows_listDisks words hindices).run m₅
  have hrun : main (Machine.start counter console device) = .ok ((), m₆) := by
    rw [main, Program.bind_of_ok hstart, Program.bind_of_ok hinfo, Program.bind_of_ok hsetup,
      Program.bind_of_ok hdiscover, Program.bind_of_ok hcount, listed]
    exact hlist
  have hrate : m₂.counter.rate = counter.rate := congrArg FrameCounter.rate (hspares₁.trans hspares₂).counter
  obtain ⟨accesses, haccesses, hshows⟩ :=
    ((((hshows₁.trans hshows₂).trans hshows₃).trans hshows₄).trans hshows₅).trans hshows₆
  refine ⟨accesses, words, ?_, ?_⟩
  · rw [bootWith, hrun]
    exact congrArg Except.ok haccesses
  · have hsplit : setup counter.rate = (setup counter.rate).take 7 ++ (setup counter.rate).drop 7 :=
      (List.take_append_drop ..).symm
    rw [bootLog, hsplit, Ide.records_eq_events]
    simp only [onConsole_append, List.append_assoc, List.nil_append, List.append_nil, hrate] at hshows ⊢
    exact hshows

end Rom

/-! ## The start of its driver -/

namespace Ide

/-- The driver of the board before it is started. -/
def atBoot {κ : Type} (timer : κ) (device : Channel) : Ide Channel κ :=
  .fresh #[⟨Board.controllerPort, device⟩] Board.maxDisks timer .standard

variable {clock : Clock} {device : Channel} {ide : Ide Channel}

/-- On any two timers that go on, the driver does the same with channels that have no script. -/
theorem like_atBoot {κ κ' : Type} [Timer κ] [Timer κ'] {timer : κ} {timer' : κ'} (lively : Timer.Lively timer)
    (lively' : Timer.Lively timer') (unscripted : device.faults.script = []) :
    (atBoot timer device).Like (.lasting κ κ') (atBoot timer' device) where
  controllers := rfl
  known controller hc := by
    obtain rfl := Array.mem_singleton.mp hc
    exact unscripted
  table := rfl
  timers := ⟨lively, lively'⟩
  settings := rfl
  initialised := rfl
  journal := rfl

theorem exists_started (master slave : Option Drive) (faults : Faults) (moving : clock.Moving) :
    ∃ ide, IdeM.init (atBoot clock (.idle master slave faults)) = .ok ((), ide) := by
  have hm : (atBoot clock (.idle master slave faults)).clock.Moving := moving
  have hroom : (atBoot clock (.idle master slave faults)).table.capacity ≤ 208 := show 4 ≤ 208 by decide
  obtain ⟨_, ide, started⟩ := (ends_init hm).exists_ok hroom
  exact ⟨ide, started⟩

/-- What is known of the driver once it has been started. -/
theorem started_atBoot {master slave : Option Drive} {faults : Faults}
    (started : IdeM.init (atBoot clock (.idle master slave faults)) = .ok ((), ide)) :
    ide.table.Dense ∧ ide.table.capacity = Board.maxDisks ∧ ide.InPages ∧
      ide.events.filterMap Event.cycle? = ide.cycles 0 := by
  have moves : (atBoot clock (.idle master slave faults)).Moves False ide := IdeM.moves_init started
  have hpages : (atBoot clock (.idle master slave faults)).InPages := by
    refine ⟨fun i controller hc => ?_, fun _ => .nil⟩
    obtain rfl := Array.mem_singleton.mp (Array.mem_of_getElem? hc)
    exact Channel.whole_idle rfl
  have hinside : ide.Inside := moves.induction Inside.moved (inside_fresh _ _ _ _)
  have hgrown := moves.grown (DiskTable.dense_empty _)
  exact ⟨(moves.induction Registered.moved (registered_fresh ..)).placed.dense, hgrown.capacity, hpages.init started,
    hinside.cycles_eq hgrown.controllers⟩

end Ide

/-- The boot program follows the start of a driver on the same drives, whatever the timers and the console. -/
theorem boot_follows {frames looks : Nat} (counter : FrameCounter frames) {clock : Clock} (moving : clock.Moving)
    {master slave : Option Drive} {faults : Faults} (unscripted : faults.script = []) {ide : Ide Channel}
    (started : IdeM.init (Ide.atBoot clock (Channel.idle master slave faults)) = .ok ((), ide))
    (console : Console looks) :
    ∃ accesses, bootWith counter console (Channel.idle master slave faults) = .ok accesses ∧
      trace accesses = setup counter.rate ++ sightings Option.isSome 0 (ide.cycles 0) ∧
      (Monitor.start.watch accesses).filterMap Sighting.serial? = onConsole (bootLog ide) ∧
      AwaitsRoom .start accesses ∧ ∀ access ∈ accesses, access.InPlace := by
  obtain ⟨hdense, hcapacity, hpages, hcycles⟩ := Ide.started_atBoot started
  have hlike : (Ide.atBoot clock (Channel.idle master slave faults)).Like _ (Ide.atBoot counter _) :=
    Ide.like_atBoot moving.lively counter.lively unscripted
  have hends := Comparison.sound_lasting.corresponds.init.run _ _ hlike
  rw [started] at hends
  cases hboot : IdeM.init (Ide.atBoot counter (Channel.idle master slave faults)) with
  | error fault =>
      rw [hboot] at hends
      cases hends
  | ok result =>
      rw [hboot] at hends
      cases hends with
      | ok related =>
          obtain ⟨_, ide'⟩ := result
          have hended : ide.Like (.lasting Clock (FrameCounter frames)) ide' := related.2
          have hlisted : ide'.table.listing = .ok ide'.table.disks.toList := by
            rw [hended.table]
            exact hdense.listing_eq
          have hindices : ∀ disk ∈ ide'.table.disks, disk.index < Board.maxDisks := by
            intro disk hd
            rw [hended.table] at hd
            exact (hdense.index_lt hd).trans_eq hcapacity
          obtain ⟨accesses, words, hrun, hshows⟩ := bootWith_shows hboot hlisted hindices console
          refine ⟨accesses, hrun, ?_, ?_, hshows.room, hshows.places⟩
          · rw [trace, hshows.others, hended.watch_eq, hcycles, watch_paged (hpages.paged 0)]
          · rw [hshows.serial, bootLog, bootLog, hended.records_eq, hended.table]

/-- The boot program is the start of the driver, seen through the hardware. For any drives and all faults but a script,
at either rate and however irregularly the frame interrupts come, it comes to its end. Whatever the stepping of the
clock, the driver that is started with it on the same drives has written the same registers and has been sent the same
pages, and these are seen after the interrupts have been let through. The console says what that driver has logged,
between a line before it and the list of its disks, and every byte of it waits until there is room; what the console
shows of its line makes no other difference. Nothing is accessed but the console, the master chip and the channel. -/
theorem boot_shows_start {frames : Nat} (counter : FrameCounter frames) {clock : Clock} (moving : clock.Moving)
    (master slave : Option Drive) {faults : Faults} (unscripted : faults.script = []) :
    ∃ ide, IdeM.init (.fresh #[⟨0x1f0, Channel.idle master slave faults⟩] 4 clock .standard) = .ok ((), ide) ∧
      ide.table.disks.toList.map (·.index) = List.range ide.table.count ∧
      ∀ {looks : Nat} (console : Console looks), ∃ accesses,
        bootWith counter console (Channel.idle master slave faults) = .ok accesses ∧
        trace accesses = setup counter.rate ++ sightings Option.isSome 0 (ide.cycles 0) ∧
        (Monitor.start.watch accesses).filterMap Sighting.serial? = onConsole (bootLog ide) ∧
        AwaitsRoom .start accesses ∧ ∀ access ∈ accesses, access.InPlace := by
  obtain ⟨ide, started⟩ := Ide.exists_started master slave faults moving
  obtain ⟨hdense, -⟩ := Ide.started_atBoot started
  exact ⟨ide, started, hdense.map_index_disks, boot_follows counter moving unscripted started⟩

/-- A clock that is about to wrap. -/
def sampleClock : Clock := ⟨.hz50, 0xfffffff0, 7⟩

/-- A console that is busy three times before each byte. -/
def sampleConsole : Console 4 where
  status look := if look % 4 = 3 then 0x60 else 0x40
  regular look := by
    refine ⟨3 - look % 4, by omega, ?_⟩
    rw [if_pos (by omega)]
    decide
  looks := 0

theorem sample_boot_shows_start : sampleClock.Moving ∧ Faults.none.script = [] ∧
    ∃ ide, IdeM.init (.fresh #[⟨0x1f0, Channel.idle (some Ide.sampleDrive) none .none⟩] 4 sampleClock .standard) =
        .ok ((), ide) ∧
      (∃ accesses, bootWith (.everyReading .hz200) sampleConsole (Channel.idle (some Ide.sampleDrive) none .none) =
          .ok accesses ∧
        trace accesses = setup .hz200 ++ sightings Option.isSome 0 (ide.cycles 0) ∧
        (Monitor.start.watch accesses).filterMap Sighting.serial? = onConsole (bootLog ide)) ∧
      ∀ busy, ∃ accesses, boot .hz200 (Channel.idle (some Ide.sampleDrive) none .none) busy = .ok accesses ∧
        trace accesses = setup .hz200 ++ sightings Option.isSome 0 (ide.cycles 0) ∧
        (Monitor.start.watch accesses).filterMap Sighting.serial? = onConsole (bootLog ide) := by
  have moving : sampleClock.Moving := ⟨by decide, by decide⟩
  have unscripted : Faults.none.script = [] := rfl
  obtain ⟨ide, started, _, hboot⟩ :=
    boot_shows_start (.everyReading .hz200) moving (some Ide.sampleDrive) none unscripted
  refine ⟨moving, unscripted, ide, started, ?_, fun busy => ?_⟩
  · obtain ⟨accesses, hrun, htrace, hserial, _⟩ := hboot sampleConsole
    exact ⟨accesses, hrun, htrace, hserial⟩
  · obtain ⟨accesses, hrun, htrace, hserial, _⟩ := hboot (.busyFor busy)
    exact ⟨accesses, hrun, htrace, hserial⟩

/-- A channel without drives that shows a data request all the time. -/
def sampleForced : Channel := .idle none none ⟨some 0x58, false, false, []⟩

theorem pretends_sampleForced : sampleForced.Pretends :=
  ⟨rfl, rfl, rfl, rfl, 0x58, rfl, by decide, by decide⟩

theorem count_page_setup (rate : TimerRate) : (setup rate).count .page = 0 := by
  cases rate <;> decide

/-- A status that is made up makes a start take the words of two pages that no drive sends, and no page is seen. -/
theorem floating_pages_not_seen : ∃ ide accesses,
    IdeM.init (.fresh #[⟨0x1f0, sampleForced⟩] 4 sampleClock .standard) = .ok ((), ide) ∧
    boot .hz200 sampleForced 0 = .ok accesses ∧
    (sightings (fun _ => true) 0 (ide.cycles 0)).count .page = 2 ∧ (trace accesses).count .page = 0 ∧
    trace accesses ≠ setup .hz200 ++ sightings (fun _ => true) 0 (ide.cycles 0) := by
  have moving : sampleClock.Moving := ⟨by decide, by decide⟩
  have unscripted : (⟨some 0x58, false, false, []⟩ : Faults).script = [] := rfl
  obtain ⟨ide, started⟩ := Ide.exists_started none none ⟨some 0x58, false, false, []⟩ moving
  have hpretends : (Ide.atBoot sampleClock sampleForced).Pretends := ⟨_, rfl, pretends_sampleForced⟩
  obtain ⟨htaken, hseen⟩ := hpretends.init rfl rfl rfl started
  obtain ⟨accesses, hboot, htrace, _⟩ := boot_follows (.everyReading .hz200) moving unscripted started (.busyFor 0)
  have hnone : (trace accesses).count .page = 0 := by
    rw [htrace, List.count_append, count_page_setup, hseen]
  refine ⟨ide, accesses, started, hboot, htaken, hnone, fun hsame => ?_⟩
  rw [hsame, List.count_append, htaken] at hnone
  cases hnone

end PolledAta
