import PolledAta.Proofs.Console
import PolledAta.Proofs.Correspondence
import PolledAta.Proofs.Mapped

/-!
# The driver on the board

On the board the driver reaches its channel over the bus, and its log goes out over the console. It does there what it
does with the channel and the tick counter alone, and the accesses of the machine show it.
-/

namespace PolledAta

/-! ## Events -/

/-- What happened, on whichever controller. -/
def Entry.event? : Entry → Option Event
  | .line _ event => some event
  | .log record => some (.log record)
  | .mount .. => none

namespace Ide

variable {δ κ : Type} (ide : Ide δ κ)

def events : List Event := ide.journal.toList.filterMap Entry.event?

theorem records_eq_events : ide.records = ide.events.filterMap Event.record? := by
  rw [records, events, List.filterMap_filterMap]
  refine List.filterMap_congr fun entry _ => ?_
  cases entry <;> rfl

end Ide

namespace Rom

variable {δ : Type} {frames looks : Nat} {before machine after : Machine δ frames looks} {past events : List Event}

/-- Since an earlier state the machine has shown the events: their log on the console, and their cycles on the bus. -/
def Machine.HasShown (before machine : Machine δ frames looks) (events : List Event) : Prop :=
  ∃ words, before.Shows machine .start (onConsole (events.filterMap Event.record?))
      (Monitor.start.watch (onBoard (events.filterMap Event.cycle?))) (.unlatched words) ∧
    Monitor.start.seeAll (onBoard (events.filterMap Event.cycle?)) = .unlatched words

namespace Machine

theorem hasShown_nil (machine : Machine δ frames looks) : machine.HasShown machine [] :=
  ⟨0, machine.shows_refl _, rfl⟩

theorem HasShown.push (h : before.HasShown machine events) {event : Event}
    (step : ∀ words, ∃ words', machine.Shows after (.unlatched words) (onConsole event.record?.toList)
        ((Monitor.unlatched words).watch (onBoard event.cycle?.toList)) (.unlatched words') ∧
      (Monitor.unlatched words).seeAll (onBoard event.cycle?.toList) = .unlatched words') :
    before.HasShown after (events ++ [event]) := by
  obtain ⟨words, hshows, hafter⟩ := h
  obtain ⟨words', hstep, hafter'⟩ := step words
  have hone {β : Type} (view : Event → Option β) :
      (events ++ [event]).filterMap view = events.filterMap view ++ (view event).toList := by
    rw [List.filterMap_append, List.filterMap_cons]
    cases view event <;> rfl
  refine ⟨words', ?_, ?_⟩
  · rw [hone, hone, onConsole_append, onBoard, List.map_append]
    have hwatch := Monitor.watch_append .start (onBoard (events.filterMap Event.cycle?)) (onBoard event.cycle?.toList)
    rw [hafter] at hwatch
    exact hwatch ▸ hshows.trans hstep
  · rw [hone, onBoard, List.map_append, Monitor.seeAll_append]
    exact hafter.symm ▸ hafter'

/-- A cycle on the channel is one access. -/
theorem HasShown.cycle (h : before.HasShown machine events) {cycle : Cycle}
    (accesses : after.accesses = machine.accesses.push (.ofCycle cycle)) :
    before.HasShown after (events ++ [.cycle cycle]) := by
  refine h.push fun words => ?_
  obtain ⟨words', hshows⟩ := Monitor.shows_cycle words cycle
  exact ⟨words', ⟨_, accesses ▸ Array.toList_push, hshows⟩, hshows.after⟩

/-- Nobody sees that the counter is read. -/
theorem HasShown.reading (h : before.HasShown machine events) (accesses : after.accesses = machine.accesses)
    (now : UInt32) : before.HasShown after (events ++ [.reading now]) :=
  h.push fun words => ⟨words, ⟨[], by rw [accesses, List.append_nil], Monitor.shows_nil _⟩, rfl⟩

theorem HasShown.log (h : before.HasShown machine events) {record : Log.Record}
    (shows : ∀ words, machine.Shows after (.unlatched words) (onConsole [record]) [] (.unlatched words)) :
    before.HasShown after (events ++ [.log record]) :=
  h.push fun words => ⟨words, shows words, rfl⟩

end Machine

end Rom

/-! ## The channel on the bus -/

/-- The registers are those of the channel of the board. -/
structure Isa.Registers.AtChannel (registers : Isa.Registers) : Prop where
  data : registers.data = Rom.dataAddress
  address : ∀ reg, registers.address reg = Rom.registerAddress reg

/-- The ports of the channel fit into the port space. -/
theorem Isa.Registers.exists_atChannel : ∃ ports, Isa.Ports.ofBase Board.controllerPort = .ok ports ∧
    (Isa.Registers.resolve .board ports).AtChannel := by
  have hfits : Board.controllerPort.toNat + 0x206 ≤ 0xffff := by decide
  obtain ⟨ports, hports, hdata, hregister⟩ := Isa.Ports.exists_ofBase hfits
  refine ⟨ports, hports, congrArg Window.board.wordAddress hdata, fun reg => ?_⟩
  rw [address, resolve, Vector.getElem_map]
  exact congrArg Window.board.byteAddress (hregister reg)

namespace Rom

section

variable {δ : Type} {frames looks : Nat} (machine : Machine δ frames looks)

theorem register?_port (reg : Register) : Machine.register? (Board.controllerPort.toNat + reg.offset) = some reg := by
  cases reg <;> decide

/-- The machine after a cycle on its channel that leaves the device like this. -/
def Machine.cycled (device : δ) (cycle : Cycle) : Machine δ frames looks :=
  { machine with device }.record (.ofCycle cycle)

variable [Bank δ]

theorem readByte_channel (reg : Register) : AddressSpace.readByte machine (registerAddress reg) =
    ((Bank.read machine.device reg).1,
      machine.cycled (Bank.read machine.device reg).2 (.read reg (Bank.read machine.device reg).1)) := by
  have hport : Board.controllerPort.toNat + reg.offset ≠ Uart.Register.lineStatus.port := by cases reg <;> decide
  show machine.readByte _ = _
  rw [Machine.readByte, registerAddress, Isa.Window.bytePort?_byteAddress]
  dsimp only
  rw [Machine.readPort, if_neg hport, register?_port]
  rfl

theorem writeByte_channel (reg : Register) (value : UInt8) : AddressSpace.writeByte machine (registerAddress reg) value =
    machine.cycled (Bank.write machine.device reg value) (.write reg value) := by
  show machine.writeByte _ _ = _
  rw [Machine.writeByte, registerAddress, Isa.Window.bytePort?_byteAddress]
  dsimp only
  rw [Machine.writePort, register?_port]
  rfl

theorem readWord_channel : AddressSpace.readWord machine dataAddress =
    ((Bank.readData machine.device).1,
      machine.cycled (Bank.readData machine.device).2 (.readData (Bank.readData machine.device).1)) := by
  show machine.readWord _ = _
  rw [Machine.readWord, dataAddress, Isa.Window.wordPort?_wordAddress, if_pos rfl]
  rfl

theorem writeWord_channel (word : UInt16) : AddressSpace.writeWord machine dataAddress word =
    machine.cycled (Bank.writeData machine.device word) (.writeData word) := by
  show machine.writeWord _ _ = _
  rw [Machine.writeWord, dataAddress, Isa.Window.wordPort?_wordAddress, if_pos rfl]
  rfl

end

end Rom

/-! ## Programs on the channel -/

open Rom

variable {δ : Type} {frames looks : Nat} {before : Machine δ frames looks} {past : List Event}

/-- The channel and the counter are parts of the machine, which has shown all that was done. -/
structure Session.OnBoard (before : Machine δ frames looks) (past : List Event) (s : Session δ (FrameCounter frames))
    (t : Session Isa.Registers (Machine δ frames looks)) : Prop where
  registers : t.device.AtChannel
  device : t.clock.device = s.device
  counter : t.clock.counter = s.clock
  history : t.history = s.history
  shown : before.HasShown t.clock (past ++ s.history.toList)

/-- The driver knows the same, and does it on the machine. -/
structure Ide.OnBoard (before : Machine δ frames looks) (x : Ide δ (FrameCounter frames))
    (y : Ide Isa.Registers (Machine δ frames looks)) : Prop where
  controllers : ∃ base registers, registers.AtChannel ∧ x.controllers = #[⟨base, y.clock.device⟩] ∧
    y.controllers = #[⟨base, registers⟩]
  table : y.table = x.table
  counter : y.clock.counter = x.clock
  settings : y.settings = x.settings
  initialised : y.initialised = x.initialised
  journal : y.journal = x.journal
  shown : before.HasShown y.clock x.events

/-- Runs on the board, since a state of its machine, next to runs with the channel and the counter alone. -/
abbrev Rom.alongside (before : Machine δ frames looks) :
    Correspondence δ (FrameCounter frames) Isa.Registers (Machine δ frames looks) where
  Past := List Event
  sessions := Session.OnBoard before
  drivers := Ide.OnBoard before

theorem Session.OnBoard.push {s : Session δ (FrameCounter frames)} {t : Session Isa.Registers (Machine δ frames looks)}
    (h : s.OnBoard before past t) {event : Event} {device : δ} {counter : FrameCounter frames}
    {machine : Machine δ frames looks} (hd : machine.device = device) (hc : machine.counter = counter)
    (shown : before.HasShown machine (past ++ s.history.toList ++ [event])) :
    Session.OnBoard before past ⟨device, counter, s.history.push event⟩ ⟨t.device, machine, t.history.push event⟩ where
  registers := h.registers
  device := hd
  counter := hc
  history := by rw [h.history]
  shown := by rwa [Array.toList_push, ← List.append_assoc]

/-- A cycle is an access to the bus. -/
theorem BusM.alongside_cycle {α : Type} {program : TimedBusM δ (FrameCounter frames) α}
    {program' : TimedBusM Isa.Registers (Machine δ frames looks) α} (answer : δ → α) (next : δ → δ) (cycle : δ → Cycle)
    (run : ∀ s, program s =
      .ok (answer s.device, ⟨next s.device, s.clock, s.history.push (.cycle (cycle s.device))⟩))
    (run' : ∀ t : Session Isa.Registers (Machine δ frames looks), t.device.AtChannel → program' t =
      .ok (answer t.clock.device, ⟨t.device, t.clock.cycled (next t.clock.device) (cycle t.clock.device),
        t.history.push (.cycle (cycle t.clock.device))⟩)) :
    BusM.Alike (alongside before) program program' := by
  refine ⟨fun past => ⟨fun s t h => ?_⟩⟩
  rw [run, run' t h.registers, h.device]
  exact .ok ⟨rfl, h.push rfl h.counter (h.shown.cycle rfl)⟩

variable [Bank δ]

/-- On the board each access goes over the bus, the time is that of the counter, and the log is sent. -/
theorem Rom.inStep_alongside (before : Machine δ frames looks) : (alongside before).InStep 0 where
  rate past s t h := congrArg FrameCounter.rate h.counter
  patience := rfl
  read reg := by
    refine BusM.alongside_cycle (fun d => (Bank.read d reg).1) (fun d => (Bank.read d reg).2)
      (fun d => .read reg (Bank.read d reg).1) (fun _ => rfl) ?_
    rintro ⟨registers, machine, history⟩ ht
    simp only [BusM.read, Wiring.read, ht.address, readByte_channel]
  write reg value := by
    refine BusM.alongside_cycle (fun _ => ()) (fun d => Bank.write d reg value) (fun _ => .write reg value)
      (fun _ => rfl) ?_
    rintro ⟨registers, machine, history⟩ ht
    simp only [BusM.write, Wiring.write, ht.address, writeByte_channel]
  readData := by
    refine BusM.alongside_cycle (fun d => dataLines (Bank.readData d).1) (fun d => (Bank.readData d).2)
      (fun d => .readData (Bank.readData d).1) (fun _ => rfl) ?_
    rintro ⟨registers, machine, history⟩ ht
    have hdata : registers.data = dataAddress := ht.data
    simp only [BusM.readData, Wiring.readData, hdata, readWord_channel]
  writeData word := by
    refine BusM.alongside_cycle (fun _ => ()) (fun d => Bank.writeData d word) (fun _ => .writeData word)
      (fun _ => rfl) ?_
    rintro ⟨registers, machine, history⟩ ht
    have hdata : registers.data = dataAddress := ht.data
    simp only [BusM.writeData, Wiring.writeData, hdata, writeWord_channel]
  readClock past := by
    refine ⟨fun s t h => ?_⟩
    have hrun : BusM.readClock s = .ok (t.clock.counter.reading.1,
        ⟨s.device, t.clock.counter.reading.2, s.history.push (.reading t.clock.counter.reading.1)⟩) := by
      rw [h.counter]
      rfl
    rw [hrun]
    exact .ok ⟨(UInt32.add_zero _).symm, h.push h.device rfl (h.shown.reading rfl _)⟩
  log level text := by
    refine ⟨fun past => ⟨fun s t h => ?_⟩⟩
    obtain ⟨registers, machine, history⟩ := t
    obtain ⟨after, hprint, hspares, hshows⟩ := print_run ⟨level, text⟩ machine
    have hrun : BusM.log level text ⟨registers, machine, history⟩ =
        .ok ((), ⟨registers, after, history.push (.log ⟨level, text⟩)⟩) := by
      simp only [BusM.log, hprint]
    rw [hrun]
    exact .ok ⟨rfl, h.push (hspares.device.trans h.device) (hspares.counter.trans h.counter) (h.shown.log hshows)⟩

/-! ## The driver -/

theorem IdeM.alongside_log (before : Machine δ frames looks) (level : Log.Level) (text : String) :
    IdeM.Alike (alongside before) (IdeM.log level text) (IdeM.log level text) := by
  refine ⟨fun x y h => ?_⟩
  obtain ⟨after, hprint, hspares, hshows⟩ := print_run ⟨level, text⟩ y.clock
  have hrun : IdeM.log level text y =
      .ok ((), { y with clock := after, journal := y.journal.push (.log ⟨level, text⟩) }) := by
    simp only [IdeM.log, hprint]
  have hrun' : IdeM.log level text x = .ok ((), { x with journal := x.journal.push (.log ⟨level, text⟩) }) := rfl
  rw [hrun, hrun']
  obtain ⟨base, registers, hat, hx, hy⟩ := h.controllers
  refine .ok ⟨rfl, ⟨base, registers, hat, ?_, hy⟩, h.table, hspares.counter.trans h.counter, h.settings, h.initialised,
    ?_, ?_⟩
  · rw [hspares.device]
    exact hx
  · rw [h.journal]
  · have hevents : Ide.events { x with journal := x.journal.push (.log ⟨level, text⟩) } =
        x.events ++ [.log ⟨level, text⟩] := by simp [Ide.events, Entry.event?]
    rw [hevents]
    exact h.shown.log hshows

omit [Bank δ] in
theorem IdeM.alongside_onController {α : Type} (before : Machine δ frames looks) (index : Nat)
    {program : TimedBusM δ (FrameCounter frames) α} {program' : TimedBusM Isa.Registers (Machine δ frames looks) α}
    (alike : BusM.Alike (alongside before) program program') :
    IdeM.Alike (alongside before) (onController index program) (onController index program') := by
  refine ⟨fun x y h => ?_⟩
  obtain ⟨base, registers, hat, hx, hy⟩ := h.controllers
  unfold onController
  rw [hx, hy]
  cases index with
  | succ index => exact .fault _
  | zero =>
      have hopened : Session.OnBoard before x.events ⟨y.clock.device, x.clock, #[]⟩ ⟨registers, y.clock, #[]⟩ :=
        ⟨hat, rfl, h.counter, rfl, by simpa using h.shown⟩
      have hrun := (alike.after x.events).run _ _ hopened
      simp only [List.getElem?_toArray, List.getElem?_cons_zero]
      generalize program ⟨y.clock.device, x.clock, #[]⟩ = first, program' ⟨registers, y.clock, #[]⟩ = second at hrun
      cases hrun with
      | fault fault => exact .fault fault
      | @ok first second related =>
          obtain ⟨a, s⟩ := first
          obtain ⟨b, t⟩ := second
          obtain ⟨hanswer, hst⟩ := related
          refine .ok ⟨hanswer, ⟨base, t.device, hst.registers, ?_, ?_⟩, h.table, hst.counter, h.settings, h.initialised,
            ?_, ?_⟩
          · rw [hst.device]
            rfl
          · rfl
          · rw [h.journal, hst.history]
          · have hevents : Ide.events { x with journal := x.journal ++ s.history.map (Entry.line 0) } =
                x.events ++ s.history.toList := by
              rw [Ide.events, Array.toList_append, List.filterMap_append, Array.toList_map, List.filterMap_map]
              exact congrArg _ (List.filterMap_some ..)
            exact hevents.symm ▸ hst.shown

/-- The driver does on the board what it does with the channel and the counter alone. -/
theorem Rom.sound_alongside (before : Machine δ frames looks) : (alongside before).Sound where
  toSoundOnChannels := (inStep_alongside before).onChannels
  bases x y h := by
    obtain ⟨base, registers, -, hx, hy⟩ := h.controllers
    simp [hx, hy]
  table _ _ h := h.table
  settings _ _ h := h.settings
  initialised _ _ h := h.initialised
  withTable _ _ _ h := { h with table := rfl }
  started _ _ h := { h with initialised := rfl }
  mounted x y index label h := by
    refine { h with journal := by rw [h.journal], shown := ?_ }
    have hevents : Ide.events { x with journal := x.journal.push (.mount index label) } = x.events := by
      simp [Ide.events, Entry.event?]
    exact hevents.symm ▸ h.shown
  logDriver := IdeM.alongside_log before
  onController index _ _ := IdeM.alongside_onController before index

end PolledAta
