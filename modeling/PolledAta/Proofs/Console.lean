import PolledAta.Proofs.Session
import PolledAta.Proofs.Watching
import PolledAta.Rom.Boot

/-!
# Programs of the console

A program that only writes to the console and to the master chip comes to its end on every machine, whenever its console
has room, and shows the same. The channel and the tick counter are left alone.
-/

namespace PolledAta.Rom

variable {δ : Type} {frames looks : Nat} {machine before between after : Machine δ frames looks}
  {monitor monitor₁ monitor₂ : Monitor} {bytes bytes' : List UInt8} {seen seen' : List Sighting}

namespace Machine

/-- What the accesses between two states of a machine show. -/
def Shows (before after : Machine δ frames looks) (monitor : Monitor) (bytes : List UInt8) (seen : List Sighting)
    (monitor' : Monitor) : Prop :=
  ∃ accesses, after.accesses.toList = before.accesses.toList ++ accesses ∧ monitor.Shows accesses bytes seen monitor'

theorem shows_refl (machine : Machine δ frames looks) (monitor : Monitor) :
    machine.Shows machine monitor [] [] monitor :=
  ⟨[], (List.append_nil _).symm, Monitor.shows_nil monitor⟩

theorem Shows.trans (h : before.Shows between monitor bytes seen monitor₁)
    (h' : between.Shows after monitor₁ bytes' seen' monitor₂) :
    before.Shows after monitor (bytes ++ bytes') (seen ++ seen') monitor₂ := by
  obtain ⟨first, hfirst, hshows⟩ := h
  obtain ⟨rest, hrest, hshows'⟩ := h'
  exact ⟨first ++ rest, by rw [hrest, hfirst, List.append_assoc], hshows.append hshows'⟩

theorem shows_record {access : Access} (h : monitor.Shows [access] bytes seen monitor₁) :
    machine.Shows (machine.record access) monitor bytes seen monitor₁ :=
  ⟨[access], Array.toList_push, h⟩

/-- The channel and the tick counter are as they were. -/
structure Spares (before after : Machine δ frames looks) : Prop where
  device : after.device = before.device
  counter : after.counter = before.counter

theorem spares_refl (machine : Machine δ frames looks) : machine.Spares machine := ⟨rfl, rfl⟩

theorem Spares.trans (h : before.Spares between) (h' : between.Spares after) : before.Spares after :=
  ⟨h'.device.trans h.device, h'.counter.trans h.counter⟩

end Machine

/-- On every machine the program comes to its end, and shows this. -/
structure BootM.Shows (program : BootM (Machine δ frames looks) Unit) (monitor : Monitor) (bytes : List UInt8)
    (seen : List Sighting) (monitor' : Monitor) : Prop where
  run : ∀ machine, ∃ after, program machine = .ok ((), after) ∧ machine.Spares after ∧
    machine.Shows after monitor bytes seen monitor'

namespace BootM

variable {program next : BootM (Machine δ frames looks) Unit}

theorem shows_pure (monitor : Monitor) : Shows (pure () : BootM (Machine δ frames looks) Unit) monitor [] [] monitor :=
  ⟨fun machine => ⟨machine, rfl, machine.spares_refl, machine.shows_refl monitor⟩⟩

theorem Shows.bind (h : program.Shows monitor bytes seen monitor₁) (h' : next.Shows monitor₁ bytes' seen' monitor₂) :
    (program >>= fun _ => next).Shows monitor (bytes ++ bytes') (seen ++ seen') monitor₂ := by
  refine ⟨fun machine => ?_⟩
  obtain ⟨between, hrun, hspares, hshows⟩ := h.run machine
  obtain ⟨after, hnext, hspares', hshows'⟩ := h'.run between
  exact ⟨after, (Program.bind_of_ok hrun).trans hnext, hspares.trans hspares', hshows.trans hshows'⟩

end BootM

variable [Bank δ]

/-! ## One access -/

theorem write_uart (machine : Machine δ frames looks) (reg : Uart.Register) (value : UInt8) :
    Uart.write reg value machine = .ok ((), machine.record (.writeByte (Uart.address reg) value)) := by
  have hnone : Machine.register? reg.port = none := by cases reg <;> decide
  show Except.ok ((), machine.writeByte (Uart.address reg) value) = _
  rw [Machine.writeByte, Uart.address, Isa.Window.bytePort?_byteAddress]
  dsimp only
  rw [Machine.writePort, hnone]

theorem write_masterChip (machine : Machine δ frames looks) (reg : MasterChip.Register) (value : UInt8) :
    MasterChip.write reg value machine = .ok ((), machine.record (.writeByte (MasterChip.address reg) value)) := by
  have hnone : Isa.Window.board.bytePort? (MasterChip.address reg) = none := by cases reg <;> decide
  show Except.ok ((), machine.writeByte (MasterChip.address reg) value) = _
  rw [Machine.writeByte, hnone]

/-- The machine once it has been asked for the line status. -/
def Machine.looked (machine : Machine δ frames looks) : Machine δ frames looks :=
  { machine with console := machine.console.look.2 }.record (look machine.console.look.1)

theorem read_lineStatus (machine : Machine δ frames looks) :
    Uart.read .lineStatus machine = .ok (machine.console.look.1, machine.looked) := by
  show Except.ok (machine.readByte (Uart.address .lineStatus)) = _
  rw [Machine.readByte, Uart.address, Isa.Window.bytePort?_byteAddress]
  dsimp only
  rw [Machine.readPort, if_pos rfl]
  rfl

/-- Writing a register of the console that is not the way to its line. -/
theorem shows_write {reg : Uart.Register} {value : UInt8} {sighting : Sighting}
    (see : monitor.seePort reg.port value = (some sighting, monitor₁)) (mute : sighting.serial? = none) :
    (Uart.write reg value : BootM (Machine δ frames looks) Unit).Shows monitor [] [sighting] monitor₁ := by
  refine ⟨fun machine => ⟨_, write_uart machine reg value, ⟨rfl, rfl⟩, Machine.shows_record ?_⟩⟩
  refine Monitor.shows_access ((Monitor.see_writePort ..).trans see) ?_ (.inl ⟨reg, rfl⟩)
  rintro _ ⟨⟩
  exact mute

theorem shows_writeMaster (words : Nat) (reg : MasterChip.Register) (value : UInt8) :
    (MasterChip.write reg value : BootM (Machine δ frames looks) Unit).Shows (.unlatched words) []
      [.master reg.offset value] (.unlatched words) := by
  have hsee : (Monitor.unlatched words).see (.writeByte (MasterChip.address reg) value) =
      (some (.master reg.offset value), .unlatched words) := by cases reg <;> rfl
  refine ⟨fun machine => ⟨_, write_masterChip machine reg value, ⟨rfl, rfl⟩, Machine.shows_record ?_⟩⟩
  refine Monitor.shows_access hsee ?_ (.inr (.inl ⟨reg, rfl⟩))
  rintro _ ⟨⟩
  rfl

/-! ## Bytes for the console -/

/-- A byte waits until there is room, if there is before patience is lost. -/
theorem put_run (byte : UInt8) {patience wait : Nat} (hwait : wait < patience)
    (ready : machine.console.status (machine.console.looks + wait) &&& Uart.transmitReady ≠ 0) :
    ∃ after, ∃ vain : List UInt8, ∃ status, Uart.put byte patience machine = .ok ((), after) ∧ machine.Spares after ∧
      status &&& Uart.transmitReady ≠ 0 ∧ after.accesses.toList = machine.accesses.toList ++
        (vain.map look ++ [look status, .writeByte (Uart.address .data) byte]) := by
  induction patience generalizing machine wait with
  | zero => cases hwait
  | succ patience ih =>
      rw [Uart.put, Program.bind_of_ok (read_lineStatus machine)]
      by_cases hbusy : machine.console.look.1 &&& Uart.transmitReady = 0
      · rw [if_pos hbusy]
        -- the look that shows room is a later one
        cases wait with
        | zero => exact absurd hbusy ready
        | succ wait =>
            have ready' : machine.looked.console.status (machine.looked.console.looks + wait) &&&
                Uart.transmitReady ≠ 0 := by
              rw [Nat.add_comm wait, ← Nat.add_assoc] at ready
              exact ready
            obtain ⟨after, vain, status, hrun, hspares, hstatus, haccesses⟩ := ih (Nat.lt_of_succ_lt_succ hwait) ready'
            refine ⟨after, machine.console.look.1 :: vain, status, hrun, ?_, hstatus, ?_⟩
            · exact ⟨hspares.device, hspares.counter⟩
            · rw [haccesses]
              simp [Machine.looked, Machine.record]
      · rw [if_neg hbusy]
        refine ⟨_, [], machine.console.look.1, write_uart machine.looked .data byte, ⟨rfl, rfl⟩, hbusy, ?_⟩
        simp [Machine.looked, Machine.record]

theorem shows_put (words : Nat) (byte : UInt8) :
    (Uart.put byte looks : BootM (Machine δ frames looks) Unit).Shows (.unlatched words) [byte] []
      (.unlatched words) := by
  refine ⟨fun machine => ?_⟩
  obtain ⟨wait, hwait, ready⟩ := machine.console.regular machine.console.looks
  obtain ⟨after, vain, status, hrun, hspares, hstatus, haccesses⟩ := put_run byte hwait ready
  exact ⟨after, hrun, hspares, _, haccesses, Monitor.shows_put words vain hstatus byte⟩

theorem shows_send (words : Nat) (bytes : List UInt8) :
    (Uart.send looks bytes : BootM (Machine δ frames looks) Unit).Shows (.unlatched words)
      (bytes.flatMap fun byte => if byte = 0x0a then [0x0d, byte] else [byte]) [] (.unlatched words) := by
  induction bytes with
  | nil => exact BootM.shows_pure _
  | cons byte bytes ih =>
      rw [Uart.send, List.flatMap_cons]
      split
      · exact (shows_put words 0x0d).bind ((shows_put words byte).bind ih)
      · exact (shows_put words byte).bind ih

/-- A line of the log goes out over the console if it is important enough. -/
theorem print_run (record : Log.Record) (machine : Machine δ frames looks) :
    ∃ after, Host.print record machine = .ok after ∧ machine.Spares after ∧
      ∀ words, machine.Shows after (.unlatched words) (onConsole [record]) [] (.unlatched words) := by
  show ∃ after, machine.print record = .ok after ∧ _
  rw [onConsole_singleton, Machine.print]
  split
  · obtain ⟨after, hrun, hspares, -⟩ := (shows_send 0 record.line.toUTF8.toList).run machine
    have hprint : Uart.print looks record.line machine = .ok ((), after) := hrun
    rw [hprint]
    refine ⟨after, rfl, hspares, fun words => ?_⟩
    obtain ⟨after', hrun', -, hshows⟩ := (shows_send words record.line.toUTF8.toList).run machine
    obtain rfl : after = after' := (Prod.mk.inj (Except.ok.inj (hrun.symm.trans hrun'))).2
    exact hshows
  · exact ⟨machine, rfl, machine.spares_refl, fun _ => machine.shows_refl _⟩

theorem shows_info (words : Nat) (text : String) :
    (info text : BootM (Machine δ frames looks) Unit).Shows (.unlatched words) (onConsole [⟨.info, text⟩]) []
      (.unlatched words) := by
  refine ⟨fun machine => ?_⟩
  obtain ⟨after, hprint, hspares, hshows⟩ := print_run ⟨.info, text⟩ machine
  refine ⟨after, ?_, hspares, hshows words⟩
  rw [info, hprint]
  rfl

/-! ## Before the driver -/

/-- What a board shows before its driver is started: the console is set up, and then the frame interrupt. -/
def setup (rate : TimerRate) : List Sighting :=
  [.uart 1 0x00, .uart 3 0x80, .uart 0 0x01, .uart 1 0x00, .uart 3 0x03, .uart 2 0x07, .uart 4 0x03,
    .master 0x08 0x00, .master 0x14 0x00, .master 0x24 0xff, .master 0x28 0xff, .master 0x2c 0x00,
    .master 0x38 (match rate with | .hz200 => 1 | .hz50 => 0), .interruptMask 1]

theorem shows_start (rate : TimerRate) :
    (Uart.start : BootM (Machine δ frames looks) Unit).Shows .start [] ((setup rate).take 7) (.unlatched 0) :=
  (shows_write rfl rfl).bind <| (shows_write rfl rfl).bind <| (shows_write rfl rfl).bind <|
    (shows_write rfl rfl).bind <| (shows_write rfl rfl).bind <| (shows_write rfl rfl).bind <| shows_write rfl rfl

theorem shows_masterChip (words : Nat) (rate : TimerRate) :
    (MasterChip.start rate : BootM (Machine δ frames looks) Unit).Shows (.unlatched words) []
      [.master 0x08 0x00, .master 0x14 0x00, .master 0x24 0xff, .master 0x28 0xff, .master 0x2c 0x00,
        .master 0x38 (MasterChip.frameRateValue rate)] (.unlatched words) :=
  (shows_writeMaster ..).bind <| (shows_writeMaster ..).bind <| (shows_writeMaster ..).bind <|
    (shows_writeMaster ..).bind <| (shows_writeMaster ..).bind <| shows_writeMaster ..

omit [Bank δ] in
theorem shows_maskInterrupts (words : Nat) :
    (modify (·.maskInterrupts 1) : BootM (Machine δ frames looks) Unit).Shows (.unlatched words) [] [.interruptMask 1]
      (.unlatched words) := by
  refine ⟨fun machine => ⟨_, rfl, ⟨rfl, rfl⟩, Machine.shows_record (Monitor.shows_access rfl ?_ trivial)⟩⟩
  rintro _ ⟨⟩
  rfl

theorem setupInterrupts_run (words : Nat) (machine : Machine δ frames looks) :
    ∃ after, setupInterrupts machine = .ok ((), after) ∧ machine.Spares after ∧
      machine.Shows after (.unlatched words) [] ((setup machine.counter.rate).drop 7) (.unlatched words) := by
  obtain ⟨after, hrun, hspares, hshows⟩ :=
    ((shows_masterChip words machine.counter.rate).bind (shows_maskInterrupts words)).run machine
  exact ⟨after, hrun, hspares, hshows⟩

end PolledAta.Rom
