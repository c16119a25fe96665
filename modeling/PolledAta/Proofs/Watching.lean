import PolledAta.Proofs.Pages
import PolledAta.Rom.Monitor

/-!
# Watching a board

What can be seen of a program from outside is put together from what can be seen of its parts: of the bytes that it
sends to the console, and of its cycles on the channel.
-/

namespace PolledAta.Rom

variable {monitor between after : Monitor} {first rest accesses : List Access} {words : Nat}

/-! ## Parts of a program -/

namespace Monitor

/-- What is remembered after these accesses. -/
def seeAll (monitor : Monitor) (accesses : List Access) : Monitor :=
  accesses.foldl (fun monitor access => (monitor.see access).2) monitor

theorem watch_cons (monitor : Monitor) (access : Access) (rest : List Access) :
    monitor.watch (access :: rest) = (monitor.see access).1.toList ++ (monitor.see access).2.watch rest := by
  rw [watch]
  split
  · rename_i hsee
    rw [hsee, Option.toList_none, List.nil_append]
  · rename_i hsee
    rw [hsee, Option.toList_some, List.singleton_append]

theorem watch_append (monitor : Monitor) (first rest : List Access) :
    monitor.watch (first ++ rest) = monitor.watch first ++ (monitor.seeAll first).watch rest := by
  induction first generalizing monitor with
  | nil => rfl
  | cons access first ih =>
      rw [List.cons_append, watch_cons, watch_cons, ih, List.append_assoc]
      rfl

theorem seeAll_cons (monitor : Monitor) (access : Access) (rest : List Access) :
    monitor.seeAll (access :: rest) = (monitor.see access).2.seeAll rest := rfl

theorem see_readByte (monitor : Monitor) (address : Nat) (value : UInt8) :
    monitor.see (.readByte address value) = (none, monitor) := rfl

theorem seeAll_append (monitor : Monitor) (first rest : List Access) :
    monitor.seeAll (first ++ rest) = (monitor.seeAll first).seeAll rest :=
  List.foldl_append

end Monitor

/-! ## Room for every byte -/

/-- Every byte that goes out over the serial line comes right after a look at the line status that shows room for it. -/
def AwaitsRoom (monitor : Monitor) (accesses : List Access) : Prop :=
  ∀ before access after byte, accesses = before ++ access :: after →
    ((monitor.seeAll before).see access).1 = some (.serial byte) →
    ∃ earlier status, before = earlier ++ [.readByte (Uart.address .lineStatus) status] ∧
      status &&& Uart.transmitReady ≠ 0

theorem awaitsRoom_of_mute (mute : (monitor.watch accesses).filterMap Sighting.serial? = []) :
    AwaitsRoom monitor accesses := by
  rintro before access after byte rfl hserial
  rw [Monitor.watch_append, Monitor.watch_cons, hserial] at mute
  simp [Sighting.serial?] at mute

theorem AwaitsRoom.append (h : AwaitsRoom monitor first) (h' : AwaitsRoom (monitor.seeAll first) rest) :
    AwaitsRoom monitor (first ++ rest) := by
  intro before access after byte hsplit hserial
  rcases List.append_eq_append_iff.mp hsplit with ⟨middle, rfl, hrest⟩ | ⟨middle, hfirst, hrest⟩
  · rw [Monitor.seeAll_append] at hserial
    obtain ⟨earlier, status, rfl, hroom⟩ := h' middle access after byte hrest hserial
    exact ⟨first ++ earlier, status, (List.append_assoc ..).symm, hroom⟩
  · cases middle with
    | nil =>
        -- the first of the rest would have been sent without a look
        rw [List.append_nil] at hfirst
        rw [← hfirst] at hserial
        obtain ⟨earlier, _, hnone, _⟩ := h' [] access after byte hrest.symm hserial
        cases earlier <;> cases hnone
    | cons other middle =>
        obtain ⟨rfl, _⟩ := List.cons.inj hrest
        exact h before access middle byte hfirst hserial

/-! ## Places -/

/-- Where the registers of the channel and its data port lie. -/
def registerAddress (reg : Register) : Nat :=
  Isa.Window.board.byteAddress (Board.controllerPort.toNat + reg.offset)

def dataAddress : Nat := Isa.Window.board.wordAddress Machine.dataPort

/-- An access to the console, the master chip or the channel that a boot has a reason for. -/
def Access.InPlace : Access → Prop
  | .readByte address _ => address = Uart.address .lineStatus ∨ ∃ reg, address = registerAddress reg
  | .writeByte address _ => (∃ reg, address = Uart.address reg) ∨ (∃ reg, address = MasterChip.address reg) ∨
      ∃ reg, address = registerAddress reg
  | .readWord address _ | .writeWord address _ => address = dataAddress
  | .interruptMask _ => True

/-! ## What accesses show -/

namespace Monitor

/-- The accesses are in place and send the bytes over the serial line, each when there is room for it; all else that is
seen of them is in `seen`. -/
structure Shows (monitor : Monitor) (accesses : List Access) (bytes : List UInt8) (seen : List Sighting)
    (after : Monitor) : Prop where
  serial : (monitor.watch accesses).filterMap Sighting.serial? = bytes
  others : (monitor.watch accesses).filter (fun sighting => sighting.serial?.isNone) = seen
  after : monitor.seeAll accesses = after
  room : AwaitsRoom monitor accesses
  places : ∀ access ∈ accesses, access.InPlace

theorem shows_nil (monitor : Monitor) : monitor.Shows [] [] [] monitor where
  serial := rfl
  others := rfl
  after := rfl
  room := awaitsRoom_of_mute rfl
  places _ := nofun

theorem Shows.append {bytes bytes' : List UInt8} {seen seen' : List Sighting}
    (h : monitor.Shows first bytes seen between) (h' : between.Shows rest bytes' seen' after) :
    monitor.Shows (first ++ rest) (bytes ++ bytes') (seen ++ seen') after where
  serial := by rw [watch_append, List.filterMap_append, h.serial, h.after, h'.serial]
  others := by rw [watch_append, List.filter_append, h.others, h.after, h'.others]
  after := by rw [seeAll_append, h.after, h'.after]
  room := h.room.append (h.after.symm ▸ h'.room)
  places access hmem := (List.mem_append.mp hmem).elim (h.places access) (h'.places access)

/-- What an access shows that sends nothing. -/
theorem shows_access {access : Access} {sighting : Option Sighting} (see : monitor.see access = (sighting, after))
    (mute : ∀ seen ∈ sighting, seen.serial? = none) (place : access.InPlace) :
    monitor.Shows [access] [] sighting.toList after := by
  have hwatch : monitor.watch [access] = sighting.toList := by
    rw [watch_cons, see]
    exact List.append_nil _
  have hmute : ∀ seen ∈ sighting.toList, seen.serial? = none := by simpa using mute
  have hserial : (monitor.watch [access]).filterMap Sighting.serial? = [] := by
    rw [hwatch]
    exact List.filterMap_eq_nil_iff.mpr hmute
  refine ⟨hserial, ?_, ?_, awaitsRoom_of_mute hserial, by simpa using place⟩
  · rw [hwatch]
    apply List.filter_eq_self.mpr
    intro seen hseen
    rw [hmute seen hseen, Option.isNone_none]
  · rw [seeAll, List.foldl_cons, see, List.foldl_nil]

/-! ## Ports -/

/-- The monitor while the first two registers of the console do not hold the divisor. -/
def unlatched (words : Nat) : Monitor := ⟨false, words⟩

theorem see_writePort (monitor : Monitor) (port : Nat) (value : UInt8) :
    monitor.see (.writeByte (Isa.Window.board.byteAddress port) value) = monitor.seePort port value := by
  rw [see, Isa.Window.bytePort?_byteAddress]

theorem see_send (words : Nat) (byte : UInt8) :
    (unlatched words).see (.writeByte (Uart.address .data) byte) = (some (.serial byte), unlatched words) :=
  see_writePort ..

theorem see_register (monitor : Monitor) (reg : Register) (value : UInt8) :
    monitor.see (.writeByte (registerAddress reg) value) =
      (some (.port (Board.controllerPort.toNat + reg.offset) value), monitor) := by
  have houtside : ¬(Uart.basePort ≤ Board.controllerPort.toNat + reg.offset ∧
      Board.controllerPort.toNat + reg.offset < Uart.basePort + 8) := by
    cases reg <;> decide
  rw [registerAddress, see_writePort, seePort, if_neg houtside]

end Monitor

/-! ## Bytes for the console -/

/-- A look at the line status. -/
def look (status : UInt8) : Access := .readByte (Uart.address .lineStatus) status

/-- The bytes that a text is sent as, with a carriage return before each line feed. -/
def wire (text : String) : List UInt8 :=
  text.toUTF8.toList.flatMap fun byte => if byte = 0x0a then [0x0d, byte] else [byte]

/-- The bytes that the log lines of a board are sent as. -/
def onConsole (records : List Log.Record) : List UInt8 := (Log.lines Board.logCeiling records).flatMap wire

theorem onConsole_append (first second : List Log.Record) :
    onConsole (first ++ second) = onConsole first ++ onConsole second := by
  simp [onConsole, Log.lines]

theorem onConsole_singleton (record : Log.Record) :
    onConsole [record] = if Board.logCeiling.admits record.level then wire record.line else [] := by
  rw [onConsole, Log.lines, List.filter_singleton]
  cases Board.logCeiling.admits record.level with
  | true => exact List.flatMap_singleton ..
  | false => rfl

namespace Monitor

theorem shows_looks (monitor : Monitor) (statuses : List UInt8) :
    monitor.Shows (statuses.map look) [] [] monitor := by
  induction statuses with
  | nil => exact shows_nil monitor
  | cons status statuses ih =>
      have hlook : monitor.Shows [look status] [] [] monitor := shows_access (see_readByte ..) nofun (.inl rfl)
      exact hlook.append ih

/-- A byte that is sent once there is room. -/
theorem shows_put (words : Nat) (vain : List UInt8) {status : UInt8} (ready : status &&& Uart.transmitReady ≠ 0)
    (byte : UInt8) : (unlatched words).Shows (vain.map look ++ [look status, .writeByte (Uart.address .data) byte])
      [byte] [] (unlatched words) := by
  have hwatch : (unlatched words).watch [look status, .writeByte (Uart.address .data) byte] = [.serial byte] := by
    rw [watch_cons, look, see_readByte, watch_cons, see_send]
    rfl
  refine (shows_looks _ vain).append ⟨?_, ?_, ?_, ?_, ?_⟩
  · rw [hwatch]
    rfl
  · rw [hwatch]
    rfl
  · rw [seeAll_cons, look, see_readByte, seeAll_cons, see_send]
    rfl
  · intro before access after sent hsplit hserial
    rcases before with _ | ⟨first, _ | ⟨second, before⟩⟩
    · obtain ⟨rfl, _⟩ := List.cons.inj hsplit
      cases hserial
    · obtain ⟨rfl, _⟩ := List.cons.inj hsplit
      exact ⟨[], status, rfl, ready⟩
    · obtain ⟨_, hrest⟩ := List.cons.inj hsplit
      obtain ⟨_, hnone⟩ := List.cons.inj hrest
      cases before <;> cases hnone
  · simp [look, Access.InPlace]

end Monitor

/-! ## Cycles on a channel -/

/-- What is seen of the cycles on the channel of the board: its registers are written, and a page is sent when as many
words as it has have been taken in a row that count. -/
def sightings (counts : Option UInt16 → Bool) : (words : Nat) → List Cycle → List Sighting
  | _, [] => []
  | words, .readData word :: rest =>
    if counts word then
      if words + 1 = sectorWords then .page :: sightings counts 0 rest else sightings counts (words + 1) rest
    else sightings counts 0 rest
  | _, .write reg value :: rest => .port (Board.controllerPort.toNat + reg.offset) value :: sightings counts 0 rest
  | _, .read .. :: rest => sightings counts 0 rest
  | _, .writeData _ :: rest => sightings counts 0 rest

/-- One access to the registers of the channel, as it appears on the bus. -/
def Access.ofCycle : Cycle → Access
  | .read reg value => .readByte (registerAddress reg) value
  | .write reg value => .writeByte (registerAddress reg) value
  | .readData word => .readWord dataAddress word
  | .writeData word => .writeWord dataAddress word

def onBoard (cycles : List Cycle) : List Access := cycles.map .ofCycle

/-- Samples of a register are not seen. -/
def isSeen : Cycle → Bool
  | .read .. => false
  | _ => true

namespace Monitor

theorem watch_filter_isSeen (monitor : Monitor) (cycles : List Cycle) :
    monitor.watch (onBoard (cycles.filter isSeen)) = monitor.watch (onBoard cycles) := by
  induction cycles generalizing monitor with
  | nil => rfl
  | cons cycle cycles ih =>
      cases cycle with
      | read => exact ih _
      | _ =>
          simp only [List.filter_cons, isSeen, if_true, onBoard, List.map_cons, watch_cons]
          exact congrArg _ (ih _)

/-! ### Pages -/

theorem see_word (words : Nat) (word : UInt16) :
    (unlatched words).see (.ofCycle (.readData (some word))) =
      if words + 1 = sectorWords then (some .page, start) else (none, unlatched (words + 1)) := by
  rw [Access.ofCycle, see, dataAddress, Isa.Window.wordPort?_wordAddress, if_pos rfl]
  rfl

/-- The words of a page, of which some have been taken. -/
theorem watch_sent {words : List UInt16} {taken : Nat} (hne : words ≠ []) (hfull : taken + words.length = sectorWords)
    (rest : List Cycle) :
    (unlatched taken).watch (onBoard (words.map (fun word => .readData (some word)) ++ rest)) =
      .page :: start.watch (onBoard rest) := by
  induction words generalizing taken with
  | nil => exact absurd rfl hne
  | cons word words ih =>
      rw [List.map_cons, List.cons_append, onBoard, List.map_cons, watch_cons, see_word]
      rw [List.length_cons] at hfull
      cases words with
      | nil =>
          have hlast : taken + 1 = sectorWords := hfull
          rw [if_pos hlast]
          rfl
      | cons second words =>
          rw [List.length_cons] at hfull
          rw [if_neg (by omega)]
          exact ih nofun (by rw [List.length_cons]; omega)

theorem watch_floating (monitor : Monitor) (count : Nat) (rest : List Cycle) :
    monitor.watch (onBoard (.replicate count (.readData none) ++ rest)) = monitor.watch (onBoard rest) := by
  induction count with
  | zero => rfl
  | succ count ih => exact ih

end Monitor

/-- The words of a page, of which some have been taken. -/
theorem sightings_page {counts : Option UInt16 → Bool} {driven : List (Option UInt16)} {taken : Nat}
    (hcounts : ∀ word ∈ driven, counts word = true) (hne : driven ≠ []) (hfull : taken + driven.length = sectorWords)
    (rest : List Cycle) :
    sightings counts taken (driven.map .readData ++ rest) = .page :: sightings counts 0 rest := by
  induction driven generalizing taken with
  | nil => exact absurd rfl hne
  | cons word driven ih =>
      obtain ⟨hword, hothers⟩ := List.forall_mem_cons.mp hcounts
      rw [List.map_cons, List.cons_append, sightings, if_pos hword]
      rw [List.length_cons] at hfull
      cases driven with
      | nil => exact if_pos hfull
      | cons second driven =>
          rw [List.length_cons] at hfull
          rw [if_neg (by omega)]
          exact ih hothers nofun (by rw [List.length_cons]; omega)

/-- No page is seen before the first word is taken. -/
theorem count_page_enquiry {counts : Option UInt16 → Bool} {enquiry : List Cycle}
    (henquiry : ∀ cycle ∈ enquiry, cycle.Enquires) (rest : List Cycle) :
    (sightings counts 0 (enquiry ++ rest)).count .page = (sightings counts 0 rest).count .page := by
  induction enquiry with
  | nil => rfl
  | cons cycle enquiry ih =>
      obtain ⟨hfirst, hothers⟩ := List.forall_mem_cons.mp henquiry
      have ih := ih hothers
      cases cycle with
      | read => exact ih
      | write reg value =>
          have hport : Sighting.port (Board.controllerPort.toNat + reg.offset) value ≠ .page := nofun
          rw [List.cons_append, sightings, List.count_cons_of_ne hport]
          exact ih
      | readData => exact hfirst.elim
      | writeData => exact hfirst.elim

/-- Whoever counts every word sees a page that nobody sends, too. -/
theorem sightings_taken (rest : List Cycle) :
    sightings (fun _ => true) 0 (.replicate sectorWords (.readData none) ++ rest) =
      .page :: sightings (fun _ => true) 0 rest := by
  have hsome : 0 < (List.replicate sectorWords (none : Option UInt16)).length := by
    rw [List.length_replicate]
    decide
  rw [← List.map_replicate]
  refine sightings_page (fun _ _ => rfl) (List.ne_nil_of_length_pos hsome) ?_ rest
  rw [List.length_replicate, Nat.zero_add]

theorem sightings_floating (count : Nat) (rest : List Cycle) :
    sightings Option.isSome 0 (.replicate count (.readData none) ++ rest) = sightings Option.isSome 0 rest := by
  induction count with
  | zero => rfl
  | succ count ih => exact ih

/-- Where words are taken a page at a time, a page is seen for each one that a drive has sent. -/
theorem watch_paged {cycles : List Cycle} (h : Paged cycles) :
    Monitor.start.watch (onBoard cycles) = sightings Option.isSome 0 cycles := by
  induction h with
  | nil => rfl
  | @bare cycle rest bare _ ih =>
      rw [onBoard, List.map_cons, Monitor.watch_cons]
      cases cycle with
      | read => exact ih
      | write reg value =>
          rw [Access.ofCycle, Monitor.see_register]
          exact congrArg _ ih
      | readData word => exact absurd rfl (bare word)
      | writeData => exact ih
  | @sent words rest full _ ih =>
      have hne : words ≠ [] := by
        rintro rfl
        cases full
      have hfull : 0 + words.length = sectorWords := (Nat.zero_add _).trans full
      have hdriven : words.map (fun word => Cycle.readData (some word)) = (words.map some).map .readData := by
        rw [List.map_map]
        rfl
      have hwatch : Monitor.start.watch (onBoard (words.map (fun word => .readData (some word)) ++ rest)) =
          .page :: Monitor.start.watch (onBoard rest) := Monitor.watch_sent hne hfull rest
      rw [hwatch, ih, hdriven, sightings_page (by simp) (by simpa using hne)]
      simpa using hfull
  | floating _ ih => rw [Monitor.watch_floating, sightings_floating, ih]

/-! ## One cycle -/

namespace Monitor

theorem shows_cycle (words : Nat) (cycle : Cycle) : ∃ words', (unlatched words).Shows [.ofCycle cycle] []
    ((unlatched words).watch (onBoard [cycle])) (unlatched words') := by
  have hwatch {sighting : Option Sighting} {words' : Nat}
      (hsee : (unlatched words).see (.ofCycle cycle) = (sighting, unlatched words')) :
      (unlatched words).watch (onBoard [cycle]) = sighting.toList := by
    rw [onBoard, List.map_singleton, watch_cons, hsee]
    exact List.append_nil _
  cases cycle with
  | read reg value =>
      exact ⟨words, shows_access rfl nofun (.inr ⟨reg, rfl⟩)⟩
  | write reg value =>
      have hsee := see_register (unlatched words) reg value
      rw [hwatch hsee]
      refine ⟨words, shows_access hsee ?_ (.inr (.inr ⟨reg, rfl⟩))⟩
      rintro _ ⟨⟩
      rfl
  | readData driven =>
      cases driven with
      | none => exact ⟨words, shows_access rfl nofun rfl⟩
      | some word =>
          have hsee := see_word words word
          split at hsee
          · rw [hwatch hsee]
            refine ⟨0, shows_access hsee ?_ rfl⟩
            rintro _ ⟨⟩
            rfl
          · rw [hwatch hsee]
            exact ⟨words + 1, shows_access hsee nofun rfl⟩
  | writeData word => exact ⟨words, shows_access rfl nofun rfl⟩

end Monitor

end PolledAta.Rom
