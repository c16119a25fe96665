import PolledAta.Proofs.Correspondence

/-!
# One driver on two timers

A driver asks for the time in its delays and in its waits for a device, and nowhere else. So if these do alike on two
timers, the timers are machines that correspond.
-/

namespace PolledAta

/-- How two runs are compared: what is known of their devices, how their timers stand to each other, and what counts of
an event. -/
structure Comparison (δ κ κ' : Type) where
  device : δ → Prop
  timers : κ → κ' → Prop
  shown : Event → Option Event

/-- What counts of an entry is what counts of the event in it. -/
def Entry.shown (shown : Event → Option Event) : Entry → Option Entry
  | .line controller event => (shown event).map (.line controller)
  | entry => some entry

variable {δ κ κ' α : Type} {c : Comparison δ κ κ'}

/-- Two channels with one device on which, as far as it counts, the same has happened. -/
structure Session.Like (c : Comparison δ κ κ') (s : Session δ κ) (t : Session δ κ') : Prop where
  device : t.device = s.device
  known : c.device s.device
  timers : c.timers s.clock t.clock
  history : t.history.toList.filterMap c.shown = s.history.toList.filterMap c.shown

/-- Two drivers that have the same controllers, know the same disks and, as far as it counts, have done the same. -/
structure Ide.Like (c : Comparison δ κ κ') (x : Ide δ κ) (y : Ide δ κ') : Prop where
  controllers : y.controllers = x.controllers
  known : ∀ controller ∈ x.controllers, c.device controller.device
  table : y.table = x.table
  timers : c.timers x.clock y.clock
  settings : y.settings = x.settings
  initialised : y.initialised = x.initialised
  journal : y.journal.toList.filterMap (Entry.shown c.shown) = x.journal.toList.filterMap (Entry.shown c.shown)

/-! ## Views -/

/-- A view that looks only at what counts. -/
theorem Session.Like.filterMap_history {β : Type} {s : Session δ κ} {t : Session δ κ'} (h : s.Like c t)
    {view : Event → Option β} (hview : ∀ event, view event = (c.shown event).bind view) :
    t.history.toList.filterMap view = s.history.toList.filterMap view := by
  have hshown : view = fun event => (c.shown event).bind view := funext hview
  rw [hshown, ← List.filterMap_filterMap, ← List.filterMap_filterMap, h.history]

theorem Ide.Like.filterMap_journal {β : Type} {x : Ide δ κ} {y : Ide δ κ'} (h : x.Like c y) {view : Entry → Option β}
    (hview : ∀ entry, view entry = (entry.shown c.shown).bind view) :
    y.journal.toList.filterMap view = x.journal.toList.filterMap view := by
  have hshown : view = fun entry => (entry.shown c.shown).bind view := funext hview
  rw [hshown, ← List.filterMap_filterMap, ← List.filterMap_filterMap, h.journal]

/-! ## Programs on a channel -/

/-- What two timers have in common, as a correspondence of machines. -/
abbrev Comparison.correspondence (c : Comparison δ κ κ') : Correspondence δ κ δ κ' where
  Past := Unit
  sessions _ := Session.Like c
  drivers := Ide.Like c

section

variable [Bank δ] [Timer κ] [Timer κ']

/-- What is known of the devices stays so, and delays and waits do alike. -/
structure Comparison.Sound (c : Comparison δ κ κ') : Prop where
  known_write : ∀ {device : δ} reg value, c.device device → c.device (Bank.write device reg value)
  known_readData : ∀ {device : δ}, c.device device → c.device (Bank.readData device).2
  known_writeData : ∀ {device : δ} word, c.device device → c.device (Bank.writeData device word)
  delayMs : ∀ ms, Parallel (Session.Like c) Eq (BusM.delayMs ms) (BusM.delayMs ms)
  awaitStatus : ∀ bits timeoutMs,
    Parallel (Session.Like c) Eq (BusM.awaitStatus bits timeoutMs) (BusM.awaitStatus bits timeoutMs)

end

namespace BusM

/-- One event, which like the answer and the change of the device does not depend on the timer. -/
theorem like_of_push {program : TimedBusM δ κ α} {program' : TimedBusM δ κ' α} (answer : δ → α) (next : δ → δ)
    (event : δ → Event) (known : ∀ {device}, c.device device → c.device (next device))
    (run : ∀ s, program s = .ok (answer s.device, ⟨next s.device, s.clock, s.history.push (event s.device)⟩))
    (run' : ∀ t, program' t = .ok (answer t.device, ⟨next t.device, t.clock, t.history.push (event t.device)⟩)) :
    Parallel (Session.Like c) Eq program program' := by
  refine ⟨fun s t h => ?_⟩
  rw [run, run', h.device]
  refine .ok ⟨rfl, rfl, known h.known, h.timers, ?_⟩
  simp only [Array.toList_push, List.filterMap_append, h.history]

theorem like_log [Timer κ] [Timer κ'] (level : Log.Level) (text : String) :
    Parallel (Session.Like c) Eq (log level text) (log level text) :=
  like_of_push (fun _ => ()) id (fun _ => .log ⟨level, text⟩) id (fun _ => rfl) fun _ => rfl

variable [Bank δ]

theorem like_write (reg : Register) (value : UInt8)
    (known : ∀ {device : δ}, c.device device → c.device (Bank.write device reg value)) :
    Parallel (Session.Like c) Eq (write reg value) (write reg value) :=
  like_of_push (fun _ => ()) (Bank.write · reg value) (fun _ => .cycle (.write reg value)) known (fun _ => rfl)
    fun _ => rfl

theorem like_readData (known : ∀ {device : δ}, c.device device → c.device (Bank.readData device).2) :
    Parallel (Session.Like c) Eq readData readData :=
  like_of_push (fun d => dataLines (Bank.readData d).1) (fun d => (Bank.readData d).2)
    (fun d => .cycle (.readData (Bank.readData d).1)) known (fun _ => rfl) fun _ => rfl

theorem like_writeData (word : UInt16)
    (known : ∀ {device : δ}, c.device device → c.device (Bank.writeData device word)) :
    Parallel (Session.Like c) Eq (writeData word) (writeData word) :=
  like_of_push (fun _ => ()) (Bank.writeData · word) (fun _ => .cycle (.writeData word)) known (fun _ => rfl)
    fun _ => rfl

end BusM

theorem Comparison.Sound.onChannels [Bank δ] [Timer κ] [Timer κ'] (h : c.Sound) :
    c.correspondence.SoundOnChannels where
  write reg value := ⟨fun _ => BusM.like_write reg value (h.known_write reg value)⟩
  readData := ⟨fun _ => BusM.like_readData h.known_readData⟩
  writeData word := ⟨fun _ => BusM.like_writeData word (h.known_writeData word)⟩
  log level text := ⟨fun _ => BusM.like_log level text⟩
  delayMs ms := ⟨fun _ => h.delayMs ms⟩
  awaitStatus bits timeoutMs := ⟨fun _ => h.awaitStatus bits timeoutMs⟩

/-! ## The driver -/

/-- An entry that is not about a channel. -/
theorem Ide.Like.push {x : Ide δ κ} {y : Ide δ κ'} (h : x.Like c y) (entry : Entry) :
    Ide.Like c { x with journal := x.journal.push entry } { y with journal := y.journal.push entry } where
  controllers := h.controllers
  known := h.known
  table := h.table
  timers := h.timers
  settings := h.settings
  initialised := h.initialised
  journal := by simp only [Array.toList_push, List.filterMap_append, h.journal]

theorem IdeM.like_onController (index : Nat) {program : TimedBusM δ κ α} {program' : TimedBusM δ κ' α}
    (hp : Parallel (Session.Like c) Eq program program') :
    Parallel (Ide.Like c) Eq (onController index program) (onController index program') := by
  refine ⟨fun x y h => ?_⟩
  have hsame : y.controllers[index]? = x.controllers[index]? := by rw [h.controllers]
  unfold onController
  rw [hsame]
  cases hc : x.controllers[index]? with
  | none => exact .fault _
  | some controller =>
      have hopened : Session.Like c ⟨controller.device, x.clock, #[]⟩ ⟨controller.device, y.clock, #[]⟩ :=
        ⟨rfl, h.known _ (Array.mem_of_getElem? hc), h.timers, rfl⟩
      have hrun := hp.run _ _ hopened
      dsimp only
      generalize program ⟨controller.device, x.clock, #[]⟩ = before, program' ⟨controller.device, y.clock, #[]⟩ = after
        at hrun
      cases hrun with
      | fault fault => exact .fault fault
      | @ok before after related =>
          obtain ⟨a, s⟩ := before
          obtain ⟨b, t⟩ := after
          obtain ⟨hanswer, hst⟩ := related
          refine .ok ⟨hanswer, ?_, ?_, h.table, hst.timers, h.settings, h.initialised, ?_⟩
          · rw [h.controllers, hst.device]
          · intro other hother
            rcases Array.mem_or_eq_of_mem_setIfInBounds hother with hother | rfl
            · exact h.known other hother
            · exact hst.known
          · have hlines (events : List Event) : (events.map (Entry.line index)).filterMap (Entry.shown c.shown) =
                (events.filterMap c.shown).map (Entry.line index) := by
              rw [List.filterMap_map, List.map_filterMap]
              rfl
            simp only [Array.toList_append, Array.toList_map, List.filterMap_append, h.journal, hlines, hst.history]

/-- Timers on which a driver delays and waits alike correspond. -/
theorem Comparison.Sound.corresponds [Bank δ] [Timer κ] [Timer κ'] (h : c.Sound) : c.correspondence.Sound where
  toSoundOnChannels := h.onChannels
  bases _ _ h := by rw [h.controllers]
  table _ _ h := h.table
  settings _ _ h := h.settings
  initialised _ _ h := h.initialised
  withTable _ _ _ h := { h with table := rfl }
  started _ _ h := { h with initialised := rfl }
  mounted _ _ _ _ h := h.push _
  logDriver level text := ⟨fun _ _ h => .ok ⟨rfl, h.push _⟩⟩
  onController index _ _ hp := IdeM.like_onController index (hp.after ())

end PolledAta
