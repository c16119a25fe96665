import PolledAta.Proofs.Comparison

/-!
# Programs that do not ask what time it is

A deadline is looked at only through its wrapped difference to the clock. So the programs on a channel do the same from
any two sessions whose clocks stand apart, and leave them as far apart.
-/

namespace PolledAta

variable {δ α : Type} {distance : UInt32}

/-- The event, without the tick that was read. -/
def Event.undated : Event → Event
  | .reading _ => .reading 0
  | event => event

/-- The second clock stands `distance` ahead, and the ticks read do not count. -/
def Comparison.apart (distance : UInt32) : Comparison δ Clock Clock where
  device _ := True
  timers clock clock' := clock' = clock.advance distance
  shown event := some event.undated

/-- The clocks stand apart, and but for the ticks read the same has happened. -/
abbrev Session.Apart (distance : UInt32) (s t : Session δ) : Prop := s.Like (.apart distance) t

theorem Session.Apart.clock {s t : Session δ} (h : s.Apart distance t) : t.clock = s.clock.advance distance :=
  h.timers

namespace BusM

/-- The program does the same from sessions whose clocks stand apart. -/
abbrev Steady (distance : UInt32) (program : BusM δ α) : Prop :=
  Parallel (Session.Apart distance) Eq program program

variable [Bank δ]

/-- The clocks stay as far apart, and nothing else depends on them. -/
theorem inStep_apart : (Comparison.apart distance : Comparison δ Clock Clock).correspondence.InStep distance where
  rate _ s t h := by
    rw [Session.Apart.clock h]
    rfl
  patience := rfl
  read reg := ⟨fun _ => like_of_push (fun d => (Bank.read d reg).1) (fun d => (Bank.read d reg).2)
    (fun d => .cycle (.read reg (Bank.read d reg).1)) id (fun _ => rfl) fun _ => rfl⟩
  write reg value := ⟨fun _ => like_write reg value id⟩
  readData := ⟨fun _ => like_readData id⟩
  writeData word := ⟨fun _ => like_writeData word id⟩
  readClock _ := by
    refine ⟨fun s t h => .ok ⟨?_, h.device, trivial, ?_, ?_⟩⟩
    · rw [Session.Apart.clock h]
      rfl
    · show t.clock.reading.2 = s.clock.reading.2.advance distance
      rw [Session.Apart.clock h, Clock.reading, Clock.reading]
      simp only [Clock.advance, UInt32.add_assoc, UInt32.add_comm distance]
    · simp only [Array.toList_push, List.filterMap_append, h.history]
      rfl
  log level text := ⟨fun _ => like_log level text⟩

theorem sound_apart : (Comparison.apart distance : Comparison δ Clock Clock).Sound where
  known_write _ _ := id
  known_readData := id
  known_writeData _ := id
  delayMs ms := (inStep_apart.delayMs ms).after ()
  awaitStatus bits timeoutMs := (inStep_apart.awaitStatus bits timeoutMs).after ()

/-- Programs of a driver do not ask what time it is. -/
theorem corresponds_apart : (Comparison.apart distance : Comparison δ Clock Clock).correspondence.Sound :=
  sound_apart.corresponds

end BusM

end PolledAta
