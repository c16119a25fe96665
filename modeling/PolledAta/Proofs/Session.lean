import PolledAta.Proofs.Clock
import PolledAta.Session

/-!
# Runs of programs

A program runs on a state and ends in a result and a state, or in a fault. A run over one channel only adds to what has
happened: the cycles of the bus and the readings of the clock.
-/

namespace PolledAta

/-! ## Sequences -/

namespace Program

variable {σ α β : Type} {program : StateT σ (Except Fault) α} {next : α → StateT σ (Except Fault) β}
  {s t u : σ} {a : α} {b : β}

theorem bind_of_ok (h : program s = .ok (a, t)) : (program >>= next) s = next a t := by
  show (program s >>= fun (a, t) => next a t) = next a t
  rw [h]
  rfl

theorem bind_of_error {fault : Fault} (h : program s = .error fault) : (program >>= next) s = .error fault := by
  show (program s >>= fun (a, t) => next a t) = .error fault
  rw [h]
  rfl

theorem bind_eq_ok :
    (program >>= next) s = .ok (b, u) ↔ ∃ a t, program s = .ok (a, t) ∧ next a t = .ok (b, u) := by
  constructor
  · intro h
    cases hp : program s with
    | error fault =>
        have h : (program s >>= fun (a, t) => next a t) = .ok (b, u) := h
        rw [hp] at h
        cases h
    | ok result =>
        obtain ⟨a, t⟩ := result
        exact ⟨a, t, rfl, (bind_of_ok hp).symm.trans h⟩
  · rintro ⟨a, t, hp, hn⟩
    rw [bind_of_ok hp, hn]

theorem lift_eq_ok {answer : Except Fault α} :
    (liftM answer : StateT σ (Except Fault) α) s = .ok (a, t) ↔ answer = .ok a ∧ t = s := by
  cases answer with
  | error fault => exact iff_of_false (fun h => by cases h) (fun h => by cases h.1)
  | ok b =>
      constructor
      · intro h
        cases h
        exact ⟨rfl, rfl⟩
      · rintro ⟨h, rfl⟩
        cases h
        rfl

end Program

/-! ## What a run adds -/

namespace Session

variable {δ : Type} {before between after : Session δ}

/-- Between the two states the bus has seen the cycles of `trace`, and the clock so many readings. -/
structure Grows (before after : Session δ) (trace : List Cycle) (readings : Nat) : Prop where
  cycles : after.cycles = before.cycles ++ trace
  clock : after.clock = before.clock.after readings

theorem Grows.refl (session : Session δ) : session.Grows session [] 0 :=
  ⟨by simp, by simp⟩

theorem Grows.trans {trace₁ trace₂ : List Cycle} {n₁ n₂ : Nat}
    (h₁ : before.Grows between trace₁ n₁) (h₂ : between.Grows after trace₂ n₂) :
    before.Grows after (trace₁ ++ trace₂) (n₁ + n₂) := by
  refine ⟨by rw [h₂.cycles, h₁.cycles, List.append_assoc], ?_⟩
  rw [h₂.clock, h₁.clock, Clock.after_after]

theorem Grows.moving {trace : List Cycle} {readings : Nat} (h : before.Grows after trace readings)
    (hm : before.clock.Moving) : after.clock.Moving :=
  hm.of_step_eq (by rw [h.clock]; rfl)

theorem cycles_push (device : δ) (clock : Clock) (history : Array Event) (event : Event) :
    Session.cycles ⟨device, clock, history.push event⟩ =
      Session.cycles ⟨device, clock, history⟩ ++ event.cycle?.toList := by
  cases event <;> simp [Session.cycles, Event.cycle?]

/-- The session once a register has been written. -/
def wrote [Bank δ] (session : Session δ) (reg : Register) (value : UInt8) : Session δ :=
  ⟨Bank.write session.device reg value, session.clock, session.history.push (.cycle (.write reg value))⟩

end Session

namespace BusM

variable {δ : Type} (s : Session δ)

theorem readClock_run : ∃ t, readClock s = .ok (s.clock.now, t) ∧ s.Grows t [] 1 ∧ t.device = s.device := by
  exact ⟨_, rfl, ⟨Session.cycles_push .., Clock.snd_reading _⟩, rfl⟩

theorem log_run (level : Log.Level) (text : String) :
    ∃ t, log level text s = .ok ((), t) ∧ s.Grows t [] 0 ∧ t.device = s.device :=
  ⟨_, rfl, ⟨Session.cycles_push .., (Clock.after_zero _).symm⟩, rfl⟩

variable [Bank δ]

theorem read_run (reg : Register) :
    ∃ value t, read reg s = .ok (value, t) ∧ s.Grows t [.read reg value] 0 :=
  ⟨_, _, rfl, Session.cycles_push .., (Clock.after_zero _).symm⟩

theorem write_run (reg : Register) (value : UInt8) :
    ∃ t, write reg value s = .ok ((), t) ∧ s.Grows t [.write reg value] 0 :=
  ⟨_, rfl, Session.cycles_push .., (Clock.after_zero _).symm⟩

theorem write_eq (reg : Register) (value : UInt8) : write reg value s = .ok ((), s.wrote reg value) := rfl

theorem readData_run :
    ∃ driven t, readData s = .ok (dataLines driven, t) ∧ s.Grows t [.readData driven] 0 :=
  ⟨_, _, rfl, Session.cycles_push .., (Clock.after_zero _).symm⟩

theorem writeData_run (word : UInt16) :
    ∃ t, writeData word s = .ok ((), t) ∧ s.Grows t [.writeData word] 0 :=
  ⟨_, rfl, Session.cycles_push .., (Clock.after_zero _).symm⟩

end BusM

end PolledAta
