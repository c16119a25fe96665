import PolledAta.Proofs.Wait

/-!
# Runs against a known device

What a program answers and where it leaves the device, when the device decides both and no wait needs the clock.
-/

namespace PolledAta

variable {δ α β : Type}

namespace TimedBusM

/-- From the device `before` the program answers `a` and leaves the device `after`, whatever the clock shows. -/
structure Leads (program : BusM δ α) (before : δ) (a : α) (after : δ) : Prop where
  run : ∀ s : Session δ, s.device = before → ∃ t, program s = .ok (a, t) ∧ t.device = after

variable {program : BusM δ α} {next : α → BusM δ β} {before between after : δ} {a : α} {b : β}

theorem Leads.bind (h : program.Leads before a between) (hn : (next a).Leads between b after) :
    Leads (program >>= next) before b after := by
  refine ⟨fun s hs => ?_⟩
  obtain ⟨t, hp, ht⟩ := h.run s hs
  obtain ⟨u, hn, hu⟩ := hn.run t ht
  exact ⟨u, (Program.bind_of_ok hp).trans hn, hu⟩

theorem Leads.of_run (h : program.Leads before a after) {s t : Session δ} (hs : s.device = before) {a' : α}
    (hrun : program s = .ok (a', t)) : a' = a ∧ t.device = after := by
  obtain ⟨u, hp, hu⟩ := h.run s hs
  cases hrun.symm.trans hp
  exact ⟨rfl, hu⟩

end TimedBusM

namespace BusM

open TimedBusM

variable {before between after : δ}

theorem leads_pure (a : α) (device : δ) : Leads (pure a) device a device :=
  ⟨fun s hs => ⟨s, rfl, hs⟩⟩

/-! ## Accesses -/

variable [Bank δ]

theorem leads_read {reg : Register} {value : UInt8} (h : Bank.read before reg = (value, after)) :
    (read reg).Leads before value after := by
  refine ⟨?_⟩
  rintro s rfl
  obtain ⟨rfl, rfl⟩ := Prod.mk.inj h
  exact ⟨⟨_, s.clock, s.history.push (.cycle (.read reg _))⟩, rfl, rfl⟩

theorem leads_write (reg : Register) (value : UInt8) (device : δ) :
    (write reg value).Leads device () (Bank.write device reg value) := by
  exact ⟨fun s hs => ⟨_, rfl, by rw [← hs]⟩⟩

theorem leads_readData {driven : Option UInt16} (h : Bank.readData before = (driven, after)) :
    readData.Leads before (dataLines driven) after := by
  refine ⟨?_⟩
  rintro s rfl
  obtain ⟨rfl, rfl⟩ := Prod.mk.inj h
  exact ⟨⟨_, s.clock, s.history.push (.cycle (.readData _))⟩, rfl, rfl⟩

theorem leads_writeData (word : UInt16) (device : δ) :
    (writeData word).Leads device () (Bank.writeData device word) := by
  exact ⟨fun s hs => ⟨_, rfl, by rw [← hs]⟩⟩

/-! ## Waits -/

/-- A first sample that is not pending ends a wait before the clock is looked at. -/
theorem leads_awaitStatus {settle status bits : UInt8} {timeoutMs : UInt32}
    (hs : Bank.read before .altStatus = (settle, between)) (hr : Bank.read between .status = (status, after))
    (hj : Status.judge status bits ≠ .pending) :
    (awaitStatus bits timeoutMs).Leads before ((Status.judge status bits).outcome status) after := by
  refine (leads_read hs).bind ⟨fun s hd => ?_⟩
  obtain ⟨t, hdl, _, ht⟩ := deadline_run s (s.clock.rate.ticks timeoutMs)
  have hdl : deadlineMs timeoutMs s = .ok (⟨_⟩, t) := hdl
  obtain ⟨u, hread, hu⟩ := (leads_read hr).run t (ht.trans hd)
  exact ⟨u, (Program.bind_of_ok hdl).trans (poll_of_conclusive hread _ hj), hu⟩

end BusM

end PolledAta
