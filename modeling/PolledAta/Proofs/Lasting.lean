import PolledAta.Proofs.Channel
import PolledAta.Proofs.Comparison
import PolledAta.Proofs.Lingering

/-!
# What does not depend on the timer

A channel without a script shows one status until it is written to or sent a word. So on any two timers that go on, a
driver of such channels does the same, but for how often it samples them and reads its timer.
-/

namespace PolledAta

open Emulator

namespace Emulator.Channel

/-! ## Faults stay -/

variable (channel : Channel)

theorem faults_execute (command : UInt8) : (channel.execute command).faults = channel.faults := by
  unfold execute
  split
  · rfl
  · split <;> rfl

theorem faults_writeRegister (reg : Register) (value : UInt8) :
    (channel.writeRegister reg value).faults = channel.faults := by
  cases reg with
  | status => exact channel.faults_execute value
  | control =>
      simp only [writeRegister]
      split <;> rfl
  | _ => rfl

theorem faults_readWord : channel.readWord.2.faults = channel.faults := by
  unfold readWord
  split <;> rfl

theorem faults_store (lba : Nat) (bytes : Buffer) : (channel.store lba bytes).faults = channel.faults := by
  unfold store
  split
  · rfl
  · split
    · cases channel.latch <;> rfl
    · rfl

theorem faults_writeWord (word : UInt16) : (channel.writeWord word).faults = channel.faults := by
  unfold writeWord
  split
  · dsimp only
    split
    · rfl
    · exact faults_store ..
  · rfl

end Emulator.Channel

/-! ## Two timers -/

variable {κ κ' : Type} [Timer κ] [Timer κ']

/-- Both timers go on, no status is made up by a script, and only what lasts counts. -/
def Comparison.lasting (κ κ' : Type) [Timer κ] [Timer κ'] : Comparison Channel κ κ' where
  device channel := channel.faults.script = []
  timers timer timer' := Timer.Lively timer ∧ Timer.Lively timer'
  shown := Event.lasting?

/-- Runs that linger with the same events keep their sessions alike. -/
theorem Session.Like.lingers {s u : Session Channel κ} {t v : Session Channel κ'} {events : List Event} {m n : Nat}
    (h : s.Like (.lasting κ κ') t) (hs : s.Lingers u events m) (ht : t.Lingers v events n) :
    u.Like (.lasting κ κ') v where
  device := by rw [ht.device, hs.device, h.device]
  known := by
    rw [hs.device]
    exact h.known
  timers := ⟨hs.lively h.timers.1, ht.lively h.timers.2⟩
  history := by
    have hlasting : t.lasting = s.lasting := h.history
    show v.lasting = u.lasting
    rw [ht.lasting, hs.lasting, hlasting]

theorem Comparison.sound_lasting : (Comparison.lasting κ κ').Sound where
  known_write {channel} reg value h := (congrArg Faults.script (channel.faults_writeRegister reg value)).trans h
  known_readData {channel} h := (congrArg Faults.script channel.faults_readWord).trans h
  known_writeData {channel} word h := (congrArg Faults.script (channel.faults_writeWord word)).trans h
  delayMs ms := by
    refine ⟨fun s t h => ?_⟩
    obtain ⟨u, _, hrun, hlingers⟩ := BusM.delayMs_lingers s ms h.timers.1
    obtain ⟨v, _, hrun', hlingers'⟩ := BusM.delayMs_lingers t ms h.timers.2
    rw [hrun, hrun']
    exact .ok ⟨rfl, h.lingers hlingers hlingers'⟩
  awaitStatus bits timeoutMs := by
    refine ⟨fun s t h => ?_⟩
    have hs : Bank.read s.device .status = (s.device.status, s.device) := Channel.read_status_of_unscripted h.known
    have ht : Bank.read t.device .status = (s.device.status, t.device) := by rw [h.device, hs]
    obtain ⟨u, _, hrun, hlingers⟩ := BusM.awaitStatus_lingers bits timeoutMs hs rfl h.timers.1
    obtain ⟨v, _, hrun', hlingers'⟩ := BusM.awaitStatus_lingers bits timeoutMs ht rfl h.timers.2
    rw [hrun, hrun']
    exact .ok ⟨rfl, h.lingers hlingers hlingers'⟩

end PolledAta
