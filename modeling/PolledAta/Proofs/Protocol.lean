import PolledAta.Proofs.Discovery

/-!
# Requests on the bus

A request that is turned down leaves the bus alone. Any other request works on the controller of its disk only and
follows the script of its chunks there, whatever the device answers.
-/

namespace PolledAta

variable {δ : Type} [Bank δ]

/-- What one request does to the driver, against any device and with any clock that moves. -/
theorem perform_follows_script {ide : Ide δ} (reached : ide.Reached) (moving : ide.clock.Moving)
    (request : Request) :
    (ide.table.count ≤ request.index →
      request.perform ide = .ok ((.error (.badIndex request.index), request.buffer),
        ide.noted [⟨.warn, "bad disk " ++ toString request.index⟩])) ∧
    (request.index < ide.table.count → request.buffer.size < request.bytes →
      request.perform ide = .ok ((.error (.badBuffer request.buffer.size request.bytes), request.buffer), ide)) ∧
    (request.index < ide.table.count → request.bytes ≤ request.buffer.size → request.count = 0 →
      request.perform ide = .ok ((.ok (), request.buffer), ide)) ∧
    (request.index < ide.table.count → request.bytes ≤ request.buffer.size → request.count ≠ 0 →
      ∃ disk result payload trace ide', ide.table.get? request.index = some disk ∧
        request.perform ide = .ok ((result, payload.buffer), ide') ∧
        ChunksMoved disk.slot (chunks request.lba request.count).toList 0 request.payload trace result payload ∧
        ide'.cycles disk.controller = ide.cycles disk.controller ++ trace ∧
        ∀ other, other ≠ disk.controller →
          ide'.cycles other = ide.cycles other ∧ ide'.controllers[other]? = ide.controllers[other]?) := by
  refine ⟨fun hi => ?_, fun hi hs => ?_, fun hi hs hz => ?_, fun hi hs _ => ?_⟩
  · exact Request.perform_of_unknown (reached.placed.dense.get?_eq_none hi)
  · obtain ⟨disk, hd⟩ := reached.placed.exists_get?_of_lt hi
    exact Request.perform_of_short hd hs
  · obtain ⟨disk, hd⟩ := reached.placed.exists_get?_of_lt hi
    obtain ⟨controller, hc⟩ := reached.placed.of_get? hd
    exact Request.perform_of_count_eq_zero hd hs hc hz
  · obtain ⟨disk, hd⟩ := reached.placed.exists_get?_of_lt hi
    obtain ⟨controller, hc⟩ := reached.placed.of_get? hd
    have hmoving : (ide.opened controller).clock.Moving := moving
    obtain ⟨result, payload, trace, session, _, hrun, hmoved, hg⟩ :=
      BusM.moveChunks_run disk.slot ide.settings.commandTimeoutMs (Request.sectorTotal_le hs) hmoving
    refine ⟨disk, result, payload, trace, _, hd,
      Request.perform_of_moveChunks hd hs hc hmoved.became hrun, hmoved, ?_, fun other ho => ⟨?_, ?_⟩⟩
    · rw [Ide.worked_cycles_self, hg.cycles, Ide.opened_cycles, List.nil_append]
    · exact Ide.worked_cycles_of_ne _ _ _ ho
    · exact Ide.worked_controllers_of_ne _ _ _ ho

theorem sample_follows_script :
    ∃ (ide ide' : Ide Emulator.Channel) (disk : Disk) (result : Except AtaError Unit) (payload : Payload)
      (trace : List Cycle), ide.Reached ∧ ide.clock.Moving ∧ ide.table.get? 0 = some disk ∧
      Request.perform ⟨0, 0, 1, .read (.replicate 512 0)⟩ ide = .ok ((result, payload.buffer), ide') ∧
      ChunksMoved disk.slot (chunks 0 1).toList 0 (.read (.replicate 512 0)) trace result payload ∧
      ide'.cycles disk.controller = ide.cycles disk.controller ++ trace := by
  obtain ⟨ide, started, known, hstep⟩ := Ide.exists_init_sample
  have reached : ide.Reached := .init (.fresh ..) started
  have moving : ide.clock.Moving := ⟨by rw [hstep]; decide, by rw [hstep]; decide⟩
  obtain ⟨_, _, _, hscript⟩ := perform_follows_script reached moving ⟨0, 0, 1, .read (.replicate 512 0)⟩
  obtain ⟨disk, result, payload, trace, ide', hd, hrun, hmoved, hcycles, _⟩ :=
    hscript (by rw [known]; decide) (Array.size_replicate ..).ge (by decide)
  exact ⟨ide, ide', disk, result, payload, trace, reached, moving, hd, hrun, hmoved, hcycles⟩

end PolledAta
