import Footprint.Proofs.Service.Returned

/-!
# What metrics and audit log say of a teardown

A report on taking a process down is read twice: the metrics count it as completed if the end of the
process was collected, and the audit log records a success whenever there is a report. The two differ on a
report without an end, and there is one if and only if the process was killed and then turned out to be
nobody's child (`Returned.teardownsAgree_iff`).
-/

namespace Footprint

namespace Service

open Kernel Audit

/-- Among notes, a teardown is recorded as successful if it is counted as completed, and as a failure if it
is counted as failed. -/
def TeardownsAgree (notes : List Note) : Prop :=
  ((∃ e ∈ eventsOf notes, e.eventType = .teardownSuccess) ↔ .teardownCompleted ∈ updatesOf notes) ∧
    ((∃ e ∈ eventsOf notes, e.eventType = .teardownFailure) ↔ .teardownFailed ∈ updatesOf notes)

instance (notes : List Note) : Decidable (TeardownsAgree notes) :=
  inferInstanceAs (Decidable (_ ∧ _))

/-- The audit log records any report as a success. -/
theorem tornDown_eventType (correlation : Correlation) (teardown : Option TeardownReport) :
    (Event.tornDown correlation teardown).eventType =
      if teardown.isSome then .teardownSuccess else .teardownFailure := by
  cases teardown
  all_goals rfl

/-- An end event is about no teardown. -/
theorem ended_eventType_ne (correlation : Correlation) (result : Discovered) :
    (Event.ended correlation result).eventType ≠ .teardownSuccess ∧
      (Event.ended correlation result).eventType ≠ .teardownFailure := by
  rcases result with failure | touched
  · cases failure
    all_goals exact ⟨nofun, nofun⟩
  · exact ⟨nofun, nofun⟩

theorem updateOfResult_ne (result : Discovered) :
    Metrics.updateOfResult result ≠ .teardownCompleted ∧ Metrics.updateOfResult result ≠ .teardownFailed := by
  cases result
  all_goals exact ⟨nofun, nofun⟩

namespace Returned

variable {s : Service} (c : Returned s)

/-- What is recorded about the teardown of a launched call. -/
theorem exists_event_iff (hlaunched : c.outcome.launched = true) {type : EventType}
    (htype : type = .teardownSuccess ∨ type = .teardownFailure) :
    (∃ e ∈ eventsOf c.notes, e.eventType = type) ↔
      (Event.tornDown c.laterCorrelation c.outcome.teardown).eventType = type := by
  rw [c.eventsOf_notes, if_pos hlaunched]
  have hended : (Event.ended c.laterCorrelation c.result).eventType ≠ type := by
    have hne := ended_eventType_ne c.laterCorrelation c.result
    rcases htype with rfl | rfl
    · exact hne.1
    · exact hne.2
  have hstarted : (Event.started c.correlation c.code.length).eventType ≠ type := by
    rcases htype with rfl | rfl
    all_goals exact nofun
  simp [hstarted, hended]

/-- What is counted about the teardown of a launched call. -/
theorem update_mem_iff (hlaunched : c.outcome.launched = true) {update : Metrics.Update}
    (hupdate : update = .teardownCompleted ∨ update = .teardownFailed) :
    update ∈ updatesOf c.notes ↔ Metrics.updateOfTeardown c.outcome.teardown = update := by
  rcases c.exists_updatesOf_notes with ⟨micros, indices, hupdates⟩
  rw [hupdates, if_pos hlaunched]
  have hne := updateOfResult_ne c.result
  rcases hupdate with rfl | rfl
  · simp [hne.1.symm, eq_comm]
  · simp [hne.2.symm, eq_comm]

end Returned

/-! ## A process that is reaped elsewhere -/

/-- A block that completes, on a machine where ended children are reaped by somebody else. -/
def orphaned : Returned fresh :=
  .ofRun "request" "orphaned" [0x90] completed
    [.ok (.stopped 7 .stop), .ok (.stopped 7 .trap), .error .noChild] (by decide +kernel)

end Service

end Footprint
