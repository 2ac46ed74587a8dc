import Mathlib.Data.List.Nodup
import Footprint.Proofs.Service.Traffic

/-!
# The audit trail of a call

The events of concurrent calls interleave in the audit log, but as long as no two calls share a run id, the
events that carry one run id are those of one call, in its own order (`Traffic.Reaches.recorded_eq`). A call
that ended left a whole `Trail`: its start, what became of its process if its block was started, and its end.
-/

namespace Footprint

namespace Service

open Audit

variable {s : Service} {calls : List (Returned s)} {t : Traffic s}

/-! ## The events of one run -/

/-- The events that were recorded for a run. -/
def Traffic.recorded (t : Traffic s) (runId : String) : List Event :=
  t.service.log.events.toList.filter (·.correlation.runId = runId)

namespace Returned

variable (c : Returned s)

theorem tornDown_correlation (correlation : Correlation) (teardown : Option TeardownReport) :
    (Event.tornDown correlation teardown).correlation = correlation := by
  cases teardown
  all_goals rfl

theorem ended_correlation (correlation : Correlation) (result : Discovered) :
    (Event.ended correlation result).correlation = correlation := by
  cases result
  all_goals rfl

/-- Every event of a call carries its ids. -/
theorem ids_of_mem {e : Event} (he : e ∈ eventsOf c.notes) :
    e.correlation.requestId = c.requestId ∧ e.correlation.runId = c.runId := by
  rw [c.eventsOf_notes] at he
  have hcases : e.correlation = c.correlation ∨ e.correlation = c.laterCorrelation := by
    rw [List.mem_append, List.mem_cons, List.mem_singleton] at he
    rcases he with (rfl | htorn) | rfl
    · exact .inl rfl
    · split at htorn
      · rw [List.mem_singleton] at htorn
        rw [htorn]
        exact .inr (tornDown_correlation _ _)
      · cases htorn
    · exact .inr (ended_correlation _ _)
  rcases hcases with h | h
  all_goals
    rw [h]
    exact ⟨rfl, rfl⟩

end Returned

theorem Underway.event_mem {u : Underway s} {e : Event} {rest : List Note}
    (h : u.left = .audit e :: rest) : e ∈ eventsOf u.call.notes := by
  rw [← u.whole, h]
  simp

/-- What a note of a call adds to the record of its run and of others. -/
theorem recorded_note (service : Service) {u : Underway s} {n : Note} {rest : List Note}
    (h : u.left = n :: rest) (runId : String) :
    (service.note n).log.events.toList.filter (·.correlation.runId = runId) =
      service.log.events.toList.filter (·.correlation.runId = runId) ++
        if u.call.runId = runId then eventsOf [n] else [] := by
  cases n with
  | metric update => simp [note]
  | audit e =>
    have hid := (u.call.ids_of_mem (Underway.event_mem h)).2
    simp [note, Log.record, List.filter_append, List.filter_cons, hid]

/-- The record of a run is what its call noted so far, in order. -/
theorem Traffic.Reaches.recorded_eq (h : (Traffic.start s calls).Reaches t)
    (hempty : s.log.events = #[]) (hdistinct : (calls.map (·.runId)).Nodup) {u : Underway s}
    (hu : u ∈ t.calls) : t.recorded u.call.runId = eventsOf u.noted := by
  have hruns : (t.calls.map (·.call.runId)).Nodup := by
    rw [← h.calls_eq, List.map_map] at hdistinct
    exact hdistinct
  refine (h.induction (P := fun t => (t.calls.map (·.call.runId)).Nodup →
    ∀ u ∈ t.calls, t.recorded u.call.runId = eventsOf u.noted) ?_ ?_) hruns u hu
  · intro _ u hu
    rcases List.mem_map.1 hu with ⟨c, _, rfl⟩
    simp [Traffic.recorded, Traffic.start, hempty, Underway.begin]
  · rintro _ _ ⟨hleft⟩ ih hruns v hv
    rename_i service before after u n rest
    rw [List.map_append, List.map_cons] at hruns
    rcases List.nodup_cons.1 (List.nodup_middle.1 hruns) with ⟨hfresh, -⟩
    have hearlier := ih (by rw [List.map_append, List.map_cons]; exact hruns)
    have hrecord (runId : String) := recorded_note service hleft runId
    have hsame : v ∈ before ++ after ∨ v = u.advance hleft := by
      simpa [or_assoc, or_comm, or_left_comm] using hv
    rcases hsame with hother | rfl
    · have hne : u.call.runId ≠ v.call.runId := by
        intro heq
        refine hfresh ?_
        rw [← List.map_append]
        exact List.mem_map.2 ⟨v, hother, heq.symm⟩
      have hv' : v ∈ before ++ u :: after := by
        rcases List.mem_append.1 hother with h | h
        all_goals simp [h]
      rw [Traffic.recorded, hrecord, if_neg hne, List.append_nil]
      exact hearlier v hv'
    · have hu' := hearlier u (by simp)
      rw [Traffic.recorded, hrecord, if_pos (show u.call.runId = (u.advance hleft).call.runId from rfl)]
      change Traffic.recorded ⟨service, before ++ u :: after⟩ u.call.runId ++ eventsOf [n] = _
      rw [hu', ← eventsOf_append]
      rfl

/-! ## Whole trails -/

/-- The trail of a call: a start, at most one event on taking its process down, and an end. -/
structure Trail (c : Returned s) (first : Event) (torn : List Event) (last : Event) : Prop where
  started : first.eventType = .discoveryStart
  tornOnce : torn.length = if Kernel.isLaunched c.discovery then 1 else 0
  tornDown : ∀ e ∈ torn, e.eventType = .teardownSuccess ∨ e.eventType = .teardownFailure
  ended : last.eventType = .discoveryEnd ∨ last.eventType = .timeoutExceeded ∨
    last.eventType = .discoveryCancelled
  timeout_iff : last.eventType = .timeoutExceeded ↔ failsBy .timeout c.result = true
  cancelled_iff : last.eventType = .discoveryCancelled ↔ failsBy .cancelled c.result = true
  errorKind_eq : last.errorKind = match c.result with
    | .ok _ => none
    | .error failure => some failure.kind.label
  blocks_eq : last.blocks = match c.result with
    | .ok touched => some touched.blocks
    | .error _ => none
  ids : ∀ e ∈ first :: torn ++ [last],
    e.correlation.requestId = c.requestId ∧ e.correlation.runId = c.runId
  unforked : first.correlation.pid = none
  -- The process, if one was forked.
  forked : ∀ e ∈ torn ++ [last], e.correlation.pid = Kernel.forkedIn c.discovery

namespace Returned

variable (c : Returned s)

/-- What an end event says of a result. -/
theorem ended_eventType_iff (correlation : Correlation) (result : Discovered) :
    ((Event.ended correlation result).eventType = .timeoutExceeded ↔ failsBy .timeout result = true) ∧
      ((Event.ended correlation result).eventType = .discoveryCancelled ↔
        failsBy .cancelled result = true) := by
  rcases result with failure | touched
  · cases failure
    all_goals simp [Event.ended, Event.ofFailure, Event.plain, failsBy, Failure.kind]
  · simp [Event.ended, Event.plain, failsBy]

/-- The events of a call are a whole trail. -/
theorem exists_trail : ∃ first torn last, Trail c first torn last ∧
    eventsOf c.notes = first :: torn ++ [last] := by
  refine ⟨_, _, _, ?_, c.eventsOf_notes⟩
  have hended := ended_eventType_iff c.laterCorrelation c.result
  have htorn : ∀ e ∈ (if c.outcome.launched then [Event.tornDown c.laterCorrelation c.outcome.teardown]
      else []), e = .tornDown c.laterCorrelation c.outcome.teardown := by
    split
    all_goals simp
  exact {
    started := rfl
    tornOnce := by
      rw [c.attests.launched_eq]
      split
      all_goals rfl
    tornDown := by
      intro e he
      rw [htorn e he]
      cases c.outcome.teardown
      · exact .inr rfl
      · exact .inl rfl
    ended := by
      rcases c.result with failure | touched
      · cases failure
        all_goals simp [Event.ended, Event.ofFailure, Event.plain]
      · exact .inl rfl
    timeout_iff := hended.1
    cancelled_iff := hended.2
    errorKind_eq := by
      cases c.result
      all_goals rfl
    blocks_eq := by
      cases c.result
      all_goals rfl
    ids := by
      rw [← c.eventsOf_notes]
      exact fun e he => c.ids_of_mem he
    unforked := rfl
    forked := by
      intro e he
      have hlater : e.correlation = c.laterCorrelation := by
        rcases List.mem_append.1 he with he | he
        · rw [htorn e he, tornDown_correlation]
        · rw [List.mem_singleton.1 he, ended_correlation]
      rw [hlater]
      exact c.attests.pid_eq }

end Returned

end Service

end Footprint
