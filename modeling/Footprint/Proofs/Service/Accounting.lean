import Mathlib.Algebra.Order.BigOperators.Group.List
import Mathlib.Algebra.Order.Group.Nat
import Footprint.Proofs.Service.Traffic

/-!
# Accounting over concurrent calls

Every counter of a service only adds, so what it shows does not depend on how the notes of the calls
interleave: it is the sum of what the calls noted so far (`Counter.read_eq`). The number of active calls
goes up and down; it is the number of calls that started and did not end, and it is not zero when a call
ends (`activeCalls_eq`). When no call is in flight, the counters are the account of the calls that ended
(`Accounts`). Counters are words of 64 bits, so they show sums modulo `2 ^ 64`.
-/

namespace Footprint

namespace Service

open Kernel

variable {s : Service} {calls : List (Returned s)} {t : Traffic s}

/-! ## Active calls -/

theorem activeCalls_note (service : Service) {n : Note} (h : n.isBracket = false) :
    (service.note n).metrics.activeCalls = service.metrics.activeCalls := by
  cases n with
  | audit event => rfl
  | metric update =>
    cases update with
    | callStarted => cases h
    | callEnded => cases h
    | _ => rfl

/-- A call that starts is counted, and a call that ends is counted no longer. -/
theorem activeCalls_note_advance (service : Service) {u : Underway s} {n : Note} {rest : List Note}
    (h : u.left = n :: rest) {others : Nat} (hfew : others + 1 < UInt64.size)
    (hactive : service.metrics.activeCalls.toNat = others + u.inFlight.toNat) :
    (service.note n).metrics.activeCalls.toNat = others + (u.advance h).inFlight.toNat := by
  rcases Underway.next_cases h with ⟨hnoted, rfl, hrest⟩ | ⟨hnoted, hn, hrest⟩ | ⟨hnoted, rfl, rfl⟩
  · have hidle : u.inFlight = false := by simp [Underway.inFlight, hnoted]
    have hstarted : (u.advance h).inFlight = true := by simp [Underway.inFlight, Underway.advance, hrest]
    rw [hidle] at hactive
    change (service.metrics.activeCalls + 1).toNat = _
    rw [UInt64.toNat_add, hactive, hstarted]
    exact Nat.mod_eq_of_lt hfew
  · have hgoing : u.inFlight = true := by simp [Underway.inFlight, hnoted, h]
    have hstill : (u.advance h).inFlight = true := by simp [Underway.inFlight, Underway.advance, hrest]
    rw [activeCalls_note service hn, hactive, hgoing, hstill]
  · have hgoing : u.inFlight = true := by simp [Underway.inFlight, hnoted, h]
    have hended : (u.advance h).inFlight = false := by simp [Underway.inFlight, Underway.advance]
    rw [hgoing] at hactive
    have hsome : service.metrics.activeCalls ≠ 0 := by
      intro hzero
      rw [hzero] at hactive
      simp at hactive
    change (if service.metrics.activeCalls = 0 then 0 else service.metrics.activeCalls - 1).toNat = _
    rw [if_neg hsome, hended, UInt64.toNat_sub_of_le, hactive]
    · simp
    · rw [UInt64.le_iff_toNat_le, hactive]
      simp

/-- The number of active calls is the number of calls in flight. -/
theorem Traffic.Reaches.activeCalls_eq (h : (Traffic.start s calls).Reaches t)
    (hfew : calls.length < UInt64.size) (hzero : s.metrics.activeCalls = 0) :
    t.service.metrics.activeCalls.toNat = t.calls.countP (·.inFlight) := by
  have hlength : t.calls.length < UInt64.size := by
    rw [← h.calls_eq, List.length_map] at hfew
    exact hfew
  refine (h.induction (P := fun t => t.calls.length < UInt64.size →
    t.service.metrics.activeCalls.toNat = t.calls.countP (·.inFlight)) ?_ ?_) hlength
  · intro _
    simp [Traffic.start, hzero, Underway.begin, Underway.inFlight, Function.comp_def]
  · rintro _ _ ⟨hleft⟩ ih hlength
    rename_i service before after u n rest
    simp only [List.length_append, List.length_cons] at hlength ih
    have hactive := ih hlength
    simp only [List.countP_append, List.countP_cons] at hactive ⊢
    have hothers : before.countP (·.inFlight) + after.countP (·.inFlight) + 1 < UInt64.size := by
      have hbefore : before.countP (·.inFlight) ≤ before.length := List.countP_le_length
      have hafter : after.countP (·.inFlight) ≤ after.length := List.countP_le_length
      omega
    have hnote := activeCalls_note_advance service hleft hothers (by
      rw [hactive]
      cases u.inFlight
      all_goals simp [Nat.add_assoc])
    rw [hnote]
    cases (u.advance hleft).inFlight
    all_goals simp [Nat.add_assoc]

/-- A call that is about to end is counted as active. -/
theorem Traffic.Reaches.activeCalls_ne_zero (h : (Traffic.start s calls).Reaches t)
    (hfew : calls.length < UInt64.size) (hzero : s.metrics.activeCalls = 0) {u : Underway s}
    (hu : u ∈ t.calls) (hends : u.left = [.metric .callEnded]) :
    t.service.metrics.activeCalls ≠ 0 := by
  have hnoted : u.noted ≠ [] := by
    rcases Underway.next_cases hends with ⟨_, hn, _⟩ | ⟨hnoted, _⟩ | ⟨hnoted, _⟩
    · cases hn
    · exact hnoted
    · exact hnoted
  have hgoing : u.inFlight = true := by simp [Underway.inFlight, hnoted, hends]
  have hpositive : 0 < t.calls.countP (·.inFlight) := List.countP_pos_iff.2 ⟨u, hu, hgoing⟩
  intro hnone
  rw [← h.activeCalls_eq hfew hzero, hnone] at hpositive
  cases hpositive

/-! ## Counters -/

/-- The counters that only add. -/
inductive Counter where
  | calls
  | durations
  | succeeded
  | failed (kind : Failure.Kind)
  | iterations
  | blocks
  | teardownsCompleted
  | teardownsFailed
deriving DecidableEq, Repr

namespace Counter

/-- What the counter shows. -/
def read (m : Metrics) : Counter → UInt64
  | .calls => m.callsTotal
  | .durations => m.durationCount
  | .succeeded => m.callsSucceeded
  | .failed kind => m.failures.get kind
  | .iterations => m.faultIterations
  | .blocks => m.blocksGranted
  | .teardownsCompleted => m.teardownsCompleted
  | .teardownsFailed => m.teardownsFailed

/-- The counter that an update adds to, with what it adds. -/
def entry : Metrics.Update → Option (Counter × Nat)
  | .countCall => some (.calls, 1)
  | .countDuration => some (.durations, 1)
  | .countSuccess => some (.succeeded, 1)
  | .countFailure kind => some (.failed kind, 1)
  | .addIterations n => some (.iterations, n.toNat)
  | .addBlocks n => some (.blocks, n.toNat)
  | .teardownCompleted => some (.teardownsCompleted, 1)
  | .teardownFailed => some (.teardownsFailed, 1)
  | .callStarted | .callEnded | .addDuration _ | .countBucket _ => none

/-- What an update adds to the counter. -/
def weight (counter : Counter) (update : Metrics.Update) : Nat :=
  match entry update with
  | some (counter', n) => if counter' = counter then n else 0
  | none => 0

theorem get_bump (counts : FailureCounts) (kind kind' : Failure.Kind) :
    (counts.bump kind').get kind = counts.get kind + if kind' = kind then 1 else 0 := by
  cases kind
  all_goals
    cases kind'
    all_goals simp [FailureCounts.get, FailureCounts.bump]

/-- An update adds its weight, whatever was counted before. -/
theorem read_apply (counter : Counter) (m : Metrics) (update : Metrics.Update) :
    counter.read (m.apply update) = counter.read m + UInt64.ofNat (counter.weight update) := by
  cases counter with
  | failed kind =>
    cases update with
    | countFailure kind' =>
      change (m.failures.bump kind').get kind = _
      rw [get_bump]
      by_cases h : kind' = kind
      all_goals simp [weight, entry, read, h]
    | _ => exact (UInt64.add_zero _).symm
  | _ =>
    cases update
    all_goals simp [read, weight, entry, Metrics.apply]

/-- What notes add to the counter. -/
def total (counter : Counter) (notes : List Note) : Nat :=
  ((updatesOf notes).map counter.weight).sum

@[simp]
theorem total_nil (counter : Counter) : counter.total [] = 0 := rfl

@[simp]
theorem total_append (counter : Counter) (notes notes' : List Note) :
    counter.total (notes ++ notes') = counter.total notes + counter.total notes' := by
  simp [total]

theorem read_note (counter : Counter) (service : Service) (n : Note) :
    counter.read (service.note n).metrics =
      counter.read service.metrics + UInt64.ofNat (counter.total [n]) := by
  cases n with
  | audit event => exact (UInt64.add_zero _).symm
  | metric update => simpa [total, note] using counter.read_apply service.metrics update

/-- A counter shows the sum of what was noted, in whichever order. -/
theorem read_eq (counter : Counter) (h : (Traffic.start s calls).Reaches t)
    (hzero : counter.read s.metrics = 0) :
    counter.read t.service.metrics =
      UInt64.ofNat (t.calls.map fun u => counter.total u.noted).sum := by
  refine h.induction (P := fun t => counter.read t.service.metrics =
    UInt64.ofNat (t.calls.map fun u => counter.total u.noted).sum) ?_ ?_
  · have hnone : ((Traffic.start s calls).calls.map fun u => counter.total u.noted).sum = 0 := by
      simp [Traffic.start, Underway.begin, Function.comp_def, List.map_const']
    rw [hnone]
    exact hzero
  · rintro _ _ ⟨hleft⟩ ih
    rename_i service before after u n rest
    rw [read_note, ih, ← UInt64.ofNat_add]
    congr 1
    simp [Underway.advance]
    omega

/-- When no call is in flight, a counter shows what the calls that ended added. -/
theorem read_of_quiet (counter : Counter) (h : (Traffic.start s calls).Reaches t)
    (hzero : counter.read s.metrics = 0) (hquiet : t.calls.countP (·.inFlight) = 0) :
    counter.read t.service.metrics =
      UInt64.ofNat (t.ended.map fun c => counter.total c.notes).sum := by
  rw [counter.read_eq h hzero, Traffic.ended]
  congr 1
  have hidle : ∀ u ∈ t.calls, u.inFlight = false := by
    simpa using hquiet
  generalize t.calls = underway at hidle
  induction underway with
  | nil => rfl
  | cons u rest ih =>
    have hrest := ih fun u hu => hidle u (List.mem_cons_of_mem _ hu)
    have hu := hidle u List.mem_cons_self
    have hwhole := u.whole
    cases hover : u.isOver with
    | true =>
      have hleft : u.left = [] := by simpa [Underway.isOver] using hover
      rw [hleft, List.append_nil] at hwhole
      simp [hover, hrest, hwhole]
    | false =>
      have hnoted : u.noted = [] := by
        rw [Underway.isOver] at hover
        simpa [Underway.inFlight, hover] using hu
      simp [hover, hrest, hnoted]

end Counter

/-! ## What a call adds -/

namespace Returned

variable (c : Returned s)

/-- Whether taking the process down is counted as completed. -/
def isTornDown : Bool :=
  Metrics.updateOfTeardown c.outcome.teardown = .teardownCompleted

/-- What a call adds to a counter. -/
def share (c : Returned s) : Counter → Nat
  | .calls => 1
  | .durations => 1
  | .succeeded => c.result.isOk.toNat
  | .failed kind => (failsBy kind c.result).toNat
  | .iterations => c.outcome.blocks
  | .blocks => c.outcome.blocks
  | .teardownsCompleted => (isLaunched c.discovery && c.isTornDown).toNat
  | .teardownsFailed => (isLaunched c.discovery && !c.isTornDown).toNat

/-- A call carries out as many grants as it has blocks. -/
theorem blocks_lt : c.outcome.blocks < UInt32.size := by
  rw [← c.attests.counted]
  exact c.outcome.iterations.toNat_lt

/-- What a call notes about its result is counted once, and by one counter. -/
theorem weight_updateOfResult (counter : Counter) :
    counter.weight (Metrics.updateOfResult c.result) =
      match counter with
      | .succeeded => c.result.isOk.toNat
      | .failed kind => (failsBy kind c.result).toNat
      | _ => 0 := by
  cases counter with
  | failed kind =>
    cases c.result with
    | ok touched => rfl
    | error failure =>
      by_cases h : failure.kind = kind
      all_goals simp [Metrics.updateOfResult, Counter.weight, Counter.entry, failsBy, h]
  | _ =>
    cases c.result
    all_goals rfl

theorem weight_updateOfTeardown (counter : Counter) :
    counter.weight (Metrics.updateOfTeardown c.outcome.teardown) =
      match counter with
      | .teardownsCompleted => c.isTornDown.toNat
      | .teardownsFailed => (!c.isTornDown).toNat
      | _ => 0 := by
  unfold isTornDown
  rw [Metrics.updateOfTeardown_eq]
  split
  all_goals
    cases counter
    all_goals rfl

/-- The notes of a call add its share to every counter. -/
theorem total_notes (counter : Counter) : counter.total c.notes = c.share counter := by
  rcases c.exists_updatesOf_notes with ⟨micros, indices, hupdates⟩
  have hbuckets : ((indices.map Metrics.Update.countBucket).map counter.weight).sum = 0 := by
    have hnone : ∀ i, counter.weight (.countBucket i) = 0 := by
      intro i
      cases counter
      all_goals rfl
    simp [hnone, Function.comp_def, List.map_const']
  have hiterations : c.outcome.iterations.toNat = c.outcome.blocks := c.attests.counted
  have hblocks : (UInt64.ofNat c.outcome.blocks).toNat = c.outcome.blocks :=
    UInt64.toNat_ofNat_of_lt' (Nat.lt_trans c.blocks_lt (by decide))
  have hteardown : ((if c.outcome.launched then [Metrics.updateOfTeardown c.outcome.teardown]
      else []).map counter.weight).sum =
        if isLaunched c.discovery then counter.weight (Metrics.updateOfTeardown c.outcome.teardown)
        else 0 := by
    rw [c.attests.launched_eq]
    split
    all_goals simp
  unfold Counter.total
  rw [hupdates]
  simp only [List.map_append, List.map_cons, List.map_nil, List.sum_append, List.sum_cons, List.sum_nil,
    hbuckets, hteardown, weight_updateOfResult, weight_updateOfTeardown]
  cases counter with
  | iterations => simp [Counter.weight, Counter.entry, share, hiterations]
  | blocks => simp [Counter.weight, Counter.entry, share, hblocks]
  | teardownsCompleted =>
    cases h : isLaunched c.discovery
    all_goals simp [Counter.weight, Counter.entry, share, h]
  | teardownsFailed =>
    cases h : isLaunched c.discovery
    all_goals simp [Counter.weight, Counter.entry, share, h]
  | _ => simp [Counter.weight, Counter.entry, share]

end Returned

/-! ## The account of the calls that ended -/

theorem sum_map_toNat {α : Type*} (p : α → Bool) (l : List α) :
    (l.map fun a => (p a).toNat).sum = l.countP p := by
  induction l with
  | nil => rfl
  | cons a rest ih => cases h : p a <;> simp [h, ih, Nat.add_comm]

theorem countP_and_add_countP_and_not {α : Type*} (p q : α → Bool) (l : List α) :
    (l.countP fun a => p a && q a) + (l.countP fun a => p a && !q a) = l.countP p := by
  induction l with
  | nil => rfl
  | cons a rest ih =>
    simp only [List.countP_cons, ← ih]
    cases p a <;> cases q a <;> simp +arith

theorem sum_blocks_lt {ended : List (Returned s)} (hfew : ended.length ≤ UInt32.size) :
    (ended.map fun c => c.outcome.blocks).sum < UInt64.size := by
  have hsum : (ended.map fun c => c.outcome.blocks).sum ≤ ended.length • (UInt32.size - 1) := by
    have hsum' := List.sum_le_card_nsmul (ended.map fun c => c.outcome.blocks) (UInt32.size - 1)
    rw [List.length_map] at hsum'
    refine hsum' ?_
    intro blocks hblocks
    rcases List.mem_map.1 hblocks with ⟨c, _, rfl⟩
    exact Nat.le_sub_one_of_lt c.blocks_lt
  have hmost : ended.length • (UInt32.size - 1) ≤ UInt32.size * (UInt32.size - 1) :=
    Nat.mul_le_mul_right _ hfew
  exact Nat.lt_of_le_of_lt (hsum.trans hmost) (by decide)

/-- What the counters of a service are for the calls that ended on it. -/
structure Accounts (ended : List (Returned s)) (m : Metrics) : Prop where
  counted : m.callsTotal.toNat = ended.length
  timed : m.durationCount.toNat = ended.length
  succeeded : m.callsSucceeded.toNat = ended.countP fun c => c.result.isOk
  failed : ∀ kind, (m.failures.get kind).toNat = ended.countP fun c => failsBy kind c.result
  complete : m.callsSucceeded.toNat + (Failure.Kind.all.map fun kind => (m.failures.get kind).toNat).sum =
    m.callsTotal.toNat
  tornDown : m.teardownsCompleted.toNat + m.teardownsFailed.toNat =
    ended.countP fun c => isLaunched c.discovery
  worked : m.faultIterations = m.blocksGranted
  granted : m.blocksGranted = UInt64.ofNat (ended.map fun c => c.outcome.blocks).sum
  -- A call grants fewer than `2 ^ 32` blocks, so up to as many calls the sum is exact.
  exact : ended.length ≤ UInt32.size →
    m.blocksGranted.toNat = (ended.map fun c => c.outcome.blocks).sum

/-- A call has one result: it succeeds, or it fails by one kind. -/
theorem countP_result (ended : List (Returned s)) :
    (ended.countP fun c => c.result.isOk) +
      (Failure.Kind.all.map fun kind => ended.countP fun c => failsBy kind c.result).sum =
        ended.length := by
  have hone : ∀ result : Discovered, (if result.isOk then 1 else 0) +
      (Failure.Kind.all.map fun kind => if failsBy kind result then 1 else 0).sum = 1 := by
    rintro (failure | touched)
    · cases h : failure.kind
      all_goals simp [failsBy, Failure.Kind.all, Except.isOk, Except.toBool, h]
    · rfl
  induction ended with
  | nil => rfl
  | cons c rest ih =>
    have hc := hone c.result
    simp only [Failure.Kind.all, List.map_cons, List.map_nil, List.sum_cons, List.sum_nil,
      List.countP_cons, List.length_cons] at hc ih ⊢
    omega

/-- Counters that show the shares of some calls account for them. -/
theorem accounts_of_shares {ended : List (Returned s)} {m : Metrics} (hfew : ended.length < UInt64.size)
    (hread : ∀ counter : Counter, counter.read m =
      UInt64.ofNat (ended.map fun c => c.share counter).sum) : Accounts ended m := by
  -- a counter of calls does not wrap, since there are few enough of them
  have hcount : ∀ (counter : Counter) (p : Returned s → Bool),
      (∀ c, c.share counter = (p c).toNat) → (counter.read m).toNat = ended.countP p := by
    intro counter p hshare
    rw [hread, funext hshare, sum_map_toNat]
    exact UInt64.toNat_ofNat_of_lt' (Nat.lt_of_le_of_lt List.countP_le_length hfew)
  have hall : ∀ counter : Counter, (∀ c : Returned s, c.share counter = 1) →
      (counter.read m).toNat = ended.length := by
    intro counter hshare
    rw [hcount counter (fun _ => true) hshare]
    exact congrFun List.countP_true ended
  have hcounted := hall .calls fun _ => rfl
  have hsucceeded := hcount .succeeded _ fun _ => rfl
  have hfailed := fun kind => hcount (.failed kind) _ fun _ => rfl
  exact {
    counted := hcounted
    timed := hall .durations fun _ => rfl
    succeeded := hsucceeded
    failed := hfailed
    complete := by
      have hsum := countP_result ended
      rw [← hsucceeded, ← hcounted] at hsum
      simp only [← hfailed] at hsum
      exact hsum
    tornDown := by
      have hcompleted := hcount .teardownsCompleted _ fun _ => rfl
      have hlost := hcount .teardownsFailed _ fun _ => rfl
      change m.teardownsCompleted.toNat = _ at hcompleted
      change m.teardownsFailed.toNat = _ at hlost
      rw [hcompleted, hlost]
      exact countP_and_add_countP_and_not _ _ ended
    worked := (hread .iterations).trans (hread .blocks).symm
    granted := hread .blocks
    exact := by
      intro hfewer
      have hshown : m.blocksGranted = UInt64.ofNat (ended.map fun c => c.outcome.blocks).sum :=
        hread .blocks
      rw [hshown]
      exact UInt64.toNat_ofNat_of_lt' (sum_blocks_lt hfewer) }

end Service

end Footprint
