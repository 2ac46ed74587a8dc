import Mathlib.Data.List.Count
import Footprint.Proofs.Service.Accounting

/-!
# What recordings add up to

A service records the outcome of a call with its duration, the grants of a call and how its process was taken
down. Each of these is a few updates, and every counter shows the sum of what the updates add to it
(`read_recorded`), modulo `2 ^ 64`. The sums are counts of recordings: all outcomes, those with a label and
those within the bound of a bucket.
-/

namespace Footprint.Metrics

open Service (Counter)

/-- What can be recorded about a call. -/
inductive Recording where
  | outcome (result : Discovered) (d : Duration)
  | work (iterations : UInt32) (blocks : UInt64)
  | teardown (report : Option TeardownReport)

/-- The label of a result: that of the failure's kind, or `ok`. -/
def labelOf : Discovered → String
  | .ok _ => "ok"
  | .error failure => failure.kind.label

/-- The labels of results in the order in which they are exposed. -/
def labels : List String :=
  ["ok", "sandbox_setup", "config", "unresolvable_access", "execution_fault", "timeout", "cancelled",
   "invalid_code"]

namespace Recording

/-- The updates that the recording makes. -/
def updates : Recording → List Update
  | outcome result d => updatesOfOutcome result d
  | work iterations blocks => updatesOfWork iterations blocks
  | teardown report => [updateOfTeardown report]

def isOutcome : Recording → Bool
  | outcome _ _ => true
  | _ => false

/-- Whether it is an outcome whose result has the label. -/
def isLabelled (l : String) : Recording → Bool
  | outcome result _ => labelOf result = l
  | _ => false

/-- Whether it is an outcome that took no longer than the bound. -/
def isWithin (bound : Duration) : Recording → Bool
  | outcome _ d => d.nanos ≤ bound.nanos
  | _ => false

/-- The microseconds that an outcome took. -/
def micros : Recording → Nat
  | outcome _ d => d.micros
  | _ => 0

end Recording

/-- The metrics of a service that made the recordings one after the other. -/
def recorded (rs : List Recording) : Metrics :=
  zero.applyAll (rs.flatMap Recording.updates)

/-! ## Sums of updates -/

section Sums

variable (read : Metrics → UInt64) {weight : Update → Nat}

/-- What only adds shows the sum of what the updates add. -/
theorem shows_applyAll (hadds : ∀ m update, read (m.apply update) = read m + UInt64.ofNat (weight update))
    (m : Metrics) (updates : List Update) :
    read (m.applyAll updates) = read m + UInt64.ofNat (updates.map weight).sum := by
  induction updates generalizing m with
  | nil => exact (UInt64.add_zero _).symm
  | cons update updates ih =>
    change read ((m.apply update).applyAll updates) = _
    rw [ih, hadds, List.map_cons, List.sum_cons, UInt64.ofNat_add, UInt64.add_assoc]

/-- After recordings it shows the sum of their shares. -/
theorem shows_recorded (hadds : ∀ m update, read (m.apply update) = read m + UInt64.ofNat (weight update))
    (hzero : read zero = 0) {share : Recording → Nat}
    (hshare : ∀ r : Recording, (r.updates.map weight).sum = share r) (rs : List Recording) :
    read (recorded rs) = UInt64.ofNat (rs.map share).sum := by
  have hsum : ((rs.flatMap Recording.updates).map weight).sum = (rs.map share).sum := by
    induction rs with
    | nil => rfl
    | cons r rs ih =>
      rw [List.flatMap_cons, List.map_append, List.sum_append, hshare, ih, List.map_cons, List.sum_cons]
  rw [recorded, shows_applyAll read hadds, hzero, hsum, UInt64.zero_add]

end Sums

theorem sum_toNat_eq_countP {α : Type} (p : α → Bool) (as : List α) :
    (as.map fun a => (p a).toNat).sum = as.countP p := by
  induction as with
  | nil => rfl
  | cons a as ih =>
    rw [List.map_cons, List.sum_cons, ih, List.countP_cons, Nat.add_comm]
    cases p a
    all_goals rfl

/-! ## Counters -/

theorem weight_countBucket (counter : Counter) (i : Nat) : counter.weight (.countBucket i) = 0 := by
  cases counter
  all_goals rfl

/-- An outcome is counted once in all, once with a duration, and once for its result. -/
theorem weight_outcome (counter : Counter) (result : Discovered) (d : Duration) :
    ((updatesOfOutcome result d).map counter.weight).sum =
      counter.weight .countCall +
        (counter.weight .countDuration + counter.weight (updateOfResult result)) := by
  obtain ⟨micros, indices, hupdates⟩ := exists_updatesOfOutcome result d
  have hmicros : counter.weight (.addDuration micros) = 0 := by
    cases counter
    all_goals rfl
  rw [hupdates]
  simp [hmicros, weight_countBucket, Function.comp_def, List.map_const']

theorem label_ne_ok (kind : Failure.Kind) : kind.label ≠ "ok" := by
  cases kind
  all_goals decide

theorem label_injective {kind kind' : Failure.Kind} (h : kind.label = kind'.label) : kind = kind' := by
  cases kind
  all_goals
    cases kind'
    all_goals first | rfl | exact absurd h (by decide)

/-- Whether a teardown left nothing behind: the process was reaped, or there was none. -/
def isComplete (report : Option TeardownReport) : Bool :=
  report.any fun r => r.reaped || r.pid.isNone

theorem updateOfTeardown_eq_ite (report : Option TeardownReport) :
    updateOfTeardown report = if isComplete report then .teardownCompleted else .teardownFailed := by
  cases report
  all_goals rfl

/-- What a recording adds to a counter. -/
def Recording.share : Recording → Counter → Nat
  | r, .calls | r, .durations => r.isOutcome.toNat
  | r, .succeeded => (r.isLabelled "ok").toNat
  | r, .failed kind => (r.isLabelled kind.label).toNat
  | .work iterations _, .iterations => iterations.toNat
  | .work _ blocks, .blocks => blocks.toNat
  | .teardown report, .teardownsCompleted => (isComplete report).toNat
  | .teardown report, .teardownsFailed => (!isComplete report).toNat
  | _, _ => 0

theorem sum_weight_updates (counter : Counter) (r : Recording) :
    (r.updates.map counter.weight).sum = r.share counter := by
  cases r with
  | outcome result d =>
    refine (weight_outcome counter result d).trans ?_
    cases result with
    | ok touched =>
      cases counter with
      | failed kind =>
        have hother : labelOf (.ok touched) ≠ kind.label := (label_ne_ok kind).symm
        simp [Recording.share, Recording.isLabelled, hother, updateOfResult, Counter.weight, Counter.entry]
      | _ => rfl
    | error failure =>
      cases counter with
      | failed kind =>
        have hlabel : labelOf (.error failure) = kind.label ↔ failure.kind = kind :=
          ⟨label_injective, congrArg Failure.Kind.label⟩
        simp only [Recording.share, Recording.isLabelled, hlabel, updateOfResult, Counter.weight,
          Counter.entry, Counter.failed.injEq]
        by_cases h : failure.kind = kind
        all_goals simp [h]
      | succeeded =>
        have hother : labelOf (.error failure) ≠ "ok" := label_ne_ok failure.kind
        simp [Recording.share, Recording.isLabelled, hother, updateOfResult, Counter.weight, Counter.entry]
      | _ => rfl
  | work iterations blocks =>
    cases counter
    all_goals simp [Recording.updates, updatesOfWork, Counter.weight, Counter.entry, Recording.share,
      Recording.isOutcome, Recording.isLabelled]
  | teardown report =>
    simp only [Recording.updates, updateOfTeardown_eq_ite]
    cases hcomplete : isComplete report
    all_goals
      cases counter
      all_goals simp [Recording.share, hcomplete, Counter.weight, Counter.entry, Recording.isOutcome,
        Recording.isLabelled]

/-- Every counter shows the sum of the recordings' shares. -/
theorem read_recorded (counter : Counter) (rs : List Recording) :
    counter.read (recorded rs) = UInt64.ofNat (rs.map fun r => r.share counter).sum := by
  have hzero : counter.read zero = 0 := by
    cases counter with
    | failed kind =>
      cases kind
      all_goals rfl
    | _ => rfl
  exact shows_recorded (fun m => counter.read m) counter.read_apply hzero (sum_weight_updates counter) rs

theorem callsTotal_recorded (rs : List Recording) :
    (recorded rs).callsTotal = UInt64.ofNat (rs.countP Recording.isOutcome) := by
  rw [← sum_toNat_eq_countP]
  exact read_recorded .calls rs

theorem durationCount_recorded (rs : List Recording) :
    (recorded rs).durationCount = UInt64.ofNat (rs.countP Recording.isOutcome) := by
  rw [← sum_toNat_eq_countP]
  exact read_recorded .durations rs

theorem callsSucceeded_recorded (rs : List Recording) :
    (recorded rs).callsSucceeded = UInt64.ofNat (rs.countP (·.isLabelled "ok")) := by
  rw [← sum_toNat_eq_countP]
  exact read_recorded .succeeded rs

theorem failures_recorded (kind : Failure.Kind) (rs : List Recording) :
    (recorded rs).failures.get kind = UInt64.ofNat (rs.countP (·.isLabelled kind.label)) := by
  rw [← sum_toNat_eq_countP]
  exact read_recorded (.failed kind) rs

/-- Every outcome has one of the labels, and nothing else has. -/
theorem sum_isLabelled (r : Recording) :
    (labels.map fun l => (r.isLabelled l).toNat).sum = r.isOutcome.toNat := by
  have hkind (kind : Failure.Kind) : (labels.map fun l => (decide (kind.label = l)).toNat).sum = 1 := by
    cases kind
    all_goals rfl
  cases r with
  | outcome result d =>
    cases result with
    | ok touched => rfl
    | error failure => exact hkind failure.kind
  | work iterations blocks => rfl
  | teardown report => rfl

/-- The outcomes with the labels are all outcomes. -/
theorem sum_countP_isLabelled (rs : List Recording) :
    (labels.map fun l => rs.countP (·.isLabelled l)).sum = rs.countP Recording.isOutcome := by
  simp only [← sum_toNat_eq_countP]
  induction rs with
  | nil => rfl
  | cons r rs ih =>
    simp only [List.map_cons, List.sum_cons, List.sum_map_add, sum_isLabelled, ih]

/-! ## Durations -/

/-- The buckets that a duration counts in. -/
def bucketsOf (d : Duration) : List Nat :=
  (List.range bounds.length).filter fun i => bounds[i]?.any fun bound => d.nanos ≤ bound.nanos

theorem updatesOfDuration_eq (d : Duration) : updatesOfDuration d =
    [.addDuration (UInt64.ofNat d.micros), .countDuration] ++ (bucketsOf d).map .countBucket := by
  rw [updatesOfDuration, bucketsOf, ← List.filterMap_eq_map, List.filterMap_filter]
  congr 2
  funext i
  cases bounds[i]? with
  | none => rfl
  | some bound => simp

/-- The sum of words that numbers were made is the sum of the numbers. -/
theorem ofNat_sum_toNat {α : Type} (f : α → Nat) (as : List α) :
    UInt64.ofNat (as.map fun a => (UInt64.ofNat (f a)).toNat).sum = UInt64.ofNat (as.map f).sum := by
  induction as with
  | nil => rfl
  | cons a as ih =>
    simp only [List.map_cons, List.sum_cons, UInt64.ofNat_add, UInt64.ofNat_toNat, ih]

/-- What an update adds to the sum of durations. -/
def microsOf : Update → Nat
  | .addDuration micros => micros.toNat
  | _ => 0

theorem sum_microsOf_updates (r : Recording) :
    (r.updates.map microsOf).sum = (UInt64.ofNat r.micros).toNat := by
  cases r with
  | outcome result d =>
    have hbuckets : (((bucketsOf d).map Update.countBucket).map microsOf).sum = 0 := by
      simp [microsOf, Function.comp_def, List.map_const']
    simp only [Recording.updates, updatesOfOutcome, updatesOfDuration_eq, List.cons_append, List.nil_append,
      List.map_cons, List.map_append, List.sum_cons, List.sum_append, hbuckets]
    cases result
    all_goals simp [microsOf, Recording.micros]
  | work iterations blocks => rfl
  | teardown report =>
    simp only [Recording.updates, updateOfTeardown_eq_ite]
    split
    all_goals rfl

theorem durationSum_recorded (rs : List Recording) :
    (recorded rs).durationSum = UInt64.ofNat (rs.map Recording.micros).sum := by
  have hadds (m : Metrics) (update : Update) :
      (m.apply update).durationSum = m.durationSum + UInt64.ofNat (microsOf update) := by
    cases update
    all_goals simp [apply, microsOf]
  rw [← ofNat_sum_toNat]
  exact shows_recorded durationSum hadds rfl sum_microsOf_updates rs

/-! ## Buckets -/

theorem getElem?_buckets_apply (i : Nat) (m : Metrics) (update : Update) :
    (m.apply update).buckets[i]? =
      m.buckets[i]?.map (· + UInt64.ofNat (if update == .countBucket i then 1 else 0)) := by
  cases update with
  | countBucket j =>
    simp only [apply, List.getElem?_modify]
    by_cases h : j = i
    · simp [h]
    · simp [h]
  | _ => simp [apply]

theorem getElem?_buckets_applyAll (i : Nat) (m : Metrics) (updates : List Update) :
    (m.applyAll updates).buckets[i]? =
      m.buckets[i]?.map (· + UInt64.ofNat (updates.count (.countBucket i))) := by
  induction updates generalizing m with
  | nil => simp [applyAll]
  | cons update updates ih =>
    change ((m.apply update).applyAll updates).buckets[i]? = _
    rw [ih, getElem?_buckets_apply, Option.map_map, List.count_cons]
    congr 1
    funext count
    simp only [Function.comp_apply, UInt64.add_assoc, ← UInt64.ofNat_add, Nat.add_comm]

theorem mem_bucketsOf {i : Nat} {bound : Duration} (hbound : bounds[i]? = some bound) (d : Duration) :
    i ∈ bucketsOf d ↔ d.nanos ≤ bound.nanos := by
  have hrange : i ∈ List.range bounds.length := List.mem_range.2 (List.getElem?_eq_some_iff.1 hbound).1
  rw [bucketsOf, List.mem_filter, hbound]
  simp [hrange]

theorem count_bucketsOf {i : Nat} {bound : Duration} (hbound : bounds[i]? = some bound) (d : Duration) :
    (bucketsOf d).count i = (decide (d.nanos ≤ bound.nanos)).toNat := by
  have hnodup : (bucketsOf d).Nodup := List.nodup_range.filter _
  rw [hnodup.count]
  by_cases h : d.nanos ≤ bound.nanos
  all_goals simp [mem_bucketsOf hbound, h]

/-- An outcome counts once in every bucket whose bound it does not exceed. -/
theorem count_updates {i : Nat} {bound : Duration} (hbound : bounds[i]? = some bound) (r : Recording) :
    r.updates.count (.countBucket i) = (r.isWithin bound).toNat := by
  cases r with
  | outcome result d =>
    have hbuckets : ((bucketsOf d).map Update.countBucket).count (.countBucket i) = (bucketsOf d).count i :=
      List.count_map_of_injective _ _ (fun _ _ h => Update.countBucket.inj h) i
    simp only [Recording.updates, updatesOfOutcome, updatesOfDuration_eq]
    cases result
    all_goals simp [hbuckets, count_bucketsOf hbound, Recording.isWithin]
  | work iterations blocks => simp [Recording.updates, updatesOfWork, Recording.isWithin]
  | teardown report =>
    simp only [Recording.updates, updateOfTeardown_eq_ite]
    split
    all_goals simp [Recording.isWithin]

/-- A bucket shows how many outcomes took no longer than its bound. -/
theorem buckets_recorded (rs : List Recording) :
    (recorded rs).buckets = bounds.map fun bound => UInt64.ofNat (rs.countP (·.isWithin bound)) := by
  refine List.ext_getElem? fun i => ?_
  have hzero : zero.buckets[i]? = bounds[i]?.map fun _ => 0 := List.getElem?_map
  rw [recorded, getElem?_buckets_applyAll, hzero, List.getElem?_map, Option.map_map]
  cases hbound : bounds[i]? with
  | none => rfl
  | some bound =>
    have hcount : (rs.flatMap Recording.updates).count (.countBucket i) = rs.countP (·.isWithin bound) := by
      rw [List.count_flatMap, ← sum_toNat_eq_countP]
      exact congrArg List.sum (List.map_congr_left fun r _ => count_updates hbound r)
    rw [hcount]
    exact congrArg some (UInt64.zero_add _)

theorem countP_isWithin_le_of_le {bound bound' : Duration} (h : bound.nanos ≤ bound'.nanos)
    (rs : List Recording) : rs.countP (·.isWithin bound) ≤ rs.countP (·.isWithin bound') := by
  refine List.countP_mono_left fun r _ hr => ?_
  cases r with
  | outcome result d => exact decide_eq_true ((of_decide_eq_true hr).trans h)
  | work iterations blocks => cases hr
  | teardown report => cases hr

theorem countP_isWithin_le (bound : Duration) (rs : List Recording) :
    rs.countP (·.isWithin bound) ≤ rs.countP Recording.isOutcome := by
  refine List.countP_mono_left fun r _ hr => ?_
  cases r with
  | outcome result d => rfl
  | work iterations blocks => cases hr
  | teardown report => cases hr

end Footprint.Metrics
