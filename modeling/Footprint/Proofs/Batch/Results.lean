import Footprint.Proofs.Batch.Progress

/-!
# Results in the order of the blocks

When a batch is complete, every job was either run or passed over, and has delivered once. Deliveries are
put in the places of their jobs, so each place holds what its block came to, or that it was cancelled,
whatever the schedule was (`Batch.run_orderly`).
-/

namespace Footprint

open scoped List

namespace Batch

variable {ρ : Type} {cancelled : ρ} {b after last : Batch ρ} {e : Event ρ}
  {history earlier later : List (Event ρ)} {wanted : Nat} {blocks : List Code} {job : Job}

/-! ## Calling off -/

theorem Leads.calledOff_iff (h : Leads cancelled (start wanted blocks) history last) :
    last.calledOff = true ↔ .calledOff ∈ history := by
  induction h with
  | nil => simp [start]
  | snoc _ hchange ih =>
    rw [List.mem_append, ← ih]
    cases hchange <;> simp [withWorker, withDelivery]

/-- Nothing is passed over unless the batch was called off. -/
theorem Leads.passedOver_eq_nil (h : Leads cancelled (start wanted blocks) history last)
    (hcalled : .calledOff ∉ history) : passedOver history = [] := by
  induction h with
  | nil => rfl
  | snoc hleads hchange ih =>
    rw [List.mem_append, not_or] at hcalled
    rw [passedOver_concat, ih hcalled.1]
    cases hchange with
    | pass _ hbefore => exact absurd (hleads.calledOff_iff.1 hbefore) hcalled.1
    | _ => rfl

/-- Nothing is begun after the batch was called off. -/
theorem Leads.begun_eq_nil (h : Leads cancelled b history last) (hcalled : b.calledOff = true) :
    last.calledOff = true ∧ begun history = [] := by
  induction h with
  | nil => exact ⟨hcalled, rfl⟩
  | snoc _ hchange ih =>
    rcases ih with ⟨hbefore, hnone⟩
    rw [begun_concat, hnone]
    cases hchange with
    | begin _ hnot =>
      rw [hbefore] at hnot
      cases hnot
    | callOff => exact ⟨rfl, rfl⟩
    | _ => exact ⟨hbefore, rfl⟩

theorem Leads.taken_mem_jobs {worker : Nat}
    (h : Leads cancelled (start wanted blocks) history last)
    (hhistory : history = earlier ++ .took worker job :: later) : job ∈ jobsOf blocks := by
  rcases h.split hhistory with ⟨before, after, hearlier, htake, _⟩
  cases htake with
  | take _ hqueue =>
    apply hearlier.accounted.places.subset
    simp [hqueue]

/-- A job that is taken after the batch was called off is never begun. -/
theorem Leads.not_mem_begun {worker : Nat}
    (h : Leads cancelled (start wanted blocks) (earlier ++ .took worker job :: later) last)
    (hcalled : .calledOff ∈ earlier) : job ∉ begun (earlier ++ .took worker job :: later) := by
  rcases h.split rfl with ⟨before, after, hearlier, htake, hlater⟩
  have hbefore : before.calledOff = true := hearlier.calledOff_iff.2 hcalled
  have hqueue : job ∈ before.queue ∧ after.calledOff = true := by
    cases htake with
    | take _ hqueue =>
      rw [hqueue]
      exact ⟨List.mem_cons_self, hbefore⟩
  have hnotEarlier : job ∉ begun earlier := hearlier.accounted.not_mem_begun hqueue.1
  have hnotLater : begun later = [] := (hlater.begun_eq_nil hqueue.2).2
  simp only [begun, List.filterMap_append, List.filterMap_cons, Event.begun?] at hnotEarlier hnotLater ⊢
  rw [hnotLater, List.append_nil]
  exact hnotEarlier

/-! ## Deliveries -/

/-- What was delivered, with the numbers of the jobs. -/
theorem Leads.delivered_eq (h : Leads cancelled (start wanted blocks) history last) :
    last.delivered = history.filterMap (Event.delivery? cancelled) := by
  induction h with
  | nil => rfl
  | snoc _ hchange ih =>
    rw [filterMap_concat, ← ih]
    cases hchange <;> simp [withWorker, withDelivery, Event.delivery?]

/-- A job delivers when it is finished and when it is passed over. -/
theorem map_fst_deliveries_perm (cancelled : ρ) (history : List (Event ρ)) :
    ((history.filterMap (Event.delivery? cancelled)).map Prod.fst).Perm
      ((finished history ++ passedOver history).map Job.number) := by
  induction history with
  | nil => exact .nil
  | cons e rest ih =>
    simp only [finished, passedOver, List.map_append] at ih ⊢
    simp only [List.filterMap_cons]
    cases e with
    | passed worker job => exact (ih.cons job.number).trans List.perm_middle.symm
    | delivered worker job result => exact ih.cons job.number
    | _ => exact ih

/-! ## Collecting -/

section

variable {places : List (Option ρ)} {deliveries : List (Nat × ρ)} {i : Nat} {result : ρ}

@[simp]
theorem length_foldl_place (deliveries : List (Nat × ρ)) (places : List (Option ρ)) :
    (deliveries.foldl place places).length = places.length := by
  induction deliveries generalizing places with
  | nil => rfl
  | cons d rest ih => simp [ih, place]

theorem getElem?_foldl_place_of_not_mem (h : i ∉ deliveries.map Prod.fst) :
    (deliveries.foldl place places)[i]? = places[i]? := by
  induction deliveries generalizing places with
  | nil => rfl
  | cons d rest ih =>
    simp only [List.map_cons, List.mem_cons, not_or] at h
    rw [List.foldl_cons, ih h.2]
    exact List.getElem?_set_ne (Ne.symm h.1)

/-- What is delivered once is found in its place. -/
theorem getElem?_foldl_place (hnodup : (deliveries.map Prod.fst).Nodup)
    (hmem : (i, result) ∈ deliveries) (hi : i < places.length) :
    (deliveries.foldl place places)[i]? = some (some result) := by
  induction deliveries generalizing places with
  | nil => cases hmem
  | cons d rest ih =>
    rw [List.map_cons, List.nodup_cons] at hnodup
    rw [List.foldl_cons]
    rcases List.mem_cons.1 hmem with rfl | hrest
    · rw [getElem?_foldl_place_of_not_mem hnodup.1]
      exact List.getElem?_set_self hi
    · exact ih hnodup.2 hrest (by simpa [place] using hi)

end

theorem length_results (cancelled : ρ) (b : Batch ρ) (size : Nat) :
    (b.results cancelled size).length = size := by
  simp [results]

theorem getElem?_results {size i : Nat} {result : ρ} (hnodup : (b.delivered.map Prod.fst).Nodup)
    (hmem : (i, result) ∈ b.delivered) (hi : i < size) :
    (b.results cancelled size)[i]? = some result := by
  have hroom : i < (List.replicate size (none : Option ρ)).length := by simpa using hi
  have hplace := getElem?_foldl_place hnodup hmem hroom
  simp [results, hplace]

/-! ## Complete batches -/

theorem Staffed.queue_eq_nil {size : Nat} (h : Staffed wanted size b) (hcomplete : b.isComplete = true) :
    b.waiting = [] ∧ b.queue = [] := by
  simp only [isComplete, Bool.and_eq_true, Bool.not_eq_true', List.all_eq_true, beq_iff_eq] at hcomplete
  refine ⟨h.closed hcomplete.1, ?_⟩
  cases hworkers : b.workers with
  | nil =>
    have hbounded := h.bounded
    rw [← h.workers, hworkers] at hbounded
    exact List.length_eq_zero_iff.1 (Nat.le_zero.1 hbounded)
  | cons state rest =>
    have hmem : state ∈ b.workers := by simp [hworkers]
    exact (h.left (hcomplete.2 state hmem ▸ hmem)).2

theorem workers_of_isComplete (hcomplete : b.isComplete = true) : b.held = [] ∧ b.running = [] := by
  simp only [isComplete, Bool.and_eq_true, Bool.not_eq_true', List.all_eq_true, beq_iff_eq] at hcomplete
  constructor
  · apply List.filterMap_eq_nil_iff.2
    intro state hmem
    rw [hcomplete.2 state hmem]
    rfl
  · apply List.filterMap_eq_nil_iff.2
    intro state hmem
    rw [hcomplete.2 state hmem]
    rfl

/-- When a batch is complete, every job was finished or passed over. -/
theorem Accounted.settled (h : Accounted (jobsOf blocks) history b)
    (hstaffed : Staffed wanted blocks.length b) (hcomplete : b.isComplete = true) :
    (begun history ++ passedOver history).Perm (jobsOf blocks) ∧
      (finished history).Perm (begun history) := by
  rcases hstaffed.queue_eq_nil hcomplete with ⟨hwaiting, hqueue⟩
  rcases workers_of_isComplete hcomplete with ⟨hheld, hrunning⟩
  constructor
  · simpa [hwaiting, hqueue, hheld] using h.places
  · simpa [hrunning] using h.runs

theorem mem_finished_iff :
    job ∈ finished history ↔ ∃ worker result, .delivered worker job result ∈ history := by
  simp only [finished, List.mem_filterMap]
  constructor
  · intro h
    rcases h with ⟨e, hmem, he⟩
    cases e with
    | delivered worker job' result =>
      cases he
      exact ⟨worker, result, hmem⟩
    | _ => cases he
  · intro h
    rcases h with ⟨worker, result, hmem⟩
    exact ⟨_, hmem, rfl⟩

theorem mem_passedOver_iff : job ∈ passedOver history ↔ ∃ worker, .passed worker job ∈ history := by
  simp only [passedOver, List.mem_filterMap]
  constructor
  · intro h
    rcases h with ⟨e, hmem, he⟩
    cases e with
    | passed worker job' =>
      cases he
      exact ⟨worker, hmem⟩
    | _ => cases he
  · intro h
    rcases h with ⟨worker, hmem⟩
    exact ⟨_, hmem, rfl⟩

/-- In a complete batch, every number was delivered once. -/
theorem Leads.nodup_delivered (h : Leads cancelled (start wanted blocks) history last)
    (hcomplete : last.isComplete = true) : (last.delivered.map Prod.fst).Nodup := by
  rcases h.accounted.settled h.staffed hcomplete with ⟨hjobs, hfinished⟩
  have hnumbers : (last.delivered.map Prod.fst).Perm (List.range blocks.length) := by
    calc
      last.delivered.map Prod.fst
          = (history.filterMap (Event.delivery? cancelled)).map Prod.fst := by rw [h.delivered_eq]
      _ ~ (finished history ++ passedOver history).map Job.number := map_fst_deliveries_perm _ _
      _ ~ (begun history ++ passedOver history).map Job.number := (hfinished.append_right _).map _
      _ ~ (jobsOf blocks).map Job.number := hjobs.map _
      _ = List.range blocks.length := map_number_jobsOf blocks
  exact hnumbers.nodup_iff.2 List.nodup_range

/-- In a complete batch, the place of a job holds what was delivered for it. -/
theorem Leads.getElem?_results_of_delivery (h : Leads cancelled (start wanted blocks) history last)
    (hcomplete : last.isComplete = true) (hjob : job ∈ jobsOf blocks) {result : ρ} (hmem : e ∈ history)
    (hdelivery : e.delivery? cancelled = some (job.number, result)) :
    (last.results cancelled blocks.length)[job.number]? = some result := by
  have hsize : job.number < blocks.length :=
    (List.getElem?_eq_some_iff.1 (mem_jobsOf_iff.1 hjob)).1
  refine getElem?_results (h.nodup_delivered hcomplete) ?_ hsize
  rw [h.delivered_eq]
  exact List.mem_filterMap.2 ⟨e, hmem, hdelivery⟩

/-- In a complete batch, a job was run and its place holds what it came to, or it was not run and its
place holds that it was cancelled. -/
theorem Leads.entry (h : Leads cancelled (start wanted blocks) history last)
    (hcomplete : last.isComplete = true) (hjob : job ∈ jobsOf blocks) :
    (job ∈ begun history ∧ ∃ worker result, .delivered worker job result ∈ history ∧
        (last.results cancelled blocks.length)[job.number]? = some result) ∨
      (job ∉ begun history ∧
        (last.results cancelled blocks.length)[job.number]? = some cancelled) := by
  rcases h.accounted.settled h.staffed hcomplete with ⟨hjobs, hfinished⟩
  by_cases hbegun : job ∈ begun history
  · rcases mem_finished_iff.1 (hfinished.mem_iff.2 hbegun) with ⟨worker, result, hmem⟩
    exact .inl ⟨hbegun, worker, result, hmem, h.getElem?_results_of_delivery hcomplete hjob hmem rfl⟩
  · have hpassed : job ∈ passedOver history := by
      rcases List.mem_append.1 (hjobs.mem_iff.2 hjob) with hmem | hmem
      · exact absurd hmem hbegun
      · exact hmem
    rcases mem_passedOver_iff.1 hpassed with ⟨worker, hmem⟩
    exact .inr ⟨hbegun, h.getElem?_results_of_delivery hcomplete hjob hmem rfl⟩

/-- Without a call-off, all blocks are begun. -/
theorem Leads.begun_perm (h : Leads cancelled (start wanted blocks) history last)
    (hcomplete : last.isComplete = true) (hcalled : .calledOff ∉ history) :
    (begun history).Perm (jobsOf blocks) := by
  have hjobs := (h.accounted.settled h.staffed hcomplete).1
  rw [h.passedOver_eq_nil hcalled, List.append_nil] at hjobs
  exact hjobs

/-- Without a call-off, blocks that come to the same whenever they are run come to that, in their
order. -/
theorem Leads.results_eq_map (h : Leads cancelled (start wanted blocks) history last)
    (hcomplete : last.isComplete = true) (hcalled : .calledOff ∉ history) {outcome : Code → ρ}
    (hagrees : ∀ e ∈ history, e.Agrees outcome) :
    last.results cancelled blocks.length = blocks.map outcome := by
  apply List.ext_getElem?
  intro i
  cases hblock : blocks[i]? with
  | none =>
    have hbeyond : blocks.length ≤ i := List.getElem?_eq_none_iff.1 hblock
    rw [List.getElem?_map, hblock]
    exact List.getElem?_eq_none_iff.2 (by rw [length_results]; exact hbeyond)
  | some block =>
    have hjob : (⟨i, block⟩ : Job) ∈ jobsOf blocks := mem_jobsOf_iff.2 hblock
    have hbegun := (h.begun_perm hcomplete hcalled).mem_iff.2 hjob
    rcases h.entry hcomplete hjob with ⟨_, worker, result, hmem, hresult⟩ | ⟨hnot, _⟩
    · obtain rfl : result = outcome block := hagrees _ hmem
      rw [List.getElem?_map, hblock]
      exact hresult
    · exact absurd hbegun hnot

/-! ## Every schedule -/

/-- What a history of a batch keeps to, whatever the schedule. -/
structure Orderly (cancelled : ρ) (wanted : Nat) (blocks : List Code) (history : List (Event ρ))
    (b : Batch ρ) : Prop where
  -- Some move is possible before the batch is complete, whatever the blocks come to.
  notStuck : b.isComplete = false → ∀ outcome, CanWork cancelled outcome b
  -- There are not more moves than jobs and workers can make.
  finite : history.countP Event.isWork ≤ 4 * blocks.length + workerCount wanted blocks.length + 1
  bounded : b.queue.length ≤ workerCount wanted blocks.length
  length_eq : (b.results cancelled blocks.length).length = blocks.length
  -- A block is begun once at most, and each at its own place.
  nodup_begun : (begun history).Nodup
  begun_blocks : ∀ job ∈ begun history, blocks[job.number]? = some job.block
  -- A place holds what the run of its block delivered, or that the block was cancelled.
  entry : b.isComplete = true → ∀ job ∈ jobsOf blocks,
    (job ∈ begun history ∧ ∃ worker result, .delivered worker job result ∈ history ∧
        (b.results cancelled blocks.length)[job.number]? = some result) ∨
      (job ∉ begun history ∧ (b.results cancelled blocks.length)[job.number]? = some cancelled)
  -- A job that is taken after the batch was called off is not run.
  late : ∀ earlier later worker job, history = earlier ++ .took worker job :: later →
    .calledOff ∈ earlier → job ∉ begun history ∧
      (b.isComplete = true → (b.results cancelled blocks.length)[job.number]? = some cancelled)
  -- Unless it is called off, a batch is the map of its blocks.
  begun_perm : b.isComplete = true → .calledOff ∉ history → (begun history).Perm (jobsOf blocks)
  results_eq : b.isComplete = true → .calledOff ∉ history → ∀ outcome : Code → ρ,
    (∀ e ∈ history, e.Agrees outcome) → b.results cancelled blocks.length = blocks.map outcome

theorem Leads.orderly (h : Leads cancelled (start wanted blocks) history last) :
    Orderly cancelled wanted blocks history last := by
  constructor
  case notStuck =>
    intro hincomplete outcome
    exact canWork_of_not_complete h.accounted h.staffed hincomplete
  case finite => exact h.countP_isWork_le
  case bounded => exact h.staffed.bounded
  case length_eq => exact length_results cancelled last blocks.length
  case nodup_begun => exact h.accounted.nodup_begun
  case begun_blocks =>
    intro job hjob
    exact mem_jobsOf_iff.1 (h.accounted.mem_jobs hjob)
  case entry =>
    intro hcomplete job hjob
    exact h.entry hcomplete hjob
  case late =>
    intro earlier later worker job hhistory hcalled
    subst hhistory
    have hnot := h.not_mem_begun hcalled
    refine ⟨hnot, ?_⟩
    intro hcomplete
    rcases h.entry hcomplete (h.taken_mem_jobs rfl) with ⟨hbegun, _⟩ | ⟨_, hresult⟩
    · exact absurd hbegun hnot
    · exact hresult
  case begun_perm =>
    intro hcomplete hcalled
    exact h.begun_perm hcomplete hcalled
  case results_eq =>
    intro hcomplete hcalled outcome hagrees
    exact h.results_eq_map hcomplete hcalled hagrees

/-- Every run of a batch, whatever its schedule and its number of workers, is the history of an orderly
batch. -/
theorem run_orderly {moves : List (Move ρ)} (h : steps cancelled (start wanted blocks) moves = some last) :
    ∃ history : List (Event ρ), history.map Event.move = moves ∧
      Leads cancelled (start wanted blocks) history last ∧
      Orderly cancelled wanted blocks history last := by
  rcases steps_eq_some_iff.1 h with ⟨history, hmoves, hleads⟩
  exact ⟨history, hmoves, hleads, hleads.orderly⟩

/-- Four blocks on three workers. The third block is done before the first one, and the batch is called
off while the first one is run and the second one is held. -/
def calledOffMoves : List (Move (Option Nat)) :=
  [.feed, .feed, .take 1, .feed, .take 0, .begin 1, .take 2, .begin 2, .deliver 2 (some 30), .feed, .close,
    .callOff, .skip 0, .take 0, .deliver 1 (some 10), .leave 2, .skip 0, .leave 1, .leave 0]

/-- Blocks that are not begun when the batch is called off are cancelled, the others are not. -/
theorem run_orderly_of_calledOffMoves :
    let blocks : List Code := [[0x90], [0xc3], [0xcc], [0x90]]
    let last : Batch (Option Nat) :=
      ⟨[], false, [], [.gone, .gone, .gone], [(2, some 30), (1, none), (0, some 10), (3, none)], true⟩
    steps none (start 3 blocks) calledOffMoves = some last ∧ last.isComplete = true ∧
      last.results none 4 = [some 10, none, some 30, none] ∧
      ∃ history, history.map Event.move = calledOffMoves ∧ Orderly none 3 blocks history last := by
  intro blocks last
  have hrun : steps none (start 3 blocks) calledOffMoves = some last := by decide
  rcases run_orderly hrun with ⟨history, hmoves, _, horderly⟩
  exact ⟨hrun, rfl, rfl, history, hmoves, horderly⟩

end Batch

end Footprint
