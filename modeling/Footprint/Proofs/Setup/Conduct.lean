import Footprint.Proofs.Dialogue.Asking
import Footprint.Proofs.Setup.Report
import Footprint.Setup.Program

/-!
# What a fresh process does

The history of a fresh process are its calls with their answers. A plan asks for some steps in a fixed
order, each of which succeeds by one answer (`Plan.steps`). Apart from descriptors that it closes, a
process makes these steps up to the first one that fails, undoes what that one left, reports it and exits
with the number of its stage; or it makes them all, reports that it is ready and stops (`Plan.Ends`).
Whatever the answers are, the program does just that (`ensures_program`).
-/

namespace Footprint

namespace Setup

abbrev Exchange := Dialogue.Exchange Call Answer

/-- What a fresh process asked and was answered, in order. -/
abbrev History := List Exchange

/-! ## Steps -/

/-- The stage that a call is a part of. Memory that permits nothing is the guarded region. -/
def stageOf : Call → Option Stage
  | .dieWithParent => some .parentDeathSignal
  | .traceMe => some .traceMe
  | .map _ _ perms => some (if perms = .none then .mapGuard else .mapCode)
  | .copy .. => some .mapCode
  | .protect .. => some .protectCode
  | _ => none

/-- The error number by which a call failed. Memory that was mapped elsewhere is a failure too. -/
def errnoOf : Exchange → Option Errno
  | ⟨.dieWithParent, .error errno⟩ => some errno
  | ⟨.traceMe, .error errno⟩ => some errno
  | ⟨.map _ _ _, .error errno⟩ => some errno
  | ⟨.map start _ _, .ok mapped⟩ => if mapped = start then none else some .alreadyExists
  | ⟨.protect _ _ _, .error errno⟩ => some errno
  | _ => none

/-- The stage that failed by an exchange, and its error number. -/
def failureOf (x : Exchange) : Option (Stage × Errno) :=
  match stageOf x.call, errnoOf x with
  | some stage, some errno => some (stage, errno)
  | _, _ => none

/-- What undoes an exchange: memory that was mapped elsewhere is unmapped. -/
def undoOf : Exchange → History
  | ⟨.map start len _, .ok mapped⟩ => if mapped = start then [] else [⟨.unmap mapped len, ()⟩]
  | _ => []

/-- The steps of a plan, each with the answer by which it succeeds. -/
def Plan.steps (plan : Plan) : History :=
  [⟨.dieWithParent, .ok ()⟩,
   ⟨.traceMe, .ok ()⟩,
   ⟨.map plan.codeLocation plan.regionLen .readWrite, .ok plan.codeLocation⟩,
   ⟨.copy plan.codeLocation plan.image, ()⟩,
   ⟨.protect plan.codeLocation plan.regionLen .readExec, .ok ()⟩,
   ⟨.map plan.guardRegion.start plan.guardRegion.len .none, .ok plan.guardRegion.start⟩]

def isClosing : Call → Bool
  | .closeRange _ | .close _ => true
  | _ => false

/-- A history without the descriptors that were closed. -/
def bodyOf (t : History) : History :=
  t.filter fun x => !isClosing x.call

variable {plan : Plan} {t t' : History} {x : Exchange} {stage : Stage} {errno : Errno}

@[simp]
theorem bodyOf_append (t t' : History) : bodyOf (t ++ t') = bodyOf t ++ bodyOf t' :=
  List.filter_append ..

theorem bodyOf_concat (t : History) (h : isClosing x.call = false) :
    bodyOf (t ++ [x]) = bodyOf t ++ [x] := by
  simp [bodyOf, h]

theorem bodyOf_concat_closing (t : History) (h : isClosing x.call = true) :
    bodyOf (t ++ [x]) = bodyOf t := by
  simp [bodyOf, h]

theorem mem_bodyOf_iff (h : isClosing x.call = false) : x ∈ bodyOf t ↔ x ∈ t := by
  simp [bodyOf, h]

theorem failureOf_eq_some_iff :
    failureOf x = some (stage, errno) ↔ stageOf x.call = some stage ∧ errnoOf x = some errno := by
  unfold failureOf
  cases stageOf x.call
  all_goals
    cases errnoOf x
    all_goals simp

/-- The steps of a plan succeed. -/
theorem failureOf_steps (h : x ∈ plan.steps) : failureOf x = none := by
  simp only [Plan.steps, List.mem_cons, List.not_mem_nil, or_false] at h
  rcases h with rfl | rfl | rfl | rfl | rfl | rfl
  all_goals simp [failureOf, stageOf, errnoOf]

/-- The steps of a plan are steps of some stage. -/
theorem stageOf_steps (h : x ∈ plan.steps) : (stageOf x.call).isSome = true := by
  simp only [Plan.steps, List.mem_cons, List.not_mem_nil, or_false] at h
  rcases h with rfl | rfl | rfl | rfl | rfl | rfl
  all_goals rfl

/-- Whatever is undone is unmapped. -/
theorem exists_unmap_of_undoOf {y : Exchange} (h : y ∈ undoOf x) :
    ∃ start len, y = ⟨.unmap start len, ()⟩ := by
  unfold undoOf at h
  split at h
  next start len perms mapped =>
    split at h
    · cases h
    · exact ⟨mapped, len, List.mem_singleton.1 h⟩
  next => cases h

theorem stageOf_of_isClosing (h : isClosing x.call = true) : stageOf x.call = none := by
  unfold isClosing at h
  split at h
  next hcall => rw [hcall]; rfl
  next hcall => rw [hcall]; rfl
  next => cases h

theorem mem_bodyOf_or_stageOf (h : x ∈ t) : x ∈ bodyOf t ∨ stageOf x.call = none := by
  cases hclosing : isClosing x.call with
  | true => exact .inr (stageOf_of_isClosing hclosing)
  | false => exact .inl ((mem_bodyOf_iff hclosing).2 h)

theorem stageOf_of_undoOf {y : Exchange} (h : y ∈ undoOf x) : stageOf y.call = none := by
  rcases exists_unmap_of_undoOf h with ⟨_, _, rfl⟩
  rfl

theorem stageOf_ne_ready (c : Call) : stageOf c ≠ some .ready := by
  cases c with
  | map start len perms =>
    by_cases h : perms = .none
    all_goals simp [stageOf, h]
  | _ => simp [stageOf]

theorem failureOf_of_stageOf (h : stageOf x.call = none) : failureOf x = none := by
  rw [failureOf, h]

/-- Closing a descriptor is no failure. -/
theorem isClosing_of_failureOf (h : failureOf x ≠ none) : isClosing x.call = false := by
  rw [Bool.eq_false_iff]
  exact fun hclosing => h (failureOf_of_stageOf (stageOf_of_isClosing hclosing))

/-! ## The ends of a setup -/

/-- The report that all steps succeeded. -/
def Report.ready (codeLocation : Addr) : Report :=
  ⟨Stage.ready.number, 0, codeLocation⟩

/-- The report that a step failed. -/
def Report.failed (stage : Stage) (errno : Errno) : Report :=
  ⟨stage.number, Int32.ofInt errno.code, 0⟩

/-- The steps of a plan up to the first one that failed, with what undoes that. -/
inductive Plan.FailsAt (plan : Plan) (stage : Stage) (errno : Errno) : History → Prop where
  | first {n : Nat} {step x : Exchange} (hstep : plan.steps[n]? = some step)
      (hcall : x.call = step.call) (hfailure : failureOf x = some (stage, errno)) :
      FailsAt plan stage errno (plan.steps.take n ++ x :: undoOf x)

/-- What follows some steps: a report, something more, and an exit code. -/
inductive Plan.Concludes (plan : Plan) : History → Report → History → UInt32 → Prop where
  | ready : Concludes plan plan.steps (.ready plan.codeLocation) [⟨.stop, ()⟩] Stage.resumed.number
  | failed {stage : Stage} {errno : Errno} {done : History} (h : plan.FailsAt stage errno done) :
      Concludes plan done (.failed stage errno) [] stage.number

/-- How a setup ends, apart from descriptors that were closed. -/
def Plan.Ends (plan : Plan) (t : History) (code : UInt32) : Prop :=
  ∃ done r tail, plan.Concludes done r tail code ∧ bodyOf t = done ++ ⟨.report r, ()⟩ :: tail

/-- What a part of the setup leaves: the first `n` steps, or those up to the first that failed. -/
def Plan.After (plan : Plan) (n : Nat) (t : History) : Except (Stage × Errno) Unit → Prop
  | .ok _ => bodyOf t = plan.steps.take n
  | .error (stage, errno) => plan.FailsAt stage errno (bodyOf t)

/-! ## The steps of the program -/

section Steps

variable {n m : Nat} {step : Exchange}

theorem Plan.after_step (h : bodyOf t = plan.steps.take n) (hstep : plan.steps[n]? = some x)
    (hx : isClosing x.call = false) : bodyOf (t ++ [x]) = plan.steps.take (n + 1) := by
  rw [bodyOf_concat t hx, h, List.take_add_one, hstep]
  rfl

theorem Plan.after_failure (h : bodyOf t = plan.steps.take n) (hstep : plan.steps[n]? = some step)
    (hcall : x.call = step.call) (hfailure : failureOf x = some (stage, errno))
    (hx : bodyOf (x :: undoOf x) = x :: undoOf x) :
    plan.FailsAt stage errno (bodyOf (t ++ x :: undoOf x)) := by
  rw [bodyOf_append, h, hx]
  exact .first hstep hcall hfailure

/-- One part of the setup follows another, unless that failed. -/
theorem Plan.ensures_next {part : Step Unit} {next : Unit → Step Unit}
    (h : part.run.Ensures (plan.After n) t)
    (hnext : ∀ t, bodyOf t = plan.steps.take n → (next ()).run.Ensures (plan.After m) t) :
    (part >>= next).run.Ensures (plan.After m) t := by
  refine Dialogue.ensures_run_bind.2 (h.mono ?_)
  rintro t (⟨stage, errno⟩ | ⟨⟩) h
  · exact h
  · exact hnext t h

theorem ensures_attempt {α : Type} {request : Program (Except Errno α)}
    {post : History → Except (Stage × Errno) α → Prop}
    (h : request.Ensures
      (fun t reply => match reply with
        | .ok a => post t (.ok a)
        | .error errno => post t (.error (stage, errno))) t) :
    (attempt stage request).run.Ensures post t := by
  refine Dialogue.ensures_run_bind.2 (Dialogue.ensures_run_lift.2 (h.mono ?_))
  rintro t (errno | a) h
  all_goals exact h

/-- Memory is mapped where it should be, or else nothing is left of it. -/
theorem ensures_mapExactly {start len : Addr} {perms : Perms} (h : bodyOf t = plan.steps.take n)
    (hstep : plan.steps[n]? = some ⟨.map start len perms, .ok start⟩)
    (hstage : stageOf (.map start len perms) = some stage) :
    (mapExactly stage start len perms).run.Ensures (plan.After (n + 1)) t := by
  have hfailure : ∀ reply errno, errnoOf ⟨.map start len perms, reply⟩ = some errno →
      failureOf ⟨.map start len perms, reply⟩ = some (stage, errno) :=
    fun reply errno herrno => failureOf_eq_some_iff.2 ⟨hstage, herrno⟩
  refine Dialogue.ensures_run_bind.2 (ensures_attempt ?_)
  rintro (errno | mapped)
  · exact Plan.after_failure h hstep rfl (hfailure (.error errno) errno rfl) rfl
  · by_cases hexact : mapped = start
    · subst hexact
      simp only [Dialogue.Ensures, if_true]
      exact Plan.after_step h hstep rfl
    · have hundo : undoOf ⟨.map start len perms, .ok mapped⟩ = [⟨.unmap mapped len, ()⟩] := if_neg hexact
      have hfails := Plan.after_failure (x := ⟨.map start len perms, .ok mapped⟩) h hstep rfl
        (hfailure (.ok mapped) .alreadyExists (if_neg hexact)) (by rw [hundo]; rfl)
      rw [hundo] at hfails
      simp only [Dialogue.Ensures, hexact, if_false]
      refine Dialogue.ensures_run_bind.2 (Dialogue.ensures_run_lift.2 fun _ => ?_)
      rw [List.append_assoc]
      exact hfails

/-- The code is mapped, filled and made executable, or one of that failed. -/
theorem ensures_mapCode (h : bodyOf t = plan.steps.take 2) :
    (mapCode plan).run.Ensures (plan.After 5) t := by
  refine Plan.ensures_next (ensures_mapExactly h rfl rfl) fun t h => ?_
  refine Dialogue.ensures_run_bind.2 (Dialogue.ensures_run_lift.2 fun _ => ?_)
  have hcopied := Plan.after_step (x := ⟨.copy plan.codeLocation plan.image, ()⟩) h rfl rfl
  refine ensures_attempt ?_
  rintro (errno | ⟨⟩)
  · exact Plan.after_failure hcopied rfl rfl rfl rfl
  · exact Plan.after_step hcopied rfl rfl

end Steps

/-! ## The program -/

/-- Closing descriptors is no step. -/
theorem ensures_closeInherited (keep : Int32) (h : bodyOf t = []) :
    (closeInherited keep).Ensures (fun t _ => bodyOf t = []) t := by
  let closing : Call → Prop := fun c => isClosing c = true
  have hcall : ∀ c, closing c → (ask c).Asks closing := fun c hc => Dialogue.asks_call hc
  have heach : ∀ first count, (closeEach first count).Asks closing := by
    intro first count
    induction count generalizing first with
    | zero => trivial
    | succ count ih => exact (hcall (.close first) rfl).bind fun _ => ih (first + 1)
  have hall : ∀ range, (closeAll range).Asks closing := by
    intro range
    unfold closeAll
    split
    · trivial
    · refine (hcall (.closeRange range) rfl).bind ?_
      rintro (errno | ⟨⟩)
      · exact heach _ _
      · trivial
  have hasks : (closeInherited keep).Asks closing := by
    unfold closeInherited
    split
    · exact (hall _).bind fun _ => hall _
    · trivial
  refine hasks.ensures ?_ h
  intro t x hx h
  rw [bodyOf_concat_closing t hx, h]

/-- A process makes the steps of its plan one after the other, up to the first that fails. -/
theorem ensures_build (plan : Plan) : (build plan).run.Ensures (plan.After 6) [] := by
  refine Dialogue.ensures_run_bind.2 (Dialogue.ensures_run_lift.2
    ((ensures_closeInherited plan.reportTo rfl).mono fun t _ hnothing => ?_))
  have h : bodyOf t = plan.steps.take 0 := hnothing
  refine Plan.ensures_next (n := 1) (ensures_attempt ?_) fun t h => ?_
  · rintro (errno | ⟨⟩)
    · exact Plan.after_failure h rfl rfl rfl rfl
    · exact Plan.after_step h rfl rfl
  refine Plan.ensures_next (n := 2) (ensures_attempt ?_) fun t h => ?_
  · rintro (errno | ⟨⟩)
    · exact Plan.after_failure h rfl rfl rfl rfl
    · exact Plan.after_step h rfl rfl
  refine Plan.ensures_next (ensures_mapCode h) fun t h => ?_
  exact ensures_mapExactly h rfl rfl

/-- Whatever the answers are, a process ends as its plan says. -/
theorem ensures_program (plan : Plan) : (program plan).Ensures plan.Ends [] := by
  refine (Dialogue.ensures_bind _ _).2 ((ensures_build plan).mono ?_)
  rintro t (⟨stage, errno⟩ | ⟨⟩) h
  · intro _
    refine ⟨bodyOf t, _, [], .failed h, ?_⟩
    rw [bodyOf_append]
    rfl
  · intro _ _
    have hall : bodyOf t = plan.steps := h
    refine ⟨plan.steps, _, _, .ready, ?_⟩
    rw [bodyOf_append, bodyOf_append, hall, List.append_assoc]
    rfl

end Setup

end Footprint
