import Mathlib.Data.List.Basic
import Footprint.Proofs.Setup.Conduct

/-!
# Histories on their way

A process on its way has a history that could go on to an end by its plan (`Plan.Conforms`). Such a history
says by itself how far the steps came: behind a step that failed no other step follows, the report tells
which one it was (`Conforms.failed`), and a process that stopped has made all of them
(`Conforms.stopped`).
-/

namespace Footprint

namespace Setup

variable {plan : Plan} {t t' : History} {x : Exchange} {stage : Stage} {errno : Errno}

/-- A history on its way, which could go on to an end. -/
def Plan.Conforms (plan : Plan) (t : History) : Prop :=
  ∃ more code, plan.Ends (t ++ more) code

theorem Plan.Ends.conforms {code : UInt32} (h : plan.Ends t code) : plan.Conforms t :=
  ⟨[], code, by rwa [List.append_nil]⟩

/-- A program that will end as a plan says conforms to the plan already. -/
theorem Plan.conforms_of_ensures {d : Program UInt32} (h : d.Ensures plan.Ends t) :
    plan.Conforms t := by
  induction d generalizing t with
  | done code => exact Plan.Ends.conforms h
  | ask c next ih =>
    have hreply : Nonempty (Answer c) := by
      cases c
      all_goals first | exact ⟨()⟩ | exact ⟨.error default⟩
    rcases hreply with ⟨reply⟩
    rcases ih reply (h reply) with ⟨more, code, hends⟩
    rw [List.append_assoc] at hends
    exact ⟨_, code, hends⟩

namespace Plan

variable {done tail : History} {r : Report} {code : UInt32}

/-- What is done before the report belongs to a stage, or undoes memory. -/
theorem Concludes.quiet (h : plan.Concludes done r tail code) (hx : x ∈ done) :
    (stageOf x.call).isSome = true ∨ ∃ start len, x = ⟨.unmap start len, ()⟩ := by
  cases h with
  | ready => exact .inl (stageOf_steps hx)
  | failed h =>
    rcases h with ⟨hstep, hcall, hfailure⟩
    rcases List.mem_append.1 hx with hearlier | hlast
    · exact .inl (stageOf_steps (List.mem_of_mem_take hearlier))
    · rcases List.mem_cons.1 hlast with rfl | hundo
      · rw [(failureOf_eq_some_iff.1 hfailure).1]
        exact .inl rfl
      · exact .inr (exists_unmap_of_undoOf hundo)

theorem Concludes.report_not_mem (h : plan.Concludes done r tail code) (r' : Report) :
    (⟨.report r', ()⟩ : Exchange) ∉ done := by
  intro hin
  rcases h.quiet hin with hstage | ⟨_, _, hunmap⟩
  · cases hstage
  · cases hunmap

theorem Concludes.stop_not_mem (h : plan.Concludes done r tail code) :
    (⟨.stop, ()⟩ : Exchange) ∉ done := by
  intro hin
  rcases h.quiet hin with hstage | ⟨_, _, hunmap⟩
  · cases hstage
  · cases hunmap

theorem FailsAt.stage_ne_ready (h : plan.FailsAt stage errno done) : stage ≠ .ready := by
  rcases h with ⟨_, _, hfailure⟩
  rintro rfl
  exact stageOf_ne_ready _ (failureOf_eq_some_iff.1 hfailure).1

theorem Concludes.eq_ready (h : plan.Concludes done r tail code)
    (hr : r.stage = Stage.ready.number) : r = .ready plan.codeLocation := by
  cases h with
  | ready => rfl
  | failed h => exact absurd (Stage.number_inj.1 hr) h.stage_ne_ready

theorem report_ne_stop (r : Report) : (⟨.report r, ()⟩ : Exchange) ≠ ⟨.stop, ()⟩ := by
  intro h
  cases h

/-- A report comes behind everything else, but for a stop. -/
theorem Conforms.reported (h : plan.Conforms t) (hr : ⟨.report r, ()⟩ ∈ t) :
    ∃ done tail code told, plan.Concludes done r tail code ∧
      bodyOf t = done ++ ⟨.report r, ()⟩ :: told ∧ told <+: tail := by
  rcases h with ⟨more, code, done, r', tail, hconcludes, hbody⟩
  rcases List.append_of_mem ((mem_bodyOf_iff rfl).2 hr) with ⟨before, told, hsplit⟩
  have hnottail : (⟨.report r, ()⟩ : Exchange) ∉ tail := by
    cases hconcludes with
    | ready =>
      rw [List.mem_singleton]
      exact report_ne_stop r
    | failed => exact List.not_mem_nil
  rw [bodyOf_append, hsplit, List.append_assoc, List.cons_append, eq_comm,
    List.append_cons_inj_of_notMem (hconcludes.report_not_mem r) hnottail] at hbody
  rcases hbody with ⟨rfl, hreport, htail⟩
  cases hreport
  exact ⟨done, tail, code, told, hconcludes, hsplit, bodyOf more, htail.symm⟩

/-- A process that stopped has made all steps, and reported that. -/
theorem Conforms.stopped (h : plan.Conforms t) (hstop : ⟨.stop, ()⟩ ∈ t) :
    bodyOf t = plan.steps ++ [⟨.report (.ready plan.codeLocation), ()⟩, ⟨.stop, ()⟩] := by
  rcases h with ⟨more, code, done, r, tail, hconcludes, hbody⟩
  rcases List.append_of_mem ((mem_bodyOf_iff rfl).2 hstop) with ⟨before, told, hsplit⟩
  have hearlier : (⟨.stop, ()⟩ : Exchange) ∉ done ++ [⟨.report r, ()⟩] := by
    rw [List.mem_append, List.mem_singleton]
    rintro (hdone | hreport)
    · exact hconcludes.stop_not_mem hdone
    · exact report_ne_stop r hreport.symm
  rw [bodyOf_append, hsplit, List.append_cons done] at hbody
  cases hconcludes with
  | ready =>
    rw [List.append_assoc, List.cons_append, eq_comm,
      List.append_cons_inj_of_notMem hearlier List.not_mem_nil] at hbody
    rcases hbody with ⟨rfl, -, hnothing⟩
    rw [hsplit, (List.append_eq_nil_iff.1 hnothing.symm).1, List.append_assoc]
    rfl
  | failed =>
    rw [List.append_nil] at hbody
    rw [← hbody] at hearlier
    exact absurd (by simp) hearlier

/-- In a history of a process that stopped nothing failed. -/
theorem Conforms.failureOf_of_stop (h : plan.Conforms t) (hstop : ⟨.stop, ()⟩ ∈ t) (hx : x ∈ t) :
    failureOf x = none := by
  rcases mem_bodyOf_or_stageOf hx with hin | hnone
  · rw [h.stopped hstop] at hin
    simp only [List.mem_append, List.mem_cons, List.not_mem_nil, or_false] at hin
    rcases hin with hstep | rfl | rfl
    · exact failureOf_steps hstep
    · rfl
    · rfl
  · exact failureOf_of_stageOf hnone

/-- Where a failure was reported, there was one. -/
theorem Conforms.exists_failure (h : plan.Conforms t) (hr : ⟨.report r, ()⟩ ∈ t)
    (hstage : r.stage ≠ Stage.ready.number) : ∃ x ∈ t, failureOf x ≠ none := by
  rcases h.reported hr with ⟨done, tail, code, told, hconcludes, hbody, _⟩
  cases hconcludes with
  | ready => exact absurd rfl hstage
  | failed hfails =>
    rcases hfails with ⟨_, _, hfailure⟩
    rename_i x _ _
    have hsome : failureOf x ≠ none := by
      rw [hfailure]
      exact Option.some_ne_none _
    refine ⟨x, ?_, hsome⟩
    rw [← mem_bodyOf_iff (isClosing_of_failureOf hsome), hbody]
    simp

/-- A step that failed is the last one, and the report tells it. -/
theorem Concludes.of_failure (h : plan.Concludes done r tail code)
    (hx : x ∈ done ++ ⟨.report r, ()⟩ :: tail) (hfailure : failureOf x = some (stage, errno)) :
    (∃ n, done = plan.steps.take n ++ x :: undoOf x) ∧ tail = [] ∧
      r = .failed stage errno ∧ code = stage.number := by
  have hsome : failureOf x ≠ none := by
    rw [hfailure]
    exact Option.some_ne_none _
  have hstep : x ∉ plan.steps := fun hin => hsome (failureOf_steps hin)
  have hother : stageOf x.call ≠ none := fun hnone => hsome (failureOf_of_stageOf hnone)
  cases h with
  | ready =>
    simp only [List.mem_append, List.mem_cons, List.not_mem_nil, or_false] at hx
    rcases hx with hin | rfl | rfl
    · exact absurd hin hstep
    · exact absurd rfl hother
    · exact absurd rfl hother
  | failed h =>
    rcases h with ⟨_, _, hfailure'⟩
    simp only [List.mem_append, List.mem_cons, List.not_mem_nil, or_false, or_assoc] at hx
    rcases hx with hearlier | rfl | hundo | rfl
    · exact absurd (List.mem_of_mem_take hearlier) hstep
    · rw [hfailure'] at hfailure
      cases hfailure
      exact ⟨⟨_, rfl⟩, rfl, rfl, rfl⟩
    · exact absurd (stageOf_of_undoOf hundo) hother
    · exact absurd rfl hother

theorem stageOf_of_aftermath {y : Exchange}
    (h : y ∈ undoOf x ++ [⟨.report r, ()⟩]) : stageOf y.call = none := by
  rcases List.mem_append.1 h with hundo | hreport
  · exact stageOf_of_undoOf hundo
  · rw [List.mem_singleton.1 hreport]
    rfl

/-- Before a step that failed come steps that succeeded, and behind it what it undoes and its report. -/
theorem Conforms.split_failure {before after : History} (h : plan.Conforms (before ++ x :: after))
    (hfailure : failureOf x = some (stage, errno)) :
    (∃ n, bodyOf before = plan.steps.take n) ∧
      bodyOf after <+: undoOf x ++ [⟨.report (.failed stage errno), ()⟩] := by
  rcases h with ⟨more, code, done, r, tail, hconcludes, hbody⟩
  have hopen : isClosing x.call = false := by
    refine isClosing_of_failureOf ?_
    rw [hfailure]
    exact Option.some_ne_none _
  have hsplit : bodyOf (before ++ x :: after) = bodyOf before ++ x :: bodyOf after := by
    rw [bodyOf_append, bodyOf, bodyOf, bodyOf, List.filter_cons_of_pos (by simp [hopen])]
  have hmem : x ∈ done ++ ⟨.report r, ()⟩ :: tail := by
    rw [← hbody, bodyOf_append, hsplit]
    simp
  rcases hconcludes.of_failure hmem hfailure with ⟨⟨n, rfl⟩, rfl, rfl, -⟩
  -- what succeeds stands before the step, and what belongs to no stage behind it
  have hearlier : x ∉ plan.steps.take n := by
    intro hin
    rw [failureOf_steps (List.mem_of_mem_take hin)] at hfailure
    cases hfailure
  have hlater : x ∉ undoOf x ++ [⟨.report (.failed stage errno), ()⟩] := by
    intro hin
    rw [failureOf_of_stageOf (stageOf_of_aftermath hin)] at hfailure
    cases hfailure
  rw [bodyOf_append, hsplit, List.append_assoc, List.cons_append, List.append_assoc, List.cons_append,
    eq_comm, List.append_cons_inj_of_notMem hearlier hlater] at hbody
  rcases hbody with ⟨hbefore, -, hafter⟩
  exact ⟨⟨n, hbefore.symm⟩, bodyOf more, hafter.symm⟩

/-- The step that failed is the first one that did, no step follows it, and the report tells it. -/
theorem Conforms.failed {before after : History} (h : plan.Conforms (before ++ x :: after))
    (hfailure : failureOf x = some (stage, errno)) :
    (∀ y ∈ before, failureOf y = none) ∧ (∀ y ∈ after, stageOf y.call = none) ∧
      ∀ r, ⟨.report r, ()⟩ ∈ before ++ x :: after → r = .failed stage errno := by
  rcases h.split_failure hfailure with ⟨⟨n, hbefore⟩, hafter⟩
  refine ⟨?_, ?_, ?_⟩
  · intro y hy
    rcases mem_bodyOf_or_stageOf hy with hin | hnone
    · rw [hbefore] at hin
      exact failureOf_steps (List.mem_of_mem_take hin)
    · exact failureOf_of_stageOf hnone
  · intro y hy
    rcases mem_bodyOf_or_stageOf hy with hin | hnone
    · exact stageOf_of_aftermath (hafter.subset hin)
    · exact hnone
  · intro r hr
    have hstageless : stageOf (.report r) = none := rfl
    rcases List.mem_append.1 hr with hin | hin
    · -- a report belongs to no stage, and all that stands before the step does
      rw [← mem_bodyOf_iff rfl, hbefore] at hin
      exact absurd (stageOf_steps (List.mem_of_mem_take hin)) (by simp [hstageless])
    rcases List.mem_cons.1 hin with rfl | hin
    · rw [failureOf_of_stageOf hstageless] at hfailure
      cases hfailure
    · rw [← mem_bodyOf_iff rfl] at hin
      rcases List.mem_append.1 (hafter.subset hin) with hundo | hlast
      · rcases exists_unmap_of_undoOf hundo with ⟨_, _, hunmap⟩
        cases hunmap
      · cases List.mem_singleton.1 hlast
        rfl

end Plan

end Setup

end Footprint
