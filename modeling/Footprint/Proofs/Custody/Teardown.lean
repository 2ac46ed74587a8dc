import Footprint.Proofs.Custody.Ends
import Footprint.Sandbox

/-!
# What taking a process down does to its end

`InCustody` is what holds while somebody has custody of a process: either its end was not collected, or
it was noted, or it was collected where custody did not learn of it. Taking the process down settles
the first two cases with a report that tells the end, and disturbs the process in the third
(`ensures_teardown`).
-/

namespace Footprint

open Kernel

variable {t : Transcript} {pid : Pid}

/-! ## Custody -/

/-- Custody that knows of no end: there is none, or nobody took note of it. -/
def Held (pid : Pid) (t : Transcript) : Prop :=
  Living t ∨ Unheard pid t

/-- What custody knows, and what there is to know. -/
inductive InCustody (t : Transcript) : Custody → Prop where
  | held {pid : Pid} : Held pid t → InCustody t (.of pid)
  | noted {report : TeardownReport} :
      Settled t → report.reaped = true → InCustody t ⟨none, some report⟩

theorem reaped_withEnd {report : TeardownReport} {status : WaitStatus}
    (h : status.isTerminal = true) : (report.withEnd status).reaped = true := by
  cases status with
  | exited => rfl
  | signaled => rfl
  | _ => cases h

/-- A status that is passed on leaves custody in step, be it an end or not. -/
theorem InCustody.noteEnd {x : Exchange} {status : WaitStatus} (h : Living t)
    (hheard : ¬ EndsInCall (t ++ [x])) (hgoes : status.isTerminal = false → endOf x = none) :
    InCustody (t ++ [x]) ((Custody.of pid).noteEnd status).2 := by
  unfold Custody.noteEnd Custody.of
  cases hterminal : status.isTerminal with
  | true =>
    exact .noted (h.settled hheard) (reaped_withEnd hterminal)
  | false =>
    exact .held (.inl (h.concat (hgoes hterminal)))

namespace Custody

/-! ## Teardown -/

/-- What taking a process down comes to. -/
def TornDown (t : Transcript) : Except Obstacle TeardownReport → Prop
  | .ok report => Disturbed t ∨ Living t ∨ (Settled t ∧ report.reaped = true)
  | .error _ => Disturbed t ∨ Living t

theorem TornDown.of_disturbed (h : Disturbed t) (answer : Except Obstacle TeardownReport) :
    TornDown t answer := by
  cases answer
  all_goals exact .inl h

/-- The end of a killed process is collected at most once. -/
theorem ensures_collect {report : TeardownReport} (patience : Nat) (h : Living t)
    (hcalling : isCalling t = false) : (collect pid report patience).Ensures TornDown t := by
  induction patience generalizing t with
  | zero => exact .inr h
  | succ patience ih =>
    refine Dialogue.ensures_call_bind.2 ?_
    rintro (errno | status)
    · have hliving : Living (t ++ [⟨.wait pid, .error errno⟩]) := h.concat rfl
      have hquiet : isCalling (t ++ [⟨.wait pid, .error errno⟩]) = false := by
        simp [isCallingAfter, hcalling]
      dsimp only
      split
      · exact ih hliving hquiet
      split
      · exact .inr (.inl hliving)
      · exact .inr hliving
    · dsimp only
      split
      next hterminal =>
        exact .inr (.inr ⟨h.settled (h.heard_of_not_isCalling hcalling), reaped_withEnd hterminal⟩)
      next hgoes =>
        refine ih (h.concat ?_) ?_
        · simp [endOf, hgoes]
        · simp [isCallingAfter]

/-- Killing a process comes first, so whoever does not know of its end disturbs it. -/
theorem ensures_killAndCollect (patience : Nat) (h : Held pid t) :
    (killAndCollect pid patience).Ensures TornDown t := by
  refine Dialogue.ensures_call_bind.2 fun reply => ?_
  rcases h with hliving | hunheard
  · have hkilled : Living (t ++ [⟨.kill pid, reply⟩]) := hliving.concat rfl
    have hquiet : isCalling (t ++ [⟨.kill pid, reply⟩]) = false := by
      simp [isCallingAfter]
    rcases reply with errno | ⟨⟩
    · dsimp only
      split
      · exact ensures_collect patience hkilled hquiet
      · exact .inr hkilled
    · exact ensures_collect patience hkilled hquiet
  · have hdisturbed : Disturbed (t ++ [⟨.kill pid, reply⟩]) := hunheard.disturbed rfl
    exact (Dialogue.ensures_of_persistent Disturbed.concat _ hdisturbed).mono
      fun _ answer h => .of_disturbed h answer

/-- Taking a process down settles its end and tells it, unless its end was not heard of. -/
theorem ensures_teardown {c : Custody} (patience : Nat) (h : InCustody t c) :
    (c.teardown patience).Ensures (fun t answer => TornDown t answer.1) t := by
  cases h with
  | held h =>
    refine (Dialogue.ensures_bind _ _).2 ((ensures_killAndCollect patience h).mono ?_)
    rintro t (obstacle | report) h
    · exact h
    · exact h
  | noted hsettled hreaped =>
    exact .inr (.inr ⟨hsettled, hreaped⟩)

/-- What is left when custody was given up. -/
def Released (t : Transcript) : Prop :=
  Disturbed t ∨ Living t ∨ Settled t

theorem TornDown.released {answer : Except Obstacle TeardownReport} (h : TornDown t answer) :
    Released t := by
  cases answer with
  | ok report => exact h.imp id (Or.imp id And.left)
  | error obstacle => exact h.imp id Or.inl

theorem ensures_release {c : Custody} (patience : Nat) (h : InCustody t c) :
    (c.release patience).Ensures (fun t _ => Released t) t := by
  unfold release
  split
  · refine (Dialogue.ensures_bind _ _).2 ((ensures_teardown patience h).mono ?_)
    intro t answer htorn
    exact htorn.released
  next hnone =>
    cases h with
    | held => exact absurd rfl hnone
    | noted hsettled _ => exact .inr (.inr hsettled)

end Custody

end Footprint
