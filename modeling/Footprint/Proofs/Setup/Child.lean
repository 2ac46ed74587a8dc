import Footprint.Proofs.Setup.Conformance
import Footprint.Stop

/-!
# The life of a fresh process

A fresh process makes the calls of its program, stops by itself or exits, and may be killed, which takes
effect at any moment from then on. Its end stays to be collected; a kernel may also collect it on its own
(`Child.Step`). What a kernel may answer is left open (`MayAnswer`). Of every process on its way
`Child.Sound` holds: its history is a part of a setup by its plan, it stopped only behind all steps, and it
exited only behind a report on the step that failed. So the bytes that it sent are one report at most
(`Sound.sent_eq`).
-/

namespace Footprint

namespace Setup

/-- What a kernel may answer: error numbers are words, and memory that is mapped ends within the address
space. -/
def MayAnswer : (c : Call) → Answer c → Prop
  | .closeRange _, .error errno => errno.IsWord
  | .dieWithParent, .error errno => errno.IsWord
  | .traceMe, .error errno => errno.IsWord
  | .map _ _ _, .error errno => errno.IsWord
  | .map _ len _, .ok mapped => UInt64.toNat mapped + UInt64.toNat len < UInt64.size
  | .protect _ _ _, .error errno => errno.IsWord
  | _, _ => True

/-- A step fails by an error number that is a word. -/
theorem isWord_of_failureOf {x : Exchange} {stage : Stage} {errno : Errno}
    (h : MayAnswer x.call x.reply) (hfailure : failureOf x = some (stage, errno)) : errno.IsWord := by
  have herrno := (failureOf_eq_some_iff.1 hfailure).2
  unfold errnoOf at herrno
  split at herrno
  case h_4 =>
    split at herrno
    · cases herrno
    · cases herrno
      decide
  case h_6 => cases herrno
  all_goals
    cases herrno
    exact h

/-- What a fresh process is doing. -/
inductive Life where
  | running (rest : Program UInt32)
  -- Stopped by itself, and whether that was told already.
  | stopped (told : Bool)
  -- Ended; the status is there to be collected.
  | ended (status : WaitStatus)
  | reaped (status : WaitStatus)

/-- A fresh process. -/
structure Child where
  history : History
  life : Life
  -- Whether it was killed.
  doomed : Bool

namespace Child

def fresh (plan : Plan) : Child :=
  ⟨[], .running (program plan), false⟩

/-- What a process does next, or what becomes of it. -/
inductive Step (pid : Pid) : Child → Child → Prop where
  | answer {t : History} {c : Call} {next : Answer c → Program UInt32} {doomed : Bool}
      (reply : Answer c) (hgoes : c ≠ .stop) (hreply : MayAnswer c reply) :
      Step pid ⟨t, .running (.ask c next), doomed⟩
        ⟨t ++ [⟨c, reply⟩], .running (next reply), doomed⟩
  | stop {t : History} {next : Unit → Program UInt32} {doomed : Bool} :
      Step pid ⟨t, .running (.ask .stop next), doomed⟩
        ⟨t ++ [⟨.stop, ()⟩], .stopped false, doomed⟩
  -- Of an exit code the lowest byte is told.
  | exit {t : History} {code : UInt32} {doomed : Bool} :
      Step pid ⟨t, .running (.done code), doomed⟩
        ⟨t, .ended (.exited pid (code.toNat % 256 : Nat)), doomed⟩
  | dieRunning {t : History} {rest : Program UInt32} (core : Bool) :
      Step pid ⟨t, .running rest, true⟩ ⟨t, .ended (.signaled pid .kill core), true⟩
  | dieStopped {t : History} {told : Bool} (core : Bool) :
      Step pid ⟨t, .stopped told, true⟩ ⟨t, .ended (.signaled pid .kill core), true⟩
  -- A kernel that is told to ignore the ends of processes collects them on its own.
  | forget {t : History} {status : WaitStatus} {doomed : Bool} :
      Step pid ⟨t, .ended status, doomed⟩ ⟨t, .reaped status, doomed⟩

/-- A history goes on at its end. -/
theorem Step.subset {pid : Pid} {c c' : Child} (h : Step pid c c') : c.history ⊆ c'.history := by
  cases h
  case answer => exact List.subset_append_left _ _
  case stop => exact List.subset_append_left _ _
  all_goals exact List.Subset.refl _

/-- Every process comes to rest. -/
theorem acc_step (pid : Pid) (c : Child) : Acc (fun c' c => Step pid c c') c := by
  have hreaped : ∀ t status doomed, Acc (fun c' c => Step pid c c') ⟨t, .reaped status, doomed⟩ := by
    intro t status doomed
    refine ⟨_, ?_⟩
    rintro _ ⟨⟩
  have hended : ∀ t status doomed, Acc (fun c' c => Step pid c c') ⟨t, .ended status, doomed⟩ := by
    intro t status doomed
    refine ⟨_, ?_⟩
    rintro _ ⟨⟩
    exact hreaped _ _ _
  have hstopped : ∀ t told doomed, Acc (fun c' c => Step pid c c') ⟨t, .stopped told, doomed⟩ := by
    intro t told doomed
    refine ⟨_, ?_⟩
    rintro _ ⟨⟩
    exact hended _ _ _
  rcases c with ⟨t, life, doomed⟩
  cases life with
  | running rest =>
    induction rest generalizing t with
    | done code =>
      refine ⟨_, ?_⟩
      rintro _ (_ | _)
      · exact hended _ _ _
      · exact hended _ _ _
    | ask c next ih =>
      refine ⟨_, ?_⟩
      intro c' hstep
      cases hstep with
      | answer reply => exact ih reply _
      | stop => exact hstopped _ _ _
      | dieRunning => exact hended _ _ _
  | stopped told => exact hstopped t told doomed
  | ended status => exact hended t status doomed
  | reaped status => exact hreaped t status doomed

/-- A process that runs goes on. -/
theorem exists_step_of_running (pid : Pid) (t : History) (rest : Program UInt32) (doomed : Bool) :
    ∃ c', Step pid ⟨t, .running rest, doomed⟩ c' := by
  cases rest with
  | done code => exact ⟨_, .exit⟩
  | ask c next =>
    by_cases hstop : c = .stop
    · subst hstop
      exact ⟨_, .stop⟩
    · have hreply : ∃ reply, MayAnswer c reply := by
        have hword : Errno.alreadyExists.IsWord := by decide
        cases c
        all_goals first | exact ⟨(), trivial⟩ | exact ⟨.error .alreadyExists, hword⟩
      rcases hreply with ⟨reply, hreply⟩
      exact ⟨_, .answer reply hstop hreply⟩

/-! ## What holds of a process on its way -/

/-- How a process ended: it exited as its plan says without having stopped, or it was killed. -/
inductive EndedBy (plan : Plan) (pid : Pid) (t : History) (doomed : Bool) : WaitStatus → Prop where
  | exit {code : UInt32} (h : plan.Ends t code) (hstop : ⟨.stop, ()⟩ ∉ t) :
      EndedBy plan pid t doomed (.exited pid (code.toNat % 256 : Nat))
  | kill (core : Bool) (h : doomed = true) : EndedBy plan pid t doomed (.signaled pid .kill core)

/-- What a process is doing fits to its history. -/
inductive Fits (plan : Plan) (pid : Pid) (t : History) (doomed : Bool) : Life → Prop where
  | running {rest : Program UInt32} (h : rest.Ensures plan.Ends t) (hstop : ⟨.stop, ()⟩ ∉ t) :
      Fits plan pid t doomed (.running rest)
  | stopped {told : Bool} (hstop : ⟨.stop, ()⟩ ∈ t) : Fits plan pid t doomed (.stopped told)
  | ended {status : WaitStatus} (h : EndedBy plan pid t doomed status) :
      Fits plan pid t doomed (.ended status)
  | reaped {status : WaitStatus} (h : EndedBy plan pid t doomed status) :
      Fits plan pid t doomed (.reaped status)

/-- What holds of a process on its way. -/
structure Sound (plan : Plan) (pid : Pid) (c : Child) : Prop where
  conforms : plan.Conforms c.history
  possible : ∀ x ∈ c.history, MayAnswer x.call x.reply
  fits : Fits plan pid c.history c.doomed c.life

variable {plan : Plan} {pid : Pid} {c c' : Child} {r : Report}

theorem sound_fresh (plan : Plan) (pid : Pid) : (fresh plan).Sound plan pid where
  conforms := Plan.conforms_of_ensures (ensures_program plan)
  possible := by simp [fresh]
  fits := .running (ensures_program plan) (by simp [fresh])

theorem Sound.step (h : c.Sound plan pid) (hstep : Step pid c c') : c'.Sound plan pid := by
  rcases h with ⟨hconforms, hpossible, hfits⟩
  cases hstep with
  | answer reply hgoes hreply =>
    rcases hfits with ⟨hrest, hstop⟩
    have hnext := hrest reply
    refine ⟨Plan.conforms_of_ensures hnext, ?_, .running hnext ?_⟩
    · intro x hx
      rcases List.mem_append.1 hx with hearlier | hlast
      · exact hpossible x hearlier
      · rw [List.mem_singleton.1 hlast]
        exact hreply
    · rw [List.mem_append, List.mem_singleton]
      rintro (hearlier | hlast)
      · exact hstop hearlier
      · exact hgoes (congrArg Dialogue.Exchange.call hlast).symm
  | stop =>
    rcases hfits with ⟨hrest, hstop⟩
    refine ⟨Plan.conforms_of_ensures (hrest ()), ?_, .stopped (by simp)⟩
    intro x hx
    rcases List.mem_append.1 hx with hearlier | hlast
    · exact hpossible x hearlier
    · rw [List.mem_singleton.1 hlast]
      trivial
  | exit =>
    rcases hfits with ⟨hrest, hstop⟩
    exact ⟨hconforms, hpossible, .ended (.exit hrest hstop)⟩
  | dieRunning core => exact ⟨hconforms, hpossible, .ended (.kill core rfl)⟩
  | dieStopped core => exact ⟨hconforms, hpossible, .ended (.kill core rfl)⟩
  | forget =>
    rcases hfits with _ | _ | hended
    exact ⟨hconforms, hpossible, .reaped hended⟩

/-! ## What a process sent -/

/-- The bytes that an exchange writes to the tracer. -/
def bytesOf (x : Exchange) : List UInt8 :=
  match x.call with
  | .report r => r.encode
  | _ => []

def sent (c : Child) : List UInt8 :=
  c.history.flatMap bytesOf

/-- The process will not write anything any more: it closed its end of the channel, by itself or by its
end. -/
def IsSilent (c : Child) : Prop :=
  (∃ r, ⟨.report r, ()⟩ ∈ c.history) ∨ ∃ status, c.life = .ended status ∨ c.life = .reaped status

theorem bytesOf_eq_nil {x : Exchange} (h : ∀ r, x ≠ ⟨.report r, ()⟩) : bytesOf x = [] := by
  rcases x with ⟨call, reply⟩
  cases call with
  | report r => exact absurd rfl (h r)
  | _ => rfl

theorem flatMap_bytesOf_eq_nil {t : History} (h : ∀ r, ⟨.report r, ()⟩ ∉ t) : t.flatMap bytesOf = [] := by
  rw [List.flatMap_eq_nil_iff]
  rintro x hx
  refine bytesOf_eq_nil ?_
  rintro r rfl
  exact h r hx

theorem flatMap_bytesOf_bodyOf (t : History) : (bodyOf t).flatMap bytesOf = t.flatMap bytesOf := by
  induction t with
  | nil => rfl
  | cons x rest ih =>
    cases hclosing : isClosing x.call with
    | true =>
      have hnothing : bytesOf x = [] := bytesOf_eq_nil (by rintro r rfl; cases hclosing)
      have hbody : bodyOf (x :: rest) = bodyOf rest := List.filter_cons_of_neg (by simp [hclosing])
      rw [hbody, ih, List.flatMap_cons, hnothing, List.nil_append]
    | false =>
      have hbody : bodyOf (x :: rest) = x :: bodyOf rest := List.filter_cons_of_pos (by simp [hclosing])
      rw [hbody, List.flatMap_cons, List.flatMap_cons, ih]

/-- What a process sent is the report that it made. -/
theorem Sound.sent_eq (h : c.Sound plan pid) (hr : ⟨.report r, ()⟩ ∈ c.history) :
    c.sent = r.encode := by
  rcases h.conforms.reported hr with ⟨done, tail, code, told, hconcludes, hbody, htold⟩
  have hdone := flatMap_bytesOf_eq_nil hconcludes.report_not_mem
  have hnothing : told.flatMap bytesOf = [] := by
    refine flatMap_bytesOf_eq_nil fun r' hr' => ?_
    have htail := htold.subset hr'
    cases hconcludes with
    | ready => exact Plan.report_ne_stop r' (List.mem_singleton.1 htail)
    | failed => cases htail
  rw [sent, ← flatMap_bytesOf_bodyOf, hbody, List.flatMap_append, List.flatMap_cons, hdone, hnothing]
  simp [bytesOf]

/-! ## What the report tells -/

/-- A process reports once. -/
theorem Sound.report_unique {r' : Report} (h : c.Sound plan pid) (hr : ⟨.report r, ()⟩ ∈ c.history)
    (hr' : ⟨.report r', ()⟩ ∈ c.history) : r = r' := by
  rw [← Report.decode_encode r, ← h.sent_eq hr, h.sent_eq hr', Report.decode_encode]

/-- A process that reports the last stage reports where its code is. -/
theorem Sound.eq_ready (h : c.Sound plan pid) (hr : ⟨.report r, ()⟩ ∈ c.history)
    (hstage : r.stage = Stage.ready.number) : r = .ready plan.codeLocation := by
  rcases h.conforms.reported hr with ⟨_, _, _, _, hconcludes, _⟩
  exact hconcludes.eq_ready hstage

/-- A process that stopped reported that all steps succeeded. -/
theorem Sound.ready_of_stop (h : c.Sound plan pid) (hstop : ⟨.stop, ()⟩ ∈ c.history) :
    ⟨.report (.ready plan.codeLocation), ()⟩ ∈ c.history := by
  rw [← mem_bodyOf_iff rfl, h.conforms.stopped hstop]
  simp

/-- A process that reports a failure does not stop. -/
theorem Sound.not_stop (h : c.Sound plan pid) (hr : ⟨.report r, ()⟩ ∈ c.history)
    (hstage : r.stage ≠ Stage.ready.number) : ⟨.stop, ()⟩ ∉ c.history := by
  intro hstop
  rw [h.report_unique hr (h.ready_of_stop hstop)] at hstage
  exact hstage rfl

/-- A process that ended unkilled reported a failure. -/
theorem EndedBy.exists_report {t : History} {status : WaitStatus} (h : EndedBy plan pid t false status) :
    ∃ r, ⟨.report r, ()⟩ ∈ t ∧ r.stage ≠ Stage.ready.number := by
  cases h with
  | kill core h => cases h
  | exit h hstop =>
    rcases h with ⟨done, r, tail, hconcludes, hbody⟩
    have hr : ⟨.report r, ()⟩ ∈ t := by
      rw [← mem_bodyOf_iff rfl, hbody]
      simp
    refine ⟨r, hr, ?_⟩
    cases hconcludes with
    | ready =>
      rw [← mem_bodyOf_iff rfl, hbody] at hstop
      exact absurd (by simp) hstop
    | failed h => exact fun hready => h.stage_ne_ready (Stage.number_inj.1 hready)

theorem EndedBy.isTerminal {t : History} {doomed : Bool} {status : WaitStatus}
    (h : EndedBy plan pid t doomed status) : status.isTerminal = true := by
  cases h
  all_goals rfl

theorem EndedBy.doom {t : History} {doomed : Bool} {status : WaitStatus}
    (h : EndedBy plan pid t doomed status) : EndedBy plan pid t true status := by
  cases h with
  | exit h hstop => exact .exit h hstop
  | kill core => exact .kill core rfl

/-- Killing a process does not change what it did. -/
theorem Sound.doom (h : c.Sound plan pid) : ({ c with doomed := true } : Child).Sound plan pid := by
  rcases c with ⟨t, life, doomed⟩
  rcases h with ⟨hconforms, hpossible, hfits⟩
  refine ⟨hconforms, hpossible, ?_⟩
  cases hfits with
  | running h hstop => exact .running h hstop
  | stopped hstop => exact .stopped hstop
  | ended h => exact .ended h.doom
  | reaped h => exact .reaped h.doom

end Child

end Setup

end Footprint
