import Footprint.Custody
import Footprint.Proofs.Tracing

/-!
# Collected ends

Once the end of a process was collected, its number may belong to another process, so the process must
not be signalled or waited for any more (`LeftAlone`). Whether a tracer keeps to that shows in its
exchanges with the kernel. This module says what a transcript tells about ends:

* `Living` — no end was collected so far;
* `Settled` — an end was collected, and its process was left alone since;
* `EndsInCall` — an end was collected by the wait for a system call that the process was made to run,
  where nobody takes note of it.
-/

namespace Footprint

namespace Kernel

/-! ## What an exchange tells -/

/-- The process whose end an exchange collects. -/
def endOf : Exchange → Option Pid
  | ⟨.wait pid, .ok status⟩ => if status.isTerminal then some pid else none
  | ⟨.poll pid, .ok status⟩ => if status.isTerminal then some pid else none
  | _ => none

/-- The process that an exchange signals or waits for. -/
def addressee : Exchange → Option Pid
  | ⟨.kill pid, _⟩ => some pid
  | ⟨.wait pid, _⟩ => some pid
  | ⟨.poll pid, _⟩ => some pid
  | _ => none

/-- No process is signalled or waited for behind its end. -/
def LeftAlone (t : Transcript) : Prop :=
  t.Pairwise fun x y => ∀ pid ∈ endOf x, pid ∉ addressee y

instance (t : Transcript) : Decidable (LeftAlone t) :=
  inferInstanceAs (Decidable (t.Pairwise fun x y => ∀ pid ∈ endOf x, pid ∉ addressee y))

/-- Whether a process still runs the system call that it was made to run. -/
def isCallingAfter (calling : Bool) : Exchange → Bool
  | ⟨.resume _ .freely, .ok _⟩ => true
  | ⟨.wait _, .error errno⟩ => calling && errno == .interrupted
  | _ => false

/-- Whether a process was last heard of when it was made to run a system call. -/
def isCalling (t : Transcript) : Bool :=
  t.foldl isCallingAfter false

/-- The end of a process was collected by the wait for a system call that it was made to run. -/
def EndsInCall (t : Transcript) : Prop :=
  ∃ before pid status after, t = before ++ ⟨.wait pid, .ok status⟩ :: after ∧
    status.isTerminal = true ∧ isCalling before = true

variable {t : Transcript} {x : Exchange} {pid : Pid} {status : WaitStatus}

@[simp]
theorem isCalling_concat (t : Transcript) (x : Exchange) :
    isCalling (t ++ [x]) = isCallingAfter (isCalling t) x := by
  simp [isCalling]

theorem leftAlone_concat_iff :
    LeftAlone (t ++ [x]) ↔ LeftAlone t ∧ ∀ y ∈ t, ∀ pid ∈ endOf y, pid ∉ addressee x := by
  simp [LeftAlone, List.pairwise_append]

theorem endsInCall_concat_iff :
    EndsInCall (t ++ [x]) ↔ EndsInCall t ∨ isCalling t = true ∧
      ∃ pid status, x = ⟨.wait pid, .ok status⟩ ∧ status.isTerminal = true := by
  constructor
  · rintro ⟨before, pid, status, after, heq, hterminal, hcalling⟩
    rcases List.eq_nil_or_concat after with rfl | ⟨after', last, rfl⟩
    · rcases List.append_inj' heq rfl with ⟨rfl, hlast⟩
      cases hlast
      exact .inr ⟨hcalling, pid, status, rfl, hterminal⟩
    · have hearlier : t ++ [x] = (before ++ ⟨.wait pid, .ok status⟩ :: after') ++ [last] := by
        simpa using heq
      rcases List.append_inj' hearlier rfl with ⟨rfl, _⟩
      exact .inl ⟨before, pid, status, after', rfl, hterminal, hcalling⟩
  · rintro (⟨before, pid, status, after, rfl, hterminal, hcalling⟩ |
      ⟨hcalling, pid, status, rfl, hterminal⟩)
    · exact ⟨before, pid, status, after ++ [x], by simp, hterminal, hcalling⟩
    · exact ⟨t, pid, status, [], rfl, hterminal, hcalling⟩

/-! ## Before an end was collected -/

/-- No end was collected. -/
def Living (t : Transcript) : Prop :=
  ∀ x ∈ t, endOf x = none

theorem living_nil : Living [] := by
  simp [Living]

theorem Living.concat (h : Living t) (hx : endOf x = none) : Living (t ++ [x]) := by
  intro y hy
  rcases List.mem_append.1 hy with hearlier | hlast
  · exact h y hearlier
  · rwa [List.mem_singleton.1 hlast]

theorem Living.leftAlone (h : Living t) : LeftAlone t := by
  refine List.Pairwise.imp_of_mem ?_ (List.pairwise_of_forall fun _ _ => trivial)
  intro x y hx _ _ pid hpid
  rw [h x hx] at hpid
  cases hpid

theorem Living.not_endsInCall (h : Living t) : ¬ EndsInCall t := by
  rintro ⟨before, pid, status, after, rfl, hterminal, _⟩
  have hnone := h ⟨.wait pid, .ok status⟩ (by simp)
  simp [endOf, hterminal] at hnone

/-- An end is heard of unless it is collected by the wait for a call. -/
theorem Living.heard_of_not_isCalling (h : Living t) (hcalling : isCalling t = false) :
    ¬ EndsInCall (t ++ [x]) := by
  rw [endsInCall_concat_iff]
  rintro (hearlier | ⟨hcalling', _⟩)
  · exact h.not_endsInCall hearlier
  · rw [hcalling] at hcalling'
    cases hcalling'

/-! ## Behind a collected end -/

/-- An end was collected that somebody took note of, and its process was left alone since. -/
structure Settled (t : Transcript) : Prop where
  leftAlone : LeftAlone t
  heard : ¬ EndsInCall t

/-- Nothing happens to the process of an end that was collected last. -/
theorem Living.settled (h : Living t) (hheard : ¬ EndsInCall (t ++ [x])) : Settled (t ++ [x]) where
  leftAlone := by
    refine leftAlone_concat_iff.2 ⟨h.leftAlone, ?_⟩
    intro y hy pid hpid
    rw [h y hy] at hpid
    cases hpid
  heard := hheard

/-- Whoever turns to no process keeps an end settled. -/
theorem Settled.concat (h : Settled t) (hx : addressee x = none) : Settled (t ++ [x]) where
  leftAlone := by
    refine leftAlone_concat_iff.2 ⟨h.leftAlone, ?_⟩
    simp [hx]
  heard := by
    rintro hin
    rcases endsInCall_concat_iff.1 hin with hearlier | ⟨_, pid, status, rfl, _⟩
    · exact h.heard hearlier
    · cases hx

/-- The end of a process was collected where nobody took note of it. -/
structure Unheard (pid : Pid) (t : Transcript) : Prop where
  inCall : EndsInCall t
  collected : ∃ x ∈ t, pid ∈ endOf x

/-- An end that a call waited for is not heard of. -/
theorem Unheard.of_wait (hcalling : isCalling t = true) (hterminal : status.isTerminal = true) :
    Unheard pid (t ++ [⟨.wait pid, .ok status⟩]) where
  inCall := endsInCall_concat_iff.2 (.inr ⟨hcalling, pid, status, rfl, hterminal⟩)
  collected := ⟨⟨.wait pid, .ok status⟩, by simp, by simp [endOf, hterminal]⟩

/-- An end was not heard of, and its process was turned to again. -/
structure Disturbed (t : Transcript) : Prop where
  inCall : EndsInCall t
  notLeftAlone : ¬ LeftAlone t

theorem Disturbed.concat (t : Transcript) (x : Exchange) (h : Disturbed t) : Disturbed (t ++ [x]) where
  inCall := endsInCall_concat_iff.2 (.inl h.inCall)
  notLeftAlone := fun hleft => h.notLeftAlone (leftAlone_concat_iff.1 hleft).1

/-- Whoever does not know of an end disturbs the process by the next signal. -/
theorem Unheard.disturbed (h : Unheard pid t) (hx : addressee x = some pid) : Disturbed (t ++ [x]) where
  inCall := endsInCall_concat_iff.2 (.inl h.inCall)
  notLeftAlone := by
    rcases h.collected with ⟨y, hy, hend⟩
    intro hleft
    exact (leftAlone_concat_iff.1 hleft).2 y hy pid hend hx

end Kernel

end Footprint
