import Footprint.Proofs.Dialogue.Transcript

/-!
# States that a run passes through

`Ensures` speaks about every answering function at once, and only about what was asked and answered. Here
one answering function is given, and properties are about its states. `Passes` says that an invariant
holds behind every call of a run, and a postcondition at its end. A run may also close, by a call after
which nothing is claimed any longer. `Passes` follows the dialogue; `Passes.stateAfter` reads it back as
a statement on the state after the first `n` calls, and `Passes.of_run` as one on the end.
-/

namespace Footprint

namespace Dialogue

variable {Call : Type} {Answer : Call → Type} {α β σ : Type}

/-- The state after the first `n` calls of a run, or at its end if it has fewer. -/
def stateAfter (answer : (c : Call) → σ → Answer c × σ) : Dialogue Call Answer α → σ → Nat → σ
  | done _, s, _ => s
  | ask _ _, s, 0 => s
  | ask c next, s, n + 1 => (next (answer c s).1).stateAfter answer (answer c s).2 n

/-- Behind every call of the run `inv` holds, and at its end `post` of the result, unless a call that is
`closing` was made before. -/
def Passes (answer : (c : Call) → σ → Answer c × σ) (closing : Call → Prop) (inv : σ → Prop)
    (post : α → σ → Prop) : Dialogue Call Answer α → σ → Prop
  | done a, s => post a s
  | ask c next, s =>
    closing c ∨
      inv (answer c s).2 ∧ (next (answer c s).1).Passes answer closing inv post (answer c s).2

variable {answer : (c : Call) → σ → Answer c × σ} {closing : Call → Prop} {inv : σ → Prop} {s : σ}

@[simp]
theorem passes_pure {post : α → σ → Prop} (a : α) :
    (pure a : Dialogue Call Answer α).Passes answer closing inv post s ↔ post a s := Iff.rfl

theorem passes_call {c : Call} {post : Answer c → σ → Prop} :
    (call c : Dialogue Call Answer (Answer c)).Passes answer closing inv post s ↔
      closing c ∨ inv (answer c s).2 ∧ post (answer c s).1 (answer c s).2 := Iff.rfl

theorem passes_bind {post : β → σ → Prop} (d : Dialogue Call Answer α) (f : α → Dialogue Call Answer β) :
    (d >>= f).Passes answer closing inv post s ↔
      d.Passes answer closing inv (fun a s => (f a).Passes answer closing inv post s) s := by
  induction d generalizing s with
  | done a => exact Iff.rfl
  | ask c next ih => exact or_congr_right (and_congr_right fun _ => ih (answer c s).1)

theorem Passes.mono {inv' : σ → Prop} {post post' : α → σ → Prop} {d : Dialogue Call Answer α}
    (h : d.Passes answer closing inv post s) (hinv : ∀ s, inv s → inv' s)
    (hpost : ∀ a s, post a s → post' a s) : d.Passes answer closing inv' post' s := by
  induction d generalizing s with
  | done a => exact hpost a s h
  | ask c next ih => exact h.imp_right fun h => ⟨hinv _ h.1, ih (answer c s).1 h.2⟩

/-- Where nothing is claimed, every run passes. -/
theorem passes_trivial (d : Dialogue Call Answer α) :
    d.Passes answer closing (fun _ => True) (fun _ _ => True) s := by
  induction d generalizing s with
  | done a => trivial
  | ask c next ih => exact .inr ⟨trivial, ih (answer c s).1⟩

/-- What is shown of the end of a run that never closes holds of its result. -/
theorem Passes.of_run {post : α → σ → Prop} {d : Dialogue Call Answer α}
    (h : d.Passes answer (fun _ => False) inv post s) : post (d.run answer s).1 (d.run answer s).2 := by
  induction d generalizing s with
  | done a => exact h
  | ask c next ih =>
    rcases h with hclosing | ⟨-, hnext⟩
    · exact hclosing.elim
    · exact ih (answer c s).1 hnext

/-- As long as no closing call was made, the invariant holds. -/
theorem Passes.stateAfter {post : α → σ → Prop} {d : Dialogue Call Answer α}
    (h : d.Passes answer closing inv post s) (hs : inv s) (n : Nat)
    (hopen : ∀ x ∈ (d.transcript answer s).take n, ¬ closing x.call) :
    inv (d.stateAfter answer s n) := by
  induction d generalizing s n with
  | done a => exact hs
  | ask c next ih =>
    cases n with
    | zero => exact hs
    | succ n =>
      simp only [transcript, List.take_succ_cons, List.forall_mem_cons] at hopen
      rcases h with hclosing | ⟨hinv, hnext⟩
      · exact absurd hclosing hopen.1
      · exact ih (answer c s).1 hnext hinv n hopen.2

end Dialogue

end Footprint
