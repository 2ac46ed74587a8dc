/-!
# Dialogues

A dialogue is a program that asks calls one after the other and goes on with their answers; what
answers it is left open. Running one against an answering function gives its result, so that the same
program can be run by a simulated kernel and be reasoned about for every kernel.
-/

namespace Footprint

/-- A program that asks calls of type `Call`, call `c` having answers of type `Answer c`. -/
inductive Dialogue (Call : Type) (Answer : Call → Type) (α : Type) where
  | done (result : α)
  | ask (call : Call) (next : Answer call → Dialogue Call Answer α)

namespace Dialogue

variable {Call : Type} {Answer : Call → Type} {α β σ : Type}

/-- One dialogue after the other. -/
def andThen : Dialogue Call Answer α → (α → Dialogue Call Answer β) → Dialogue Call Answer β
  | done a, f => f a
  | ask c next, f => ask c fun answer => (next answer).andThen f

instance : Monad (Dialogue Call Answer) where
  pure := done
  bind := andThen

def call (c : Call) : Dialogue Call Answer (Answer c) :=
  ask c done

/-- Runs a dialogue against something that answers from a state and changes it. -/
def run (answer : (c : Call) → σ → Answer c × σ) : Dialogue Call Answer α → σ → α × σ
  | done a, s => (a, s)
  | ask c next, s =>
    let (reply, s) := answer c s
    (next reply).run answer s

@[simp]
theorem run_pure (answer : (c : Call) → σ → Answer c × σ) (a : α) (s : σ) :
    (pure a : Dialogue Call Answer α).run answer s = (a, s) := rfl

@[simp]
theorem run_call (answer : (c : Call) → σ → Answer c × σ) (c : Call) (s : σ) :
    (call c : Dialogue Call Answer (Answer c)).run answer s = answer c s := rfl

/-- Running one dialogue after the other runs the second from the state the first left. -/
theorem run_bind (answer : (c : Call) → σ → Answer c × σ) (d : Dialogue Call Answer α)
    (f : α → Dialogue Call Answer β) (s : σ) :
    (d >>= f).run answer s = (f (d.run answer s).1).run answer (d.run answer s).2 := by
  induction d generalizing s with
  | done a => rfl
  | ask c next ih => exact ih (answer c s).1 (answer c s).2

end Dialogue

end Footprint
