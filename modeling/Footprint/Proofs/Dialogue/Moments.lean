import Footprint.Proofs.Dialogue.Transcript

/-!
# Moments of a run

A transcript leaves out the states of the answering function. They can be told from it, since each
exchange leads from one state to the next: `behind` is the state that some exchanges lead to, and `moments`
puts to each exchange the states before and after it. A run leads to the state behind its transcript
(`run_snd`), and at each of its moments the answer is the one that the state before it gives
(`answered_transcript`).
-/

namespace Footprint

namespace Dialogue

variable {Call : Type} {Answer : Call → Type} {α σ : Type}

/-- An exchange between the state before and the state after it. -/
structure Moment (Call : Type) (Answer : Call → Type) (σ : Type) where
  exchange : Exchange Call Answer
  before : σ
  after : σ

variable (answer : (c : Call) → σ → Answer c × σ)

/-- The state that exchanges lead to. -/
def behind (s : σ) (t : List (Exchange Call Answer)) : σ :=
  t.foldl (fun s x => (answer x.call s).2) s

/-- The exchanges with the states that they lead through. -/
def moments : σ → List (Exchange Call Answer) → List (Moment Call Answer σ)
  | _, [] => []
  | s, x :: rest => ⟨x, s, (answer x.call s).2⟩ :: moments (answer x.call s).2 rest

variable {answer} {s : σ} {t u : List (Exchange Call Answer)}

@[simp]
theorem behind_nil (s : σ) : behind answer s [] = s := rfl

@[simp]
theorem behind_cons (s : σ) (x : Exchange Call Answer) (rest : List (Exchange Call Answer)) :
    behind answer s (x :: rest) = behind answer (answer x.call s).2 rest := rfl

@[simp]
theorem behind_append (s : σ) (t u : List (Exchange Call Answer)) :
    behind answer s (t ++ u) = behind answer (behind answer s t) u :=
  List.foldl_append

@[simp]
theorem moments_nil (s : σ) : moments answer s [] = [] := rfl

@[simp]
theorem moments_cons (s : σ) (x : Exchange Call Answer) (rest : List (Exchange Call Answer)) :
    moments answer s (x :: rest) =
      ⟨x, s, (answer x.call s).2⟩ :: moments answer (answer x.call s).2 rest := rfl

@[simp]
theorem moments_append (s : σ) (t u : List (Exchange Call Answer)) :
    moments answer s (t ++ u) = moments answer s t ++ moments answer (behind answer s t) u := by
  induction t generalizing s with
  | nil => rfl
  | cons x t ih => simp [ih]

theorem exchange_mem_of_mem_moments {m : Moment Call Answer σ} (h : m ∈ moments answer s t) :
    m.exchange ∈ t := by
  induction t generalizing s with
  | nil => cases h
  | cons x t ih =>
    rcases List.mem_cons.1 h with rfl | h
    · exact List.mem_cons_self
    · exact List.mem_cons_of_mem x (ih h)

/-- The moment of an exchange, wherever it stands. -/
theorem mem_moments_append_cons (s : σ) (t : List (Exchange Call Answer)) (x : Exchange Call Answer)
    (u : List (Exchange Call Answer)) :
    ⟨x, behind answer s t, (answer x.call (behind answer s t)).2⟩ ∈ moments answer s (t ++ x :: u) := by
  simp

/-- Where a call is not made there is no moment of it. -/
theorem notMem_moments_of_call {m : Moment Call Answer σ} (h : ∀ x ∈ t, x.call ≠ m.exchange.call) :
    m ∉ moments answer s t := fun hm => h m.exchange (exchange_mem_of_mem_moments hm) rfl

/-- Each exchange has the reply that is given in the state before it. -/
def Answered (answer : (c : Call) → σ → Answer c × σ) (s : σ) (t : List (Exchange Call Answer)) : Prop :=
  ∀ m ∈ moments answer s t, answer m.exchange.call m.before = (m.exchange.reply, m.after)

theorem answered_append_iff :
    Answered answer s (t ++ u) ↔ Answered answer s t ∧ Answered answer (behind answer s t) u := by
  simp [Answered, or_imp, forall_and]

theorem answered_cons_iff {x : Exchange Call Answer} :
    Answered answer s (x :: t) ↔ (answer x.call s).1 = x.reply ∧ Answered answer (answer x.call s).2 t := by
  simp [Answered, Prod.ext_iff]

/-! ## Runs -/

/-- A run leads to the state behind its transcript. -/
theorem run_snd (d : Dialogue Call Answer α) (s : σ) :
    (d.run answer s).2 = behind answer s (d.transcript answer s) := by
  induction d generalizing s with
  | done a => rfl
  | ask c next ih => exact ih (answer c s).1 (answer c s).2

theorem answered_transcript (d : Dialogue Call Answer α) (s : σ) :
    Answered answer s (d.transcript answer s) := by
  induction d generalizing s with
  | done a => simp [Answered, transcript]
  | ask c next ih => exact answered_cons_iff.2 ⟨rfl, ih (answer c s).1 (answer c s).2⟩

end Dialogue

end Footprint
