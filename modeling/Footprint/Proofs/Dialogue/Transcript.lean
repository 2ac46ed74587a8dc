import Footprint.Dialogue

/-!
# Transcripts of dialogues

What a dialogue did is the list of its calls with their answers. `Ensures` says that a property of the
transcript and the result holds whatever the answers are; it follows the dialogue from front to back,
so it is computed by its laws for `pure`, `bind` and single calls. `Ensures.of_run` brings such a
property back to the run against any particular answering function.
-/

namespace Footprint

namespace Dialogue

variable {Call : Type} {Answer : Call → Type} {α β σ : Type}

/-- A call with its answer. -/
structure Exchange (Call : Type) (Answer : Call → Type) where
  call : Call
  reply : Answer call

/-- The calls that a run makes, with their answers. -/
def transcript (answer : (c : Call) → σ → Answer c × σ) :
    Dialogue Call Answer α → σ → List (Exchange Call Answer)
  | done _, _ => []
  | ask c next, s => ⟨c, (answer c s).1⟩ :: (next (answer c s).1).transcript answer (answer c s).2

/-- Whatever the answers are, the dialogue ends with a result and, behind what was exchanged before it,
a transcript of which `post` holds. -/
def Ensures (post : List (Exchange Call Answer) → α → Prop) :
    Dialogue Call Answer α → List (Exchange Call Answer) → Prop
  | done a, t => post t a
  | ask c next, t => ∀ reply, (next reply).Ensures post (t ++ [⟨c, reply⟩])

variable {post : List (Exchange Call Answer) → α → Prop} {t : List (Exchange Call Answer)}

@[simp]
theorem ensures_pure (a : α) : (pure a : Dialogue Call Answer α).Ensures post t ↔ post t a := Iff.rfl

theorem ensures_bind {post : List (Exchange Call Answer) → β → Prop} (d : Dialogue Call Answer α)
    (f : α → Dialogue Call Answer β) :
    (d >>= f).Ensures post t ↔ d.Ensures (fun t a => (f a).Ensures post t) t := by
  induction d generalizing t with
  | done a => exact Iff.rfl
  | ask c next ih => exact forall_congr' fun reply => ih reply

theorem Ensures.mono {post' : List (Exchange Call Answer) → α → Prop} {d : Dialogue Call Answer α}
    (h : d.Ensures post t) (himp : ∀ t a, post t a → post' t a) : d.Ensures post' t := by
  induction d generalizing t with
  | done a => exact himp t a h
  | ask c next ih => exact fun reply => ih reply (h reply)

/-- What holds behind a call whatever its answer is. -/
theorem ensures_call_bind {post : List (Exchange Call Answer) → β → Prop} {c : Call}
    {f : Answer c → Dialogue Call Answer β} :
    (call c >>= f).Ensures post t ↔ ∀ reply, (f reply).Ensures post (t ++ [⟨c, reply⟩]) := Iff.rfl

theorem Ensures.and {post' : List (Exchange Call Answer) → α → Prop} {d : Dialogue Call Answer α}
    (h : d.Ensures post t) (h' : d.Ensures post' t) :
    d.Ensures (fun t a => post t a ∧ post' t a) t := by
  induction d generalizing t with
  | done a => exact ⟨h, h'⟩
  | ask c next ih => exact fun reply => ih reply (h reply) (h' reply)

/-- What no exchange can undo holds behind every dialogue. -/
theorem ensures_of_persistent {P : List (Exchange Call Answer) → Prop}
    (hP : ∀ t x, P t → P (t ++ [x])) (d : Dialogue Call Answer α) (h : P t) :
    d.Ensures (fun t _ => P t) t := by
  induction d generalizing t with
  | done a => exact h
  | ask c next ih => exact fun reply => ih reply (hP t _ h)

/-! ## Programs that may fail -/

section

variable {ε : Type}

/-- A failure ends the whole program. -/
theorem ensures_run_bind {post : List (Exchange Call Answer) → Except ε β → Prop}
    {program : ExceptT ε (Dialogue Call Answer) α} {f : α → ExceptT ε (Dialogue Call Answer) β} :
    (program >>= f).run.Ensures post t ↔
      program.run.Ensures
        (fun t result => match result with
          | .ok a => (f a).run.Ensures post t
          | .error e => post t (.error e)) t := by
  change Ensures post (program.run >>= _) t ↔ _
  rw [ensures_bind]
  constructor
  all_goals
    intro h
    refine h.mono ?_
    rintro t (e | a) h
    all_goals exact h

theorem ensures_run_lift {post : List (Exchange Call Answer) → Except ε α → Prop}
    {d : Dialogue Call Answer α} :
    (ExceptT.lift d : ExceptT ε (Dialogue Call Answer) α).run.Ensures post t ↔
      d.Ensures (fun t a => post t (.ok a)) t := by
  change Ensures post (d >>= fun a => pure (Except.ok a)) t ↔ _
  rw [ensures_bind]
  exact Iff.rfl

end

/-! ## Runs -/

/-- What holds whatever the answers are holds of each run. -/
theorem Ensures.of_run {d : Dialogue Call Answer α} (h : d.Ensures post t)
    (answer : (c : Call) → σ → Answer c × σ) (s : σ) :
    post (t ++ d.transcript answer s) (d.run answer s).1 := by
  induction d generalizing t s with
  | done a =>
    simpa [transcript, Ensures, run] using h
  | ask c next ih =>
    have hrest := ih (answer c s).1 (h (answer c s).1) (answer c s).2
    simpa [transcript, run] using hrest

end Dialogue

end Footprint
