import Mathlib.Logic.Relation
import Footprint.Proofs.Setup.Child

/-!
# A tracer beside a fresh process

A tracer runs its program while the process that it forked runs its own. Either may go first: the process
takes its steps, and a call of the tracer is answered as soon as the state of the process has an answer to
it (`Answers`). Until then the tracer waits. No run goes on for ever (`acc_step`).

`Safe` says of a tracer's program that it always comes to its end and that a postcondition holds there,
however the process goes on meanwhile. It follows the program, so it is computed by laws for `bind` and
single calls, and what it claims holds of every run (`Safe.of_reaches`).
-/

namespace Footprint

namespace Handshake

open Kernel

variable {α β : Type} {pid : Pid}

/-- What the calls of a tracer are answered from. -/
structure Scene where
  child : Setup.Child
  -- How many times a wait may still be interrupted.
  interruptions : Nat

/-- How calls about the process are answered. Reading a report takes until it is there as a whole or the
process writes no more, and waiting until there is a status to tell. A signal reaches every process whose
end was not collected yet. Whether options can be set is left open. -/
inductive Answers (pid : Pid) : Scene → (c : Call) → Answer c → Scene → Prop where
  | readReport {s : Scene} (h : Setup.Report.len ≤ s.child.sent.length ∨ s.child.IsSilent) :
      Answers pid s (.readReport pid) (s.child.sent.take Setup.Report.len) s
  | interrupt {child : Setup.Child} {n : Nat} :
      Answers pid ⟨child, n + 1⟩ (.wait pid) (.error .interrupted) ⟨child, n⟩
  | tellStop {t : Setup.History} {doomed : Bool} {n : Nat} :
      Answers pid ⟨⟨t, .stopped false, doomed⟩, n⟩ (.wait pid) (.ok (.stopped pid .stop))
        ⟨⟨t, .stopped true, doomed⟩, n⟩
  | reap {t : Setup.History} {status : WaitStatus} {doomed : Bool} {n : Nat} :
      Answers pid ⟨⟨t, .ended status, doomed⟩, n⟩ (.wait pid) (.ok status)
        ⟨⟨t, .reaped status, doomed⟩, n⟩
  | noChild {t : Setup.History} {status : WaitStatus} {doomed : Bool} {n : Nat} :
      Answers pid ⟨⟨t, .reaped status, doomed⟩, n⟩ (.wait pid) (.error .noChild)
        ⟨⟨t, .reaped status, doomed⟩, n⟩
  | kill {t : Setup.History} {life : Setup.Life} {doomed : Bool} {n : Nat}
      (h : ∀ status, life ≠ .reaped status) :
      Answers pid ⟨⟨t, life, doomed⟩, n⟩ (.kill pid) (.ok ()) ⟨⟨t, life, true⟩, n⟩
  | noProcess {t : Setup.History} {status : WaitStatus} {doomed : Bool} {n : Nat} :
      Answers pid ⟨⟨t, .reaped status, doomed⟩, n⟩ (.kill pid) (.error .noProcess)
        ⟨⟨t, .reaped status, doomed⟩, n⟩
  | traceOptions {s : Scene} (reply : Except Errno Unit) : Answers pid s (.traceOptions pid) reply s

namespace Scene

/-- The process takes a step. -/
def Goes (pid : Pid) (s s' : Scene) : Prop :=
  ∃ child, Setup.Child.Step pid s.child child ∧ s' = { s with child }

/-- The process takes some steps. -/
def Evolves (pid : Pid) : Scene → Scene → Prop :=
  Relation.ReflTransGen (Goes pid)

/-- A call will be answered: there is an answer, or the process has yet to take a step. -/
def Serves (pid : Pid) (s : Scene) (c : Call) : Prop :=
  (∃ s', s.Goes pid s') ∨ ∃ reply s', Answers pid s c reply s'

theorem acc_goes (pid : Pid) (s : Scene) : Acc (fun s' s => Goes pid s s') s := by
  rcases s with ⟨child, n⟩
  induction Setup.Child.acc_step pid child with
  | intro child _ ih =>
    refine ⟨_, ?_⟩
    rintro _ ⟨child', hstep, rfl⟩
    exact ih child' hstep

end Scene

/-- A property that no step of the process ends. -/
def Stable (pid : Pid) (P : Scene → Prop) : Prop :=
  ∀ s s', P s → s.Goes pid s' → P s'

/-- A property that neither a step of the process nor an answer to the tracer ends. -/
structure Persistent (pid : Pid) (P : Scene → Prop) : Prop where
  stable : Stable pid P
  answer : ∀ s c reply s', P s → Answers pid s c reply s' → P s'

theorem Stable.evolves {P : Scene → Prop} (h : Stable pid P) {s s' : Scene} (hs : P s)
    (hgoes : s.Evolves pid s') : P s' := by
  induction hgoes with
  | refl => exact hs
  | tail _ hstep ih => exact h _ _ ih hstep

theorem Stable.and {P Q : Scene → Prop} (hP : Stable pid P) (hQ : Stable pid Q) :
    Stable pid fun s => P s ∧ Q s :=
  fun s s' h hgoes => ⟨hP s s' h.1 hgoes, hQ s s' h.2 hgoes⟩

theorem stable_const (P : Prop) : Stable pid fun _ => P :=
  fun _ _ h _ => h

/-! ## Runs -/

/-- A tracer on its way. -/
structure State (α : Type) where
  tracer : Program α
  scene : Scene

inductive Step (pid : Pid) : State α → State α → Prop where
  | child {p : Program α} {s s' : Scene} (h : s.Goes pid s') : Step pid ⟨p, s⟩ ⟨p, s'⟩
  | tracer {c : Call} {next : Answer c → Program α} {reply : Answer c} {s s' : Scene}
      (h : Answers pid s c reply s') : Step pid ⟨.ask c next, s⟩ ⟨next reply, s'⟩

def Reaches (pid : Pid) : State α → State α → Prop :=
  Relation.ReflTransGen (Step pid)

/-- A process that is answered by a function runs to its exit, unless it stops. -/
theorem reaches_run {σ : Type} {p : Program α} (answer : (c : Setup.Call) → σ → Setup.Answer c × σ)
    (d : Setup.Program UInt32) (k : σ) (t : Setup.History) (doomed : Bool) (n : Nat)
    (h : ∀ x ∈ d.transcript answer k, x.call ≠ .stop ∧ Setup.MayAnswer x.call x.reply) :
    Reaches pid ⟨p, ⟨⟨t, .running d, doomed⟩, n⟩⟩
      ⟨p, ⟨⟨t ++ d.transcript answer k, .running (.done (d.run answer k).1), doomed⟩, n⟩⟩ := by
  induction d generalizing k t with
  | done code =>
    simp only [Dialogue.transcript, List.append_nil]
    exact .refl
  | ask c next ih =>
    simp only [Dialogue.transcript, List.forall_mem_cons] at h
    have hstep : Step pid (State.mk p ⟨⟨t, .running (.ask c next), doomed⟩, n⟩)
        ⟨p, ⟨⟨t ++ [⟨c, (answer c k).1⟩], .running (next (answer c k).1), doomed⟩, n⟩⟩ :=
      .child ⟨_, .answer _ h.1.1 h.1.2, rfl⟩
    have hrest := ih (answer c k).1 (answer c k).2 (t ++ [⟨c, (answer c k).1⟩]) h.2
    rw [List.append_assoc] at hrest
    exact .head hstep hrest

/-- No run goes on for ever: the tracer gets on in its program, and in between the process does. -/
theorem acc_step (pid : Pid) (p : Program α) (s : Scene) :
    Acc (fun h' h => Step pid h h') (State.mk p s) := by
  induction p generalizing s with
  | done a =>
    induction Scene.acc_goes pid s with
    | intro s _ ih =>
      refine ⟨_, ?_⟩
      rintro _ ⟨hgoes⟩
      exact ih _ hgoes
  | ask c next ihnext =>
    induction Scene.acc_goes pid s with
    | intro s _ ih =>
      refine ⟨_, ?_⟩
      intro h' hstep
      cases hstep with
      | child hgoes => exact ih _ hgoes
      | tracer => exact ihnext _ _

/-! ## Programs that come to their end -/

/-- However the process goes on, the program is never left waiting for ever, and `post` holds of its
result from then on. -/
def Safe (pid : Pid) (post : α → Scene → Prop) : Program α → Scene → Prop
  | .done a, s => ∀ s', s.Evolves pid s' → post a s'
  | .ask c next, s => ∀ s', s.Evolves pid s' →
      s'.Serves pid c ∧ ∀ reply s'', Answers pid s' c reply s'' → Safe pid post (next reply) s''

variable {post : α → Scene → Prop} {p : Program α} {s s' : Scene}

theorem Safe.evolves (h : Safe pid post p s) (hgoes : s.Evolves pid s') : Safe pid post p s' := by
  cases p with
  | done a => exact fun s'' hgoes' => h s'' (hgoes.trans hgoes')
  | ask c next => exact fun s'' hgoes' => h s'' (hgoes.trans hgoes')

theorem Safe.mono {post' : α → Scene → Prop} (h : Safe pid post p s)
    (himp : ∀ a s, post a s → post' a s) : Safe pid post' p s := by
  induction p generalizing s with
  | done a => exact fun s' hgoes => himp a s' (h s' hgoes)
  | ask c next ih =>
    intro s' hgoes
    rcases h s' hgoes with ⟨hserves, hnext⟩
    exact ⟨hserves, fun reply s'' hanswer => ih reply (hnext reply s'' hanswer)⟩

theorem safe_pure {a : α} (hstable : Stable pid (post a)) (h : post a s) :
    Safe pid post (pure a) s :=
  fun _ hgoes => hstable.evolves h hgoes

/-- A program goes on from wherever the first part of it came to. -/
theorem safe_bind {post : β → Scene → Prop} {f : α → Program β}
    (h : Safe pid (fun a s => Safe pid post (f a) s) p s) : Safe pid post (p >>= f) s := by
  induction p generalizing s with
  | done a => exact h s .refl
  | ask c next ih =>
    intro s' hgoes
    rcases h s' hgoes with ⟨hserves, hnext⟩
    exact ⟨hserves, fun reply s'' hanswer => ih reply (hnext reply s'' hanswer)⟩

/-- A call in states of some kind, in which the process stays until it is answered. -/
theorem safe_ask {I : Scene → Prop} {c : Call} {f : Answer c → Program α} (hI : Stable pid I)
    (hs : I s) (hserves : ∀ s, I s → s.Serves pid c)
    (hanswer : ∀ s reply s', I s → Answers pid s c reply s' → Safe pid post (f reply) s') :
    Safe pid post (ask c >>= f) s := by
  intro s' hgoes
  have hs' := hI.evolves hs hgoes
  exact ⟨hserves s' hs', fun reply s'' h => hanswer s' reply s'' hs' h⟩

/-- What nothing ends still holds at the end of a program. -/
theorem Safe.and_persistent {P : Scene → Prop} (h : Safe pid post p s) (hP : Persistent pid P)
    (hs : P s) : Safe pid (fun a s => post a s ∧ P s) p s := by
  induction p generalizing s with
  | done a => exact fun s' hgoes => ⟨h s' hgoes, hP.stable.evolves hs hgoes⟩
  | ask c next ih =>
    intro s' hgoes
    rcases h s' hgoes with ⟨hserves, hnext⟩
    refine ⟨hserves, fun reply s'' hanswer => ?_⟩
    exact ih reply (hnext reply s'' hanswer)
      (hP.answer s' c reply s'' (hP.stable.evolves hs hgoes) hanswer)

/-! ## Programs that may halt -/

/-- A result of which `good` holds, or a halt of which `bad` holds. -/
def Outcome {ε : Type} (good : α → Scene → Prop) (bad : ε → Scene → Prop) : Except ε α → Scene → Prop
  | .ok a, s => good a s
  | .error e, s => bad e s

section

variable {ε : Type} {good : α → Scene → Prop} {bad : ε → Scene → Prop}

theorem stable_outcome (hgood : ∀ a, Stable pid (good a)) (hbad : ∀ e, Stable pid (bad e))
    (result : Except ε α) : Stable pid (Outcome good bad result) := by
  cases result with
  | ok a => exact hgood a
  | error e => exact hbad e

/-- A halt ends the whole program. -/
theorem safe_run_bind {good' : β → Scene → Prop} {program : ExceptT ε Program α}
    {f : α → ExceptT ε Program β} (hbad : ∀ e, Stable pid (bad e))
    (h : Safe pid (Outcome good bad) program.run s)
    (hf : ∀ a s, good a s → Safe pid (Outcome good' bad) (f a).run s) :
    Safe pid (Outcome good' bad) (program >>= f).run s := by
  change Safe pid _ (program.run >>= _) s
  refine safe_bind (h.mono ?_)
  rintro (e | a) s h
  · exact safe_pure (hbad e) h
  · exact hf a s h

/-- Of a program that does not halt anything may be claimed for halts. -/
theorem Safe.of_unhalting {p : Program (Except ε α)} (h : Safe pid (Outcome good fun _ _ => False) p s) :
    Safe pid (Outcome good bad) p s := by
  refine h.mono ?_
  rintro (e | a) s h
  · exact h.elim
  · exact h

theorem safe_run_lift (hgood : ∀ a, Stable pid (good a)) (h : Safe pid good p s) :
    Safe pid (Outcome good bad) (ExceptT.lift p : ExceptT ε Program α).run s :=
  safe_bind (h.mono fun a _ h => safe_pure (hgood a) h)

/-- A call of a program that may halt. -/
theorem safe_run_ask {post : Except ε α → Scene → Prop} {I : Scene → Prop} {c : Call}
    {f : Answer c → ExceptT ε Program α} (hI : Stable pid I) (hs : I s)
    (hserves : ∀ s, I s → s.Serves pid c)
    (hanswer : ∀ s reply s', I s → Answers pid s c reply s' → Safe pid post (f reply).run s') :
    Safe pid post (ExceptT.lift (ask c) >>= f).run s :=
  safe_ask hI hs hserves hanswer

end

/-! ## What holds of runs -/

theorem Safe.step {h h' : State α} (hsafe : Safe pid post h.tracer h.scene) (hstep : Step pid h h') :
    Safe pid post h'.tracer h'.scene := by
  cases hstep with
  | child hgoes => exact hsafe.evolves (.single hgoes)
  | tracer hanswer => exact (hsafe _ .refl).2 _ _ hanswer

theorem Safe.of_reaches {h h' : State α} (hsafe : Safe pid post h.tracer h.scene)
    (hreaches : Reaches pid h h') : Safe pid post h'.tracer h'.scene := by
  induction hreaches with
  | refl => exact hsafe
  | tail _ hstep ih => exact ih.step hstep

/-- A run that cannot go on has come to the end of the program. -/
theorem Safe.isDone_or_step {h : State α} (hsafe : Safe pid post h.tracer h.scene) :
    (∃ a, h.tracer = .done a) ∨ ∃ h', Step pid h h' := by
  rcases h with ⟨p, s⟩
  cases p with
  | done a => exact .inl ⟨a, rfl⟩
  | ask c next =>
    rcases (hsafe s .refl).1 with ⟨s', hgoes⟩ | ⟨reply, s', hanswer⟩
    · exact .inr ⟨_, .child hgoes⟩
    · exact .inr ⟨_, .tracer hanswer⟩

theorem Safe.of_done {h : State α} {a : α} (hsafe : Safe pid post h.tracer h.scene)
    (hdone : h.tracer = .done a) : post a h.scene := by
  rw [hdone] at hsafe
  exact hsafe _ .refl

end Handshake

end Footprint
