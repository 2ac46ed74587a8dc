import Footprint.Proofs.Admission
import Footprint.Proofs.Supervision.Handling

/-!
# How a discovery goes about its process

The calls that mark the course of a discovery are few: the process is forked, its block is started by
resuming it up to its next system call, and it is killed. Everything else tends to the process. So what the
exchanges show at each stage (`Coming`, `Going`, `Unlaunched`) follows from which calls a part of the
discovery may make, whatever they are answered.
-/

namespace Footprint

open Kernel

/-! ## What exchanges tell -/

namespace Kernel

def isKill : Call → Bool
  | .kill _ => true
  | _ => false

/-- Only a block is resumed to run up to its next system call. -/
def isStart : Call → Bool
  | .resume _ how => how = .untilSystemCall
  | _ => false

/-- Calls that neither kill a process nor start its block. -/
def isTending (c : Call) : Bool :=
  !isKill c && !isStart c

def forkOf : Exchange → Option Pid
  | ⟨.fork _, .ok pid⟩ => some pid
  | _ => none

/-- The process that was forked. -/
def forkedIn (t : Transcript) : Option Pid :=
  t.findSome? forkOf

def starts : Exchange → Bool
  | ⟨.resume _ .untilSystemCall, .ok ()⟩ => true
  | _ => false

/-- Whether a block was started. -/
def isLaunched (t : Transcript) : Bool :=
  t.any starts

/-- Nothing was killed. -/
def Unkilled (t : Transcript) : Prop :=
  ∀ x ∈ t, isKill x.call = false

variable {t : Transcript} {x : Exchange} {pid : Pid}

theorem forkedIn_concat_of_some (h : forkedIn t = some pid) : forkedIn (t ++ [x]) = some pid := by
  simp [forkedIn, List.findSome?_append] at h ⊢
  simp [h]

theorem forkedIn_concat_of_none (h : forkedIn t = none) : forkedIn (t ++ [x]) = forkOf x := by
  unfold forkedIn at h ⊢
  rw [List.findSome?_append, h]
  cases hx : forkOf x
  all_goals simp [hx]

@[simp]
theorem isLaunched_concat : isLaunched (t ++ [x]) = (isLaunched t || starts x) := by
  simp [isLaunched]

theorem starts_of_not_isStart (h : isStart x.call = false) : starts x = false := by
  rcases x with ⟨c, reply⟩
  cases c with
  | resume pid how =>
    cases how with
    | untilSystemCall => cases h
    | freely => rfl
  | _ => rfl

theorem Unkilled.concat (h : Unkilled t) (hx : isKill x.call = false) : Unkilled (t ++ [x]) := by
  intro y hy
  rcases List.mem_append.1 hy with hearlier | hlast
  · exact h y hearlier
  · rwa [List.mem_singleton.1 hlast]

end Kernel

variable {α : Type} {phase : SandboxPhase} {t : Transcript} {pid : Pid} {layout : Layout} {run : Run}

/-! ## Before the block is started -/

/-- A process was forked, and its block was not started. -/
structure Unlaunched (pid : Pid) (t : Transcript) : Prop where
  forked : forkedIn t = some pid
  unlaunched : isLaunched t = false

theorem Unlaunched.concat {x : Exchange} (h : Unlaunched pid t) (hx : starts x = false) :
    Unlaunched pid (t ++ [x]) where
  forked := forkedIn_concat_of_some h.forked
  unlaunched := by simp [h.unlaunched, hx]

/-- A process that is being brought up: nothing was killed so far either. -/
structure Coming (pid : Pid) (t : Transcript) : Prop extends Unlaunched pid t where
  unkilled : Unkilled t

theorem Coming.concat {x : Exchange} (h : Coming pid t) (hkill : isKill x.call = false)
    (hstarts : starts x = false) : Coming pid (t ++ [x]) where
  toUnlaunched := h.toUnlaunched.concat hstarts
  unkilled := h.unkilled.concat hkill

theorem Coming.tend {x : Exchange} (h : Coming pid t) (hx : isTending x.call = true) :
    Coming pid (t ++ [x]) := by
  simp only [isTending, Bool.and_eq_true, Bool.not_eq_true'] at hx
  exact h.concat hx.1 (starts_of_not_isStart hx.2)

/-- Nothing was forked, started or killed. -/
structure Unforked (t : Transcript) : Prop where
  unforked : forkedIn t = none
  unlaunched : isLaunched t = false
  unkilled : Unkilled t

theorem Unforked.concat {x : Exchange} (h : Unforked t) (hfork : forkOf x = none)
    (hx : isTending x.call = true) : Unforked (t ++ [x]) := by
  simp only [isTending, Bool.and_eq_true, Bool.not_eq_true'] at hx
  exact {
    unforked := (forkedIn_concat_of_none h.unforked).trans hfork
    unlaunched := by simp [h.unlaunched, starts_of_not_isStart hx.2]
    unkilled := h.unkilled.concat hx.1 }

theorem Unforked.coming {x : Exchange} (h : Unforked t) (hfork : forkOf x = some pid)
    (hx : isTending x.call = true) : Coming pid (t ++ [x]) := by
  simp only [isTending, Bool.and_eq_true, Bool.not_eq_true'] at hx
  exact {
    forked := (forkedIn_concat_of_none h.unforked).trans hfork
    unlaunched := by simp [h.unlaunched, starts_of_not_isStart hx.2]
    unkilled := h.unkilled.concat hx.1 }

/-- A process whose block was started, nothing having been killed. -/
structure Going (pid : Pid) (t : Transcript) : Prop where
  forked : forkedIn t = some pid
  launched : isLaunched t = true
  unkilled : Unkilled t

theorem Going.concat {x : Exchange} (h : Going pid t) (hx : isKill x.call = false) :
    Going pid (t ++ [x]) where
  forked := forkedIn_concat_of_some h.forked
  launched := by simp [h.launched]
  unkilled := h.unkilled.concat hx

namespace Custody

theorem asks_collect (pid : Pid) (report : TeardownReport) (patience : Nat) :
    (collect pid report patience).Asks (isStart · = false) := by
  induction patience with
  | zero => trivial
  | succ patience ih =>
    refine (Dialogue.asks_call (by rfl)).bind ?_
    rintro (errno | status)
    · dsimp only
      split
      · exact ih
      split
      all_goals trivial
    · dsimp only
      split
      · trivial
      · exact ih

theorem asks_release (c : Custody) (patience : Nat) : (c.release patience).Asks (isStart · = false) := by
  have hkill (pid : Pid) : (killAndCollect pid patience).Asks (isStart · = false) := by
    refine (Dialogue.asks_call (by rfl)).bind ?_
    rintro (errno | _)
    · dsimp only
      split
      · exact asks_collect _ _ _
      · trivial
    · exact asks_collect _ _ _
  unfold release teardown
  split
  · cases c.pid with
    | none => trivial
    | some pid =>
      refine Dialogue.Asks.bind (Dialogue.Asks.bind (hkill pid) ?_) fun _ => trivial
      rintro (obstacle | report)
      all_goals trivial
  · trivial

/-- Giving custody up starts no block. -/
theorem ensures_release_unlaunched (c : Custody) (patience : Nat) (h : Unlaunched pid t) :
    (c.release patience).Ensures (fun t _ => Unlaunched pid t) t :=
  (c.asks_release patience).ensures (fun _ _ hx h => h.concat (starts_of_not_isStart hx)) h

end Custody

namespace Injector

open Tracing

variable {i : Injector}

theorem isTending_of_isInjecting {c : Call} (h : isInjecting c = true) : isTending c = true := by
  cases c with
  | readRegisters | writeRegisters | wait => rfl
  | resume pid how =>
    cases how with
    | freely => rfl
    | untilSystemCall => cases h
  | _ => cases h

theorem tends_invoke (number : UInt64) (args : Registers.Arguments) :
    Asks (isTending · = true) (i.invoke number args) :=
  (i.asks_invoke number args).mono fun _ => isTending_of_isInjecting

end Injector

namespace Sandbox

open Tracing

/-! ## Bringing a sandbox up -/

/-- A sandbox is spawned exactly if a process is forked. -/
theorem ensures_spawn_coming (code : Code) (config : Config) (host : Host) (h : Unforked t) :
    Tracing.Ensures (fun t s => ∃ pid, Coming pid t ∧ s = ⟨.of pid, s.layout⟩) (fun t _ => Unforked t)
      (spawn code config host) t := by
  unfold spawn
  cases hchecked : code.check config.maxCodeLen with
  | error cause => exact h
  | ok checked =>
    refine ensures_bind.2 ((ensures_plan hchecked h fun draw => h.concat rfl rfl).mono ?_
      fun _ _ h => h)
    rintro t layout ⟨h, _⟩
    refine ensures_bind.2 (ensures_attempt ?_)
    rintro (errno | reportTo)
    · exact h.concat rfl rfl
    have hopened := h.concat (x := ⟨.openReport, .ok reportTo⟩) rfl rfl
    refine ensures_bind.2 (ensures_attempt ?_)
    rintro (errno | pid)
    · exact hopened.concat rfl rfl
    · exact ⟨pid, hopened.coming rfl rfl, rfl⟩

theorem tends_readReady (pid : Pid) : Asks (isTending · = true) (readReady pid) := by
  refine Asks.bind ?_ fun report => ?_
  · refine (asks_lift (Dialogue.asks_call (by rfl))).bind fun bytes => ?_
    split
    all_goals trivial
  · split
    all_goals trivial

theorem tends_unmapAll (injector : Injector) (gaps : List Region) :
    Asks (isTending · = true) (unmapAll injector gaps) := by
  induction gaps with
  | nil => trivial
  | cons gap rest ih =>
    refine (injector.tends_invoke _ _).bind ?_
    rintro (errno | _)
    · trivial
    · exact ih

theorem tends_dropRseq (injector : Injector) (maps : List MapEntry) :
    Asks (isTending · = true) (dropRseq injector maps) := by
  have hread : Asks (isTending · = true) (readRseq injector.pid) := by
    refine (asks_lift (Dialogue.asks_call (by rfl))).bind ?_
    rintro (errno | rseq)
    · dsimp only
      split
      all_goals trivial
    · trivial
  refine hread.bind ?_
  rintro (_ | rseq)
  · exact (asks_attempt (Dialogue.asks_call (by rfl))).bind fun _ => trivial
  · dsimp only
    split
    · refine (injector.tends_invoke _ _).bind ?_
      rintro (errno | _)
      all_goals trivial
    · trivial

theorem tends_removeInherited (s : Sandbox .stopped) (patience : Nat) :
    Asks (isTending · = true) (s.removeInherited pid patience) := by
  have hmaps : Asks (isTending · = true) (readMaps pid) := by
    refine (asks_lift (Dialogue.asks_call (by rfl))).bind ?_
    rintro (errno | text)
    all_goals trivial
  refine hmaps.bind fun maps => ?_
  refine Asks.bind ((asks_ofChecked _).bind fun _ => trivial) fun injector => ?_
  refine (tends_dropRseq injector maps).bind fun kept => ?_
  exact (asks_ofChecked _).bind fun gaps => tends_unmapAll injector gaps

theorem tends_fillRegisters (s : Sandbox .scrubbed) (priming : Priming) :
    Asks (isTending · = true) (s.fillRegisters priming pid) :=
  (asks_attempt (Dialogue.asks_call (by rfl))).bind fun _ => asks_attempt (Dialogue.asks_call (by rfl))

/-- A step that fails gives custody up, and the block was not started. -/
theorem ensures_orRelease_unlaunched {s : Sandbox phase} {good : Transcript → α → Prop}
    {program : Tracing α} (patience : Nat)
    (h : Tracing.Ensures good (fun t _ => Unlaunched pid t) program t) :
    Tracing.Ensures good (fun t _ => Unlaunched pid t) (s.orRelease patience program) t := by
  refine ensures_bind.2 ((ensures_lift _).2 (Dialogue.Ensures.mono h ?_))
  rintro t (halt | a) h
  · refine ensures_bind.2 ((ensures_lift _).2 ((s.custody.ensures_release_unlaunched patience h).mono ?_))
    exact fun _ _ h => h
  · exact h

/-- Tending to a process leaves it coming. -/
theorem ensures_tending {s : Sandbox phase} {program : Tracing α} (patience : Nat)
    (htends : Asks (isTending · = true) program) (h : Coming pid t) :
    Tracing.Ensures (fun t _ => Coming pid t) (fun t _ => Unlaunched pid t)
      (s.orRelease patience program) t :=
  ensures_orRelease_unlaunched patience ((htends.ensures (fun _ _ hx h => h.tend hx) h).mono
    (fun _ _ h => h) fun _ _ h => h.toUnlaunched)

/-- A step that leaves the process coming, or fails before its block was started. -/
def Prepares {next : SandboxPhase} (pid : Pid) (layout : Layout) (program : Tracing (Sandbox next)) :
    Prop :=
  ∀ t, Coming pid t → Tracing.Ensures (fun t s => Coming pid t ∧ s = ⟨.of pid, layout⟩)
    (fun t _ => Unlaunched pid t) program t

theorem prepares_awaitStop (patience : Nat) :
    Prepares pid layout ((Sandbox.mk (.of pid) layout : Sandbox .forked).awaitStop patience) := by
  intro t h
  refine ensures_bind.2 ((ensures_pure pid).2 (ensures_bind.2
    ((ensures_tending patience (tends_readReady pid) h).mono ?_ fun _ _ h => h)))
  intro t report h
  have hwait : Asks (isTending · = true) (wait pid patience) :=
    asks_awaiting (Dialogue.asks_call (by rfl)) patience
  refine ensures_bind.2 ((ensures_tending patience hwait h).mono ?_ fun _ _ h => h)
  intro t status h
  dsimp only
  split
  · refine ensures_orRelease_unlaunched patience ?_
    have hoptions : Asks (isTending · = true) (setOptions pid) :=
      asks_attempt (Dialogue.asks_call (by rfl))
    refine ensures_bind.2 ((hoptions.ensures (fun _ _ hx h => Coming.tend h hx) h).mono ?_
      fun _ _ h => h.toUnlaunched)
    intro t _ h
    split
    · exact ⟨h, rfl⟩
    · exact h.toUnlaunched
  · refine ensures_bind.2 ((ensures_lift _).2
      ((Custody.ensures_release_unlaunched _ patience h.toUnlaunched).mono ?_))
    exact fun _ _ h => h

theorem prepares_scrub (wanted : Bool) (patience : Nat) :
    Prepares pid layout ((Sandbox.mk (.of pid) layout : Sandbox .stopped).scrub wanted patience) := by
  intro t h
  cases wanted with
  | false => exact ⟨h, rfl⟩
  | true =>
    refine ensures_bind.2 ((ensures_pure pid).2 (ensures_bind.2
      ((ensures_tending patience (tends_removeInherited _ patience) h).mono ?_ fun _ _ h => h)))
    exact fun _ _ h => ⟨h, rfl⟩

theorem prepares_prime (priming : Priming) (patience : Nat) :
    Prepares pid layout ((Sandbox.mk (.of pid) layout : Sandbox .scrubbed).prime priming patience) := by
  intro t h
  refine ensures_bind.2 ((ensures_pure pid).2 (ensures_bind.2
    ((ensures_tending patience (tends_fillRegisters _ priming) h).mono ?_ fun _ _ h => h)))
  exact fun _ _ h => ⟨h, rfl⟩

theorem ensures_start (patience : Nat) (h : Coming pid t) :
    Tracing.Ensures (fun t s => Going pid t ∧ s = ⟨.of pid, layout⟩) (fun t _ => Unlaunched pid t)
      ((Sandbox.mk (.of pid) layout : Sandbox .primed).start patience) t := by
  refine ensures_bind.2 ((ensures_pure pid).2 (ensures_bind.2
    (ensures_orRelease_unlaunched patience (ensures_resume ?_ fun errno => h.toUnlaunched.concat rfl))))
  exact ⟨⟨forkedIn_concat_of_some h.forked, by simp [starts], h.unkilled.concat rfl⟩, rfl⟩

/-- A sandbox is launched exactly if its block is started. -/
theorem ensures_launch (config : Config) (patience : Nat) (h : Coming pid t) :
    Tracing.Ensures (fun t s => Going pid t ∧ s = ⟨.of pid, layout⟩) (fun t _ => Unlaunched pid t)
      ((Sandbox.mk (.of pid) layout : Sandbox .forked).launch config patience) t := by
  refine ensures_bind.2 ((prepares_awaitStop patience t h).mono ?_ fun _ _ h => h)
  rintro t _ ⟨h, rfl⟩
  refine ensures_bind.2 ((prepares_scrub config.scrub patience t h).mono ?_ fun _ _ h => h)
  rintro t _ ⟨h, rfl⟩
  refine ensures_bind.2 ((prepares_prime config.priming patience t h).mono ?_ fun _ _ h => h)
  rintro t _ ⟨h, rfl⟩
  exact ensures_start patience h

end Sandbox

/-! ## Driving the block -/

namespace Supervisor

open Supervising

variable {s : Supervisor}

theorem isKill_of_isHandling {c : Call} (h : isHandling c = true) : isKill c = false := by
  cases c with
  | kill => cases h
  | _ => rfl

theorem asks_checkBounds : Asks (isKill · = false) s.checkBounds := by
  have htime : Asks (isKill · = false) (do
      let elapsed ← s.elapsed
      if s.wallLimit.nanos ≤ elapsed.nanos then
        endWith (·.expire .wallClock elapsed)) := by
    refine (asks_elapsed (by rfl)).bind fun elapsed => ?_
    split
    · exact asks_endWith _
    · exact asks_pure _
  refine (asks_ofQuestion (Dialogue.asks_call (by rfl))).bind ?_
  rintro (_ | _)
  · exact htime
  · have hcancel : Asks (isKill · = false) (endWith Monitor.cancel : Supervising PUnit) := asks_endWith _
    exact hcancel.bind fun _ => htime

/-- A drive kills nothing. -/
theorem asks_drive (turns : Nat) : Asks (isKill · = false) (s.drive turns) := by
  induction turns with
  | zero => exact asks_throw _
  | succ turns ih =>
    have hpoll : Tracing.Asks (isKill · = false) (Tracing.poll s.pid s.patience) :=
      (Tracing.asks_awaiting (Dialogue.asks_call (by rfl)) _).bind fun _ => trivial
    refine asks_checkBounds.bind fun _ => (asks_ofTracing hpoll).bind ?_
    rintro (_ | status)
    · exact ih
    · refine ((asks_handle status).mono fun _ => isKill_of_isHandling).bind ?_
      rintro (_ | _)
      · exact ih
      · exact asks_pure _

end Supervisor

end Footprint
