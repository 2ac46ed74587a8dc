import Footprint.Proofs.Dialogue.Moments
import Footprint.Proofs.Injection.Course
import Footprint.Proofs.Scrub.Standstill
import Footprint.Proofs.Supervision.Patience

/-!
# Injected system calls do not show in the process

A system call that is run in a stopped process borrows its registers. What the process does with them
while it runs is up to it; a kernel is only asked to read and write the registers of the process as it is
told (`KeepsRegisters`). Then the call finds the registers that it needs and, once it comes back, leaves
all of them as they were (`Transparent`, `transparent_invoke`). What comes back is the value in one
register, the last 4095 values of which are errors (`SystemCall.Means`).

The courses of a call say what is exchanged; the registers at each moment follow from them exchange by
exchange.
-/

namespace Footprint

open Kernel

/-! ## The value that a system call returns -/

namespace Kernel.SystemCall

variable {raw value : UInt64} {errno : Errno}

theorem toInt_toInt64 (raw : UInt64) :
    raw.toInt64.toInt = if raw.toNat < 2 ^ 63 then (raw.toNat : Int) else raw.toNat - 2 ^ 64 := by
  change raw.toBitVec.toInt = _
  rw [BitVec.toInt_eq_toNat_cond]
  have hword : raw.toBitVec.toNat = raw.toNat := rfl
  rw [hword]
  split
  all_goals split
  all_goals omega

/-- The last values are the small negative numbers. -/
theorem isError_iff : 0xfffffffffffff001 ≤ raw ↔ -4095 ≤ raw.toInt64.toInt ∧ raw.toInt64.toInt < 0 := by
  have hbound := raw.toNat_lt
  rw [UInt64.le_iff_toNat_le, toInt_toInt64, UInt64.toNat_ofNat_of_lt (by decide)]
  split
  all_goals omega

theorem code_errnoOf (h : raw.toInt64.toInt < 0) : (errnoOf raw).code = -raw.toInt64.toInt := by
  have hbound := raw.toNat_lt
  rw [toInt_toInt64] at h ⊢
  change ((UInt64.size - raw.toNat : Nat) : Int) = _
  simp only [UInt64.size]
  split at h
  all_goals omega

/-- An error stands for its negated number. -/
theorem outcome_eq_error_iff :
    outcome raw = .error errno ↔ 1 ≤ errno.code ∧ errno.code ≤ 4095 ∧ raw.toInt64.toInt = -errno.code := by
  unfold outcome
  by_cases herror : 0xfffffffffffff001 ≤ raw
  · rcases isError_iff.1 herror with ⟨hlow, hneg⟩
    have hcode := code_errnoOf hneg
    rw [if_pos herror]
    constructor
    · intro h
      obtain rfl := Except.error.inj h
      omega
    · rintro ⟨-, -, hraw⟩
      have hsame : (errnoOf raw).code = errno.code := by omega
      cases errno
      exact congrArg (Except.error ∘ Errno.mk) hsame
  · rw [if_neg herror]
    constructor
    · intro h
      cases h
    · rintro ⟨hpos, hsmall, hraw⟩
      exact absurd (isError_iff.2 ⟨by omega, by omega⟩) herror

/-- Any other value is returned as it is. -/
theorem outcome_eq_ok_iff :
    outcome raw = .ok value ↔ value = raw ∧ ¬ (-4095 ≤ raw.toInt64.toInt ∧ raw.toInt64.toInt < 0) := by
  rw [← isError_iff]
  unfold outcome
  split
  next herror => simp [herror]
  next hfine => simp [hfine, eq_comm]

/-- The outcome that a returned value stands for when it is read as a signed number: the last 4095 values
are errors. -/
structure Means (raw : UInt64) (outcome : Except Errno UInt64) : Prop where
  error_iff : ∀ errno, outcome = .error errno ↔
    1 ≤ errno.code ∧ errno.code ≤ 4095 ∧ raw.toInt64.toInt = -errno.code
  ok_iff : ∀ value, outcome = .ok value ↔
    value = raw ∧ ¬ ∃ e : Int, 1 ≤ e ∧ e ≤ 4095 ∧ raw.toInt64.toInt = -e

theorem means_outcome (raw : UInt64) : Means raw (outcome raw) where
  error_iff _ := outcome_eq_error_iff
  ok_iff value := by
    rw [outcome_eq_ok_iff]
    refine and_congr_right fun _ => not_congr ⟨fun h => ⟨-raw.toInt64.toInt, ?_⟩, ?_⟩
    · omega
    · rintro ⟨e, he⟩
      omega

end Kernel.SystemCall

/-! ## The registers of a system call -/

namespace Registers

/-- The register file `call` runs system call `number` from the stub, and has everything else from
`saved`. -/
structure LoadedFrom (call saved : Registers) (stub : Addr) (number : UInt64) (args : Arguments) :
    Prop where
  rip : call.rip = stub
  rax : call.rax = number
  arguments : [call.rdi, call.rsi, call.rdx, call.r10, call.r8, call.r9] =
    [args.first, args.second, args.third, args.fourth, args.fifth, args.sixth]
  origRax : call.origRax.toNat = 2 ^ 64 - 1
  others : { call with
    rip := saved.rip, rax := saved.rax, rdi := saved.rdi, rsi := saved.rsi, rdx := saved.rdx,
    r10 := saved.r10, r8 := saved.r8, r9 := saved.r9, origRax := saved.origRax } = saved

theorem loadedFrom_forSystemCall (saved : Registers) (stub : Addr) (number : UInt64) (args : Arguments) :
    (saved.forSystemCall stub number args).LoadedFrom saved stub number args := by
  constructor
  all_goals rfl

end Registers

namespace Injector

variable {σ : Type} {kernel : (c : Call) → σ → Answer c × σ} {registers : σ → Registers} {k : σ}
  {i : Injector} {number : UInt64} {args : Registers.Arguments} {t : Transcript}
  {m : Dialogue.Moment Call Answer σ} {result : Except Halt (Except Errno UInt64)}

/-! ## Registers along the way -/

/-- A kernel that tells the registers of a process as they are, and replaces them by those that are
written. What becomes of them when the process runs is left open. -/
structure KeepsRegisters (kernel : (c : Call) → σ → Answer c × σ) (pid : Pid) (registers : σ → Registers) :
    Prop where
  reads : ∀ k told, (kernel (.readRegisters pid) k).1 = .ok told → told = registers k
  writes : ∀ k written, (kernel (.writeRegisters pid written) k).1 = .ok () →
    registers (kernel (.writeRegisters pid written) k).2 = written

/-- The exchange is the wait that told of a trap. -/
def IsTrap (i : Injector) (x : Exchange) : Prop :=
  ∃ p, x = ⟨.wait i.pid, .ok (.stopped p .trap)⟩

/-- What is made of a trap by the registers that the process has then. -/
theorem LooksAt.of_stopped {x : Exchange} {awaited : Except Halt Registers}
    (hk : KeepsRegisters kernel i.pid registers) (h : LooksAt i number x awaited)
    (hanswered : Dialogue.Answered kernel k [x]) :
    (∃ errno, x = ⟨.readRegisters i.pid, .error errno⟩ ∧ awaited = .error (refusal .readRegisters errno)) ∨
    (¬ i.Reached (registers k) ∧
      ∃ halt, Strays i number (registers k).rip halt ∧ awaited = .error halt) ∨
    (i.Reached (registers k) ∧ awaited = .ok (registers k)) := by
  have hreply := (Dialogue.answered_cons_iff.1 hanswered).1
  cases h with
  | unread => exact .inl ⟨_, rfl, rfl⟩
  | stray haway hstrays =>
    obtain rfl := hk.reads k _ hreply
    exact .inr (.inl ⟨haway, _, hstrays, rfl⟩)
  | reached hreached =>
    obtain rfl := hk.reads k _ hreply
    exact .inr (.inr ⟨hreached, rfl⟩)

/-- Statuses are reported by the last wait only. -/
theorem AwaitsStub.of_wait {awaited : Except Halt Registers} {status : WaitStatus}
    (h : AwaitsStub i number t awaited) (hm : m ∈ Dialogue.moments kernel k t)
    (hstatus : m.exchange = ⟨.wait i.pid, .ok status⟩) :
    ((∀ p, status ≠ .stopped p .trap) ∧
      awaited = .error (.failed (.setup (.stubSilent number status)))) ∨
    ∃ look, (∃ p, status = .stopped p .trap) ∧ look ∈ t ∧ LooksAt i number look awaited ∧
      (Dialogue.Answered kernel k t → Dialogue.Answered kernel m.after [look]) := by
  have hearlier {waits : Transcript} {k : σ} (hwaits : ∀ x ∈ waits, Interrupted i.pid x) :
      m ∉ Dialogue.moments kernel k waits := by
    intro hm
    have hinterrupted := hwaits _ (Dialogue.exchange_mem_of_mem_moments hm)
    rw [hstatus] at hinterrupted
    cases hinterrupted
  cases h with
  | impatient hwaits => exact absurd hm (hearlier hwaits)
  | refused hwaits =>
    obtain rfl : m = _ := by simpa [hearlier hwaits] using hm
    cases hstatus
  | silent hwaits hother =>
    obtain rfl : m = _ := by simpa [hearlier hwaits] using hm
    cases hstatus
    exact .inl ⟨hother, rfl⟩
  | @trapped waits p look awaited hwaits hlook =>
    rw [Dialogue.moments_append] at hm
    rcases List.mem_append.1 hm with hm | hm
    · exact absurd hm (hearlier hwaits)
    rcases List.mem_cons.1 hm with rfl | hm
    · cases hstatus
      refine .inr ⟨look, ⟨p, rfl⟩, by simp, hlook, fun hanswered => ?_⟩
      exact (Dialogue.answered_cons_iff.1 (Dialogue.answered_append_iff.1 hanswered).2).2
    · obtain rfl := List.mem_singleton.1 hm
      cases hlook with
      | unread | stray | reached => cases hstatus

/-- A status is reported only while the stub runs. -/
theorem Invokes.of_wait {status : WaitStatus} (h : Invokes i number args t result)
    (hm : m ∈ Dialogue.moments kernel k t) (hstatus : m.exchange = ⟨.wait i.pid, .ok status⟩) :
    ∃ saved waiting awaited closing, t = i.starting number args saved (.ok ()) ++ (waiting ++ closing) ∧
      m ∈ Dialogue.moments kernel
        (Dialogue.behind kernel k (i.starting number args saved (.ok ()))) waiting ∧
      AwaitsStub i number waiting awaited ∧ Restores i saved awaited closing result := by
  have hcall : m.exchange.call = .wait i.pid := by rw [hstatus]
  cases h with
  | unread | unloaded | unresumed =>
    exact absurd hm (Dialogue.notMem_moments_of_call (by simp [starting, hcall]))
  | @ran saved waiting closing awaited _ hwaiting hclosing =>
    refine ⟨saved, waiting, awaited, closing, rfl, ?_, hwaiting, hclosing⟩
    rw [Dialogue.moments_append, Dialogue.moments_append] at hm
    rcases List.mem_append.1 hm with hm | hm
    · exact absurd hm (Dialogue.notMem_moments_of_call (by simp [starting, hcall]))
    rcases List.mem_append.1 hm with hm | hm
    · exact hm
    · cases hclosing with
      | lost => cases hm
      | refused | restored => exact absurd hm (Dialogue.notMem_moments_of_call (by simp [hcall]))

/-- What is made of a trap of the process that runs its stub. -/
theorem Invokes.of_trap (hk : KeepsRegisters kernel i.pid registers) (h : Invokes i number args t result)
    (hanswered : Dialogue.Answered kernel k t) (hm : m ∈ Dialogue.moments kernel k t)
    (htrap : i.IsTrap m.exchange) :
    (∃ errno, ⟨.readRegisters i.pid, .error errno⟩ ∈ t ∧ result = .error (refusal .readRegisters errno)) ∨
    (¬ i.Reached (registers m.after) ∧
      ∃ halt, Strays i number (registers m.after).rip halt ∧ result = .error halt) ∨
    (i.Reached (registers m.after) ∧
      ((∃ saved errno, ⟨.writeRegisters i.pid saved, .error errno⟩ ∈ t ∧
          result = .error (refusal .writeRegisters errno)) ∨
        result = .ok (SystemCall.outcome (registers m.after).rax))) := by
  rcases htrap with ⟨p, hstatus⟩
  rcases h.of_wait hm hstatus with ⟨saved, waiting, awaited, closing, rfl, hm, hwaiting, hclosing⟩
  rcases Dialogue.answered_append_iff.1 hanswered with ⟨-, hanswered⟩
  rcases hwaiting.of_wait hm hstatus with ⟨hother, -⟩ | ⟨look, -, hmem, hlook, hlooked⟩
  · exact absurd rfl (hother p)
  rcases hlook.of_stopped hk (hlooked (Dialogue.answered_append_iff.1 hanswered).1) with
    ⟨errno, rfl, rfl⟩ | ⟨haway, halt, hstrays, rfl⟩ | ⟨hreached, rfl⟩
  · cases hclosing
    exact .inl ⟨errno, by simpa using .inr hmem, rfl⟩
  · cases hclosing
    exact .inr (.inl ⟨haway, halt, hstrays, rfl⟩)
  · refine .inr (.inr ⟨hreached, ?_⟩)
    cases hclosing with
    | refused => exact .inl ⟨saved, _, by simp, rfl⟩
    | restored => exact .inr rfl

/-- Nothing is resumed while the stub is awaited. -/
theorem AwaitsStub.call_ne_resume {awaited : Except Halt Registers} (h : AwaitsStub i number t awaited)
    (how : Resumption) : ∀ x ∈ t, x.call ≠ .resume i.pid how := by
  have hwait {x : Exchange} (hx : Interrupted i.pid x) : x.call ≠ .resume i.pid how := by
    rw [hx]
    simp
  cases h with
  | impatient hwaits => exact fun x hx => hwait (hwaits x hx)
  | refused hwaits | silent hwaits =>
    simpa [or_imp, forall_and] using fun x hx => hwait (hwaits x hx)
  | trapped hwaits hlook =>
    cases hlook with
    | unread | stray | reached => simpa [or_imp, forall_and] using fun x hx => hwait (hwaits x hx)

/-- A process is started with the registers that it had, loaded with the call. -/
theorem loadedFrom_of_starting {saved : Registers} {reply : Except Errno Unit} {how : Resumption}
    (hk : KeepsRegisters kernel i.pid registers)
    (hanswered : Dialogue.Answered kernel k (i.starting number args saved reply))
    (hm : m ∈ Dialogue.moments kernel k (i.starting number args saved reply))
    (hcall : m.exchange.call = .resume i.pid how) :
    (registers m.before).LoadedFrom (registers k) i.stub number args := by
  rcases Dialogue.answered_cons_iff.1 hanswered with ⟨hread, hanswered⟩
  rcases Dialogue.answered_cons_iff.1 hanswered with ⟨hwrite, -⟩
  obtain rfl := hk.reads k saved hread
  have hloaded := hk.writes _ _ hwrite
  rcases List.mem_cons.1 hm with rfl | hm
  · cases hcall
  rcases List.mem_cons.1 hm with rfl | hm
  · cases hcall
  obtain rfl := List.mem_singleton.1 hm
  dsimp only
  rw [hloaded]
  exact Registers.loadedFrom_forSystemCall (registers k) i.stub number args

/-- A stub that was reached trapped behind its system call, and its registers were read then. -/
theorem AwaitsStub.of_ok {stopped : Registers} (hk : KeepsRegisters kernel i.pid registers)
    (h : AwaitsStub i number t (.ok stopped)) (hanswered : Dialogue.Answered kernel k t) :
    ∃ m ∈ Dialogue.moments kernel k t, i.IsTrap m.exchange ∧ i.Reached (registers m.after) ∧
      stopped = registers m.after := by
  cases h with
  | @trapped waits p look _ hwaits hlook =>
    rcases Dialogue.answered_append_iff.1 hanswered with ⟨-, hanswered⟩
    rcases Dialogue.answered_cons_iff.1 hanswered with ⟨-, hanswered⟩
    cases hlook with
    | reached hreached =>
      obtain rfl := hk.reads _ _ (Dialogue.answered_cons_iff.1 hanswered).1
      exact ⟨_, Dialogue.mem_moments_append_cons k waits _ _, ⟨p, rfl⟩, hreached, rfl⟩

/-- A call that comes back has put the process back. -/
theorem Invokes.of_ok {outcome : Except Errno UInt64} (h : Invokes i number args t (.ok outcome)) :
    ∃ saved stopped waiting,
      t = i.starting number args saved (.ok ()) ++ (waiting ++ [⟨.writeRegisters i.pid saved, .ok ()⟩]) ∧
      AwaitsStub i number waiting (.ok stopped) ∧ outcome = SystemCall.outcome stopped.rax := by
  cases h with
  | ran hwaiting hclosing =>
    cases hclosing with
    | restored => exact ⟨_, _, _, rfl, hwaiting, rfl⟩

/-! ## Transparency -/

/-- A request about registers or to resume was refused. -/
def IsRefused : Exchange → Prop
  | ⟨.readRegisters _, .error _⟩ => True
  | ⟨.writeRegisters .., .error _⟩ => True
  | ⟨.resume .., .error _⟩ => True
  | _ => False

/-- What holds of a system call that is run in a process from state `k` of the kernel to state `k'`. -/
structure Transparent (kernel : (c : Call) → σ → Answer c × σ) (i : Injector) (registers : σ → Registers)
    (number : UInt64) (args : Registers.Arguments) (k : σ) (t : Transcript)
    (result : Except Halt (Except Errno UInt64)) (k' : σ) : Prop where
  -- The process runs with the registers that it had, apart from those that make the call.
  loaded : ∀ m ∈ Dialogue.moments kernel k t, ∀ how, m.exchange.call = .resume i.pid how →
    (registers m.before).LoadedFrom (registers k) i.stub number args
  -- A call that comes back was run.
  ran : ∀ outcome, result = .ok outcome →
    ∃ m ∈ Dialogue.moments kernel k t, m.exchange = ⟨.resume i.pid .freely, .ok ()⟩
  -- Behind it the process has all registers that it had.
  restored : ∀ outcome, result = .ok outcome → registers k' = registers k
  -- What comes back is what the stub left when it trapped behind its system call.
  returned : ∀ outcome, result = .ok outcome → ∃ m ∈ Dialogue.moments kernel k t, i.IsTrap m.exchange ∧
    i.Reached (registers m.after) ∧ SystemCall.Means (registers m.after).rax outcome
  -- Any other stop is a failure that names it.
  silent : ∀ m ∈ Dialogue.moments kernel k t, ∀ status, m.exchange = ⟨.wait i.pid, .ok status⟩ →
    (∀ p, status ≠ .stopped p .trap) → result = .error (.failed (.setup (.stubSilent number status)))
  -- A trap elsewhere is a failure that tells where it was, if that can be told.
  stray : ∀ m ∈ Dialogue.moments kernel k t, i.IsTrap m.exchange → ¬ i.Reached (registers m.after) →
    (∃ errno, result = .error (refusal .readRegisters errno)) ∨
      ∃ halt, Strays i number (registers m.after).rip halt ∧ result = .error halt
  -- A call whose stub trapped behind its system call comes back, unless a request is refused.
  answered : ∀ m ∈ Dialogue.moments kernel k t, i.IsTrap m.exchange → i.Reached (registers m.after) →
    (∀ x ∈ t, ¬ IsRefused x) → ∃ outcome, result = .ok outcome
  -- A call that does not come back was refused a request, or its process did not stop where it should.
  failed : ∀ halt, result = .error halt → (∃ x ∈ t, IsRefused x) ∨
    (∃ errno, ⟨.wait i.pid, .error errno⟩ ∈ t ∧ halt = refusal .awaitStop errno) ∨
    (halt = .impatient ∧ Weary i.patience t) ∨
    ∃ m ∈ Dialogue.moments kernel k t, ∃ status, m.exchange = ⟨.wait i.pid, .ok status⟩ ∧
      (i.IsTrap m.exchange → ¬ i.Reached (registers m.after))

/-- A wait that comes to nothing was refused or was told of another stop, unless it was given up. -/
theorem AwaitsStub.of_error {halt : Halt} (hk : KeepsRegisters kernel i.pid registers)
    (h : AwaitsStub i number t (.error halt)) (hanswered : Dialogue.Answered kernel k t) :
    (∃ x ∈ t, IsRefused x) ∨ (∃ errno, ⟨.wait i.pid, .error errno⟩ ∈ t ∧ halt = refusal .awaitStop errno) ∨
    halt = .impatient ∨
    ∃ m ∈ Dialogue.moments kernel k t, ∃ status, m.exchange = ⟨.wait i.pid, .ok status⟩ ∧
      (i.IsTrap m.exchange → ¬ i.Reached (registers m.after)) := by
  cases h with
  | impatient => exact .inr (.inr (.inl rfl))
  | refused => exact .inr (.inl ⟨_, by simp, rfl⟩)
  | @silent waits status hwaits hother =>
    refine .inr (.inr (.inr ⟨_, Dialogue.mem_moments_append_cons k waits _ [], status, rfl, ?_⟩))
    rintro ⟨p, htrap⟩
    cases htrap
    exact absurd rfl (hother p)
  | @trapped waits p look _ hwaits hlook =>
    rcases Dialogue.answered_append_iff.1 hanswered with ⟨-, hanswered⟩
    rcases Dialogue.answered_cons_iff.1 hanswered with ⟨-, hanswered⟩
    rcases hlook.of_stopped hk hanswered with ⟨errno, rfl, -⟩ | ⟨haway, -⟩ | ⟨-, hok⟩
    · exact .inl ⟨⟨.readRegisters i.pid, .error errno⟩, by simp, trivial⟩
    · exact .inr (.inr (.inr
        ⟨_, Dialogue.mem_moments_append_cons k waits _ [look], _, rfl, fun _ => haway⟩))
    · cases hok

theorem Invokes.transparent (hk : KeepsRegisters kernel i.pid registers) (h : Invokes i number args t result)
    (hanswered : Dialogue.Answered kernel k t) (hpatient : result = .error .impatient → Weary i.patience t) :
    Transparent kernel i registers number args k t result (Dialogue.behind kernel k t) := by
  constructor
  case loaded =>
    intro m hm how hcall
    cases h with
    | unread | unloaded => exact absurd hm (Dialogue.notMem_moments_of_call (by simp [hcall]))
    | unresumed => exact loadedFrom_of_starting hk hanswered hm hcall
    | ran hwaiting hclosing =>
      rw [Dialogue.moments_append, Dialogue.moments_append] at hm
      rcases List.mem_append.1 hm with hm | hm
      · exact loadedFrom_of_starting hk (Dialogue.answered_append_iff.1 hanswered).1 hm hcall
      rcases List.mem_append.1 hm with hm | hm
      · exact absurd hm (Dialogue.notMem_moments_of_call (hcall ▸ hwaiting.call_ne_resume how))
      · cases hclosing with
        | lost => cases hm
        | refused | restored => exact absurd hm (Dialogue.notMem_moments_of_call (by simp [hcall]))
  case ran =>
    rintro outcome rfl
    rcases h.of_ok with ⟨saved, stopped, waiting, rfl, -, -⟩
    rw [Dialogue.moments_append]
    exact ⟨_, List.mem_append_left _ (.tail _ (.tail _ (.head _))), rfl⟩
  case restored =>
    rintro outcome rfl
    rcases h.of_ok with ⟨saved, stopped, waiting, rfl, -, -⟩
    rcases Dialogue.answered_append_iff.1 hanswered with ⟨hstart, hanswered⟩
    rcases Dialogue.answered_append_iff.1 hanswered with ⟨-, hwrite⟩
    have hsaved := hk.reads k saved (Dialogue.answered_cons_iff.1 hstart).1
    have hback := hk.writes _ saved (Dialogue.answered_cons_iff.1 hwrite).1
    simpa [← hsaved] using hback
  case returned =>
    rintro outcome rfl
    rcases h.of_ok with ⟨saved, stopped, waiting, rfl, hwaiting, rfl⟩
    rcases Dialogue.answered_append_iff.1 hanswered with ⟨-, hanswered⟩
    rcases hwaiting.of_ok hk (Dialogue.answered_append_iff.1 hanswered).1 with ⟨m, hm, htrap, hreached, rfl⟩
    refine ⟨m, ?_, htrap, hreached, SystemCall.means_outcome _⟩
    simp [hm]
  case silent =>
    intro m hm status hstatus hother
    rcases h.of_wait hm hstatus with ⟨saved, waiting, awaited, closing, rfl, hm, hwaiting, hclosing⟩
    rcases hwaiting.of_wait hm hstatus with ⟨-, rfl⟩ | ⟨look, ⟨p, rfl⟩, -⟩
    · cases hclosing
      rfl
    · exact absurd rfl (hother p)
  case stray =>
    intro m hm htrap haway
    rcases h.of_trap hk hanswered hm htrap with ⟨errno, -, rfl⟩ | ⟨-, halt, hstrays, rfl⟩ | ⟨hreached, -⟩
    · exact .inl ⟨errno, rfl⟩
    · exact .inr ⟨halt, hstrays, rfl⟩
    · exact absurd hreached haway
  case answered =>
    intro m hm htrap hreached hgranted
    rcases h.of_trap hk hanswered hm htrap with ⟨errno, hrefused, -⟩ | ⟨haway, -⟩ | ⟨-, hended⟩
    · exact absurd trivial (hgranted _ hrefused)
    · exact absurd hreached haway
    rcases hended with ⟨saved, errno, hrefused, -⟩ | rfl
    · exact absurd trivial (hgranted _ hrefused)
    · exact ⟨_, rfl⟩
  case failed =>
    rintro halt rfl
    cases h with
    | @unread errno => exact .inl ⟨⟨.readRegisters i.pid, .error errno⟩, by simp, trivial⟩
    | @unloaded saved errno =>
      exact .inl ⟨⟨.writeRegisters i.pid (saved.forSystemCall i.stub number args), .error errno⟩, by simp,
        trivial⟩
    | @unresumed saved errno =>
      exact .inl ⟨⟨.resume i.pid .freely, .error errno⟩, by simp [starting], trivial⟩
    | @ran saved waiting closing awaited _ hwaiting hclosing =>
      cases hclosing with
      | @refused stopped errno =>
        exact .inl ⟨⟨.writeRegisters i.pid saved, .error errno⟩, by simp, trivial⟩
      | lost =>
        rcases Dialogue.answered_append_iff.1 hanswered with ⟨-, hanswered⟩
        rcases hwaiting.of_error hk (Dialogue.answered_append_iff.1 hanswered).1 with
          ⟨x, hx, hrefused⟩ | ⟨errno, hx, rfl⟩ | rfl | ⟨m, hm, hstopped⟩
        · exact .inl ⟨x, by simp [hx], hrefused⟩
        · exact .inr (.inl ⟨errno, by simp [hx], rfl⟩)
        · exact .inr (.inr (.inl ⟨rfl, hpatient rfl⟩))
        · exact .inr (.inr (.inr ⟨m, by simp [hm], hstopped⟩))

/-- A system call that is run in a process does not show in it, whatever the process does while it
runs. -/
theorem transparent_invoke (i : Injector) (number : UInt64) (args : Registers.Arguments)
    (hk : KeepsRegisters kernel i.pid registers) (k : σ) :
    Transparent kernel i registers number args k ((i.invoke number args).run.transcript kernel k)
      ((i.invoke number args).run.run kernel k).1 ((i.invoke number args).run.run kernel k).2 := by
  have hinvokes := (ensures_invokes i number args).of_run kernel k
  have hpatient := Dialogue.Ensures.of_run (i.patient_invoke number args []) kernel k
  rw [List.nil_append] at hinvokes hpatient
  rw [Dialogue.run_snd]
  refine hinvokes.transparent hk (Dialogue.answered_transcript _ k) fun himpatient => ?_
  rw [himpatient] at hpatient
  exact hpatient rfl

/-- A kernel that refuses every system call of the process at `stub`. The call leaves its return address
and the flags in two registers, as on the processor. -/
def refusing (stub : Addr) (errno : Errno) : (c : Call) → Still → Answer c × Still
  | .resume _ _, p =>
    (.ok (), { p with registers := { p.registers with
      rip := stub + stubLen, rax := SystemCall.returned (.error errno), rcx := stub + 2,
      r11 := p.registers.eflags } })
  | c, p => Still.answer stub c p

theorem keepsRegisters_refusing (stub : Addr) (errno : Errno) (pid : Pid) :
    KeepsRegisters (refusing stub errno) pid Still.registers where
  reads _ _ h := (Except.ok.inj h).symm
  writes _ _ _ := rfl

/-- A refused mapping: the error comes back, and the registers that the call used up are as before. -/
theorem transparent_invoke_of_refusing :
    let i : Injector := ⟨7, 0x5000, 1⟩
    let args : Registers.Arguments := ⟨0x10000, 0x1000, 3, 0x100022, SystemCall.noFile, 0⟩
    let stopped : Registers := { (default : Registers) with rip := 0x4000, rcx := 1, r11 := 2 }
    let k : Still := ⟨[], stopped, .error .inputOutput⟩
    let program := (i.invoke SystemCall.map args).run
    KeepsRegisters (refusing 0x5000 .alreadyExists) 7 Still.registers ∧
      (program.run (refusing 0x5000 .alreadyExists) k).1 = .ok (.error .alreadyExists) ∧
      Transparent (refusing 0x5000 .alreadyExists) i Still.registers SystemCall.map args k
        (program.transcript (refusing 0x5000 .alreadyExists) k)
        (program.run (refusing 0x5000 .alreadyExists) k).1
        (program.run (refusing 0x5000 .alreadyExists) k).2 := by
  intro i args stopped k program
  have hk := keepsRegisters_refusing 0x5000 .alreadyExists 7
  exact ⟨hk, by decide, transparent_invoke i SystemCall.map args hk k⟩

end Injector

end Footprint
