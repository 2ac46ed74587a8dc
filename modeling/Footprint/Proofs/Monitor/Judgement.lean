import Footprint.Proofs.Layout
import Footprint.Proofs.Monitor.Course

/-!
# The judgement on a denied access

`judge` runs through its reasons to refuse and grants what is left. Over a sound record it always has
an answer, and `Grants` lists the conditions under which that is a grant (`judge_eq_grant_iff`).
-/

namespace Footprint

namespace Monitor

variable {m : Monitor} {addr pc : Addr} {denial : Denial} {elapsed : Duration} {g : Grant}

/-- What a grant for a denied access rests on. -/
structure Grants (m : Monitor) (addr : Addr) (denial : Denial) (g : Grant) : Prop where
  underIterations : m.iterations < m.limits.maxIterations
  inWindow : m.limits.window.contains addr = true
  outsideCode : m.layout.codeRegion.contains addr = false
  fresh : m.log.block addr ∉ m.log.toList
  underBlocks : m.log.size < m.limits.maxBlocks.toNat
  allowed : m.methodFor denial (m.log.block addr) = .ok g.method
  addr_eq : g.addr = addr
  block_eq : g.block = m.log.block addr
  len_eq : g.len = m.layout.blockSize

/-- Only a mapping that is not the sandbox's own keeps a block from being made accessible. -/
theorem methodFor_eq_error_iff {block : Addr} {cause : AccessCause} :
    m.methodFor denial block = .error cause ↔
      cause = .foreignMapping ∧ denial = .forbidden ∧ m.layout.guardRegion.contains block = false := by
  unfold methodFor
  cases denial with
  | unmapped => simp
  | forbidden =>
    cases m.layout.guardRegion.contains block
    · simp [eq_comm]
    · simp

/-- Over a sound record the judgement is a chain of conditions without a failure of its own. -/
theorem judge_eq (hlog : m.log.Sound) (addr : Addr) (denial : Denial) (pc : Addr)
    (elapsed : Duration) :
    m.judge addr denial pc elapsed =
      .ok (if m.limits.maxIterations ≤ m.iterations then
          .abort (m.timeoutFailure .faultIterations elapsed)
        else if !m.limits.window.contains addr then .abort (.access addr .outsideWindow)
        else if m.layout.codeRegion.contains addr then .abort (.access addr .codeRegion)
        else if m.log.block addr ∈ m.log.toList then
          .abort (.fault (some pc) (.repeatedFault (m.log.block addr)))
        else if m.limits.maxBlocks.toNat ≤ m.log.size then
          .abort (.access addr (.grantCap m.limits.maxBlocks))
        else match m.methodFor denial (m.log.block addr) with
          | .ok method =>
            .grant ⟨addr, m.log.block addr, m.layout.blockSize, method⟩
          | .error cause => .abort (.access addr cause)) := by
  unfold judge
  simp only [bind, Except.bind, pure, Except.pure, hlog.blockOf_eq, hlog.seen_iff]
  cases m.methodFor denial (m.log.block addr)
  all_goals
    dsimp only
    repeat' split
    all_goals rfl

theorem judge_isOk (hlog : m.log.Sound) (addr : Addr) (denial : Denial) (pc : Addr)
    (elapsed : Duration) : ∃ verdict, m.judge addr denial pc elapsed = .ok verdict :=
  ⟨_, judge_eq hlog addr denial pc elapsed⟩

/-- The judgement is a grant exactly when nothing speaks against one. -/
theorem judge_eq_grant_iff (hlog : m.log.Sound) :
    m.judge addr denial pc elapsed = .ok (.grant g) ↔ m.Grants addr denial g := by
  rw [judge_eq hlog, Except.ok.injEq]
  constructor
  · intro h
    split at h
    · cases h
    next hiterations =>
    split at h
    · cases h
    next hwindow =>
    split at h
    · cases h
    next hcode =>
    split at h
    · cases h
    next hfresh =>
    split at h
    · cases h
    next hblocks =>
    split at h
    next method hmethod =>
      cases h
      exact {
        underIterations := UInt32.not_le.1 hiterations
        inWindow := by simpa using hwindow
        outsideCode := by simpa using hcode
        fresh := hfresh
        underBlocks := Nat.not_le.1 hblocks
        allowed := hmethod
        addr_eq := rfl
        block_eq := rfl
        len_eq := rfl }
    next =>
      cases h
  · intro h
    rcases g with ⟨gaddr, gblock, glen, gmethod⟩
    obtain rfl : gaddr = addr := h.addr_eq
    obtain rfl : gblock = m.log.block gaddr := h.block_eq
    obtain rfl : glen = m.layout.blockSize := h.len_eq
    rw [if_neg (UInt32.not_le.2 h.underIterations), if_neg (by simp [h.inWindow]),
      if_neg (by simp [h.outsideCode]), if_neg h.fresh, if_neg (Nat.not_le.2 h.underBlocks),
      h.allowed]

/-- A grant is only decided on where addresses can be rounded down to a block. -/
theorem isGranule_of_judge_eq_grant (h : m.judge addr denial pc elapsed = .ok (.grant g)) :
    Addr.isGranule m.log.blockSize = true := by
  cases hblock : m.log.blockOf addr with
  | ok block =>
    exact Addr.isGranule_of_alignDown hblock
  | error e =>
    exfalso
    unfold judge at h
    simp only [bind, Except.bind, pure, Except.pure, hblock] at h
    repeat' split at h
    all_goals cases h

end Monitor

end Footprint
