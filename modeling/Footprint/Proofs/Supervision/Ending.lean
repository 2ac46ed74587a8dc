import Footprint.Proofs.Supervision.Keeping

/-!
# Drives end at an access out of the window

The monitor aborts a run at every access out of the window that the kernel tells of, so such an access is
the last thing that a drive is told of (`drive_endsOutside`). As long as it was told of none (`Untold`), a
drive may go on.
-/

namespace Footprint

namespace Drive

open Kernel Monitor

variable {window : Window} {limits : Limits} {t before : Transcript} {x : Exchange}

/-- Whoever was told of an access was told of its signal last. -/
theorem Told.tellsSignal {pid : Pid} {addr pc : Addr} {denial : Denial}
    (h : Told pid before addr denial pc (t ++ [x])) : tellsSignal x = true := by
  generalize htold : t ++ [x] = told at h
  rcases h with @⟨q, registers, info, _⟩
  have hlast : before ++ telling pid q .segv registers info =
      (before ++ [⟨.poll pid, .ok (.stopped q .segv)⟩, ⟨.readRegisters pid, .ok registers⟩]) ++
        [⟨.readSignal pid, .ok info⟩] := by
    simp [telling]
  rw [hlast] at htold
  cases (List.append_inj' htold rfl).2
  rfl

/-- What was told of a stop is one access. -/
theorem Told.stop_eq {pid pid' q : Pid} {signal : Signal} {registers : Registers} {info : SignalInfo}
    {addr pc : Addr} {denial : Denial}
    (h : Told pid' before addr denial pc (t ++ telling pid q signal registers info)) :
    Stop.ofSignal signal info.code info.addr registers.rip = .access addr denial pc := by
  generalize htold : t ++ telling pid q signal registers info = told at h
  rcases h with @⟨q', registers', info', haccess⟩
  cases (List.append_inj' htold rfl).2
  exact haccess

/-- The kernel told of no access out of the window. -/
def Untold (window : Window) (t : Transcript) : Prop :=
  ∀ pid before told addr denial pc, Told pid before addr denial pc told → told <+: t →
    window.contains addr = true

theorem Untold.concat (t : Transcript) (x : Exchange) (hx : tellsSignal x = false)
    (h : Untold window t) : Untold window (t ++ [x]) := by
  intro pid before told addr denial pc htold hgrows
  rcases List.prefix_concat_iff.1 hgrows with rfl | hearlier
  · rw [htold.tellsSignal] at hx
    cases hx
  · exact h _ _ _ _ _ _ htold hearlier

/-- What is told last is the stop, or was told before. -/
theorem Untold.eq_or_inside {pid pid' q : Pid} {signal : Signal} {registers : Registers}
    {info : SignalInfo} {addr pc : Addr} {denial : Denial} {told : Transcript} (h : Untold window t)
    (htold : Told pid' before addr denial pc told)
    (hgrows : told <+: t ++ Drive.telling pid q signal registers info) :
    told = t ++ Drive.telling pid q signal registers info ∨ window.contains addr = true := by
  have hread := (h.concat _ ⟨.poll pid, .ok (.stopped q signal)⟩ rfl).concat _
    ⟨.readRegisters pid, .ok registers⟩ rfl
  have hlast : t ++ Drive.telling pid q signal registers info =
      t ++ [⟨.poll pid, .ok (.stopped q signal)⟩] ++ [⟨.readRegisters pid, .ok registers⟩] ++
        [⟨.readSignal pid, .ok info⟩] := by
    simp [Drive.telling]
  rw [hlast] at hgrows ⊢
  exact (List.prefix_concat_iff.1 hgrows).imp id fun hearlier => hread _ _ _ _ _ _ htold hearlier

variable {pid q : Pid} {signal : Signal} {registers : Registers} {info : SignalInfo}

/-- Being told of a stop that is no access out of the window changes nothing. -/
theorem Untold.concat_telling (h : Untold window t)
    (hinside : ∀ addr denial pc, Stop.ofSignal signal info.code info.addr registers.rip =
      .access addr denial pc → window.contains addr = true) :
    Untold window (t ++ telling pid q signal registers info) := by
  intro pid' before told addr denial pc htold hgrows
  rcases h.eq_or_inside htold hgrows with rfl | hearlier
  · exact hinside addr denial pc htold.stop_eq
  · exact hearlier

/-- The drive ended where the kernel told of an access out of the window: nothing but the time was asked
behind that. -/
def EndsOutside (window : Window) (t : Transcript) (result : Except Halt Unit) : Prop :=
  ∀ pid before told addr denial pc rest, Told pid before addr denial pc told → t = told ++ rest →
    window.contains addr = false → (∃ now, rest = [⟨.clock, now⟩]) ∧ ∃ halt, result = .error halt

theorem Untold.endsOutside (h : Untold window t) (result : Except Halt Unit) :
    EndsOutside window t result := by
  rintro pid before told addr denial pc rest htold rfl houtside
  rw [h _ _ _ _ _ _ htold (List.prefix_append told rest)] at houtside
  cases houtside

theorem Untold.endsOutside_telling (h : Untold window t) (now : Duration) (halt : Halt) :
    EndsOutside window (t ++ telling pid q signal registers info ++ [⟨.clock, now⟩]) (.error halt) := by
  intro pid' before told addr denial pc rest htold heq houtside
  have hgrows : told <+: t ++ telling pid q signal registers info ++ [⟨.clock, now⟩] := ⟨rest, heq.symm⟩
  rcases List.prefix_concat_iff.1 hgrows with rfl | hgrows
  · cases htold.tellsSignal
  · rcases h.eq_or_inside htold hgrows with rfl | hinside
    · exact ⟨⟨now, (List.append_cancel_left heq).symm⟩, halt, rfl⟩
    · rw [hinside] at houtside
      cases houtside

theorem exists_abort_of_outside {m : Monitor} {addr pc : Addr} {denial : Denial} {elapsed : Duration}
    {verdict : Verdict} (houtside : m.limits.window.contains addr = false)
    (h : m.judge addr denial pc elapsed = .ok verdict) : ∃ failure, verdict = .abort failure := by
  unfold Monitor.judge at h
  simp only [houtside, bind, Except.bind, pure, Except.pure, Bool.not_false, if_true] at h
  split at h
  · cases h
    exact ⟨_, rfl⟩
  · cases h
    exact ⟨_, rfl⟩

theorem keeps_untold (layout : Layout) (limits : Limits) :
    Keeps layout limits (Untold limits.window) (EndsOutside limits.window) where
  ends := fun _ result h => h.endsOutside result
  plain := fun t x _ hx => Untold.concat t x hx
  told := by
    intro before m pid q signal registers info now h _ hlimits
    refine ⟨Untold.endsOutside_telling h now, ?_⟩
    intro elapsed verdict hverdict hleads
    refine Untold.concat _ _ rfl (Untold.concat_telling h ?_)
    intro addr denial pc haccess
    by_contra houtside
    rw [haccess] at hverdict
    rcases exists_abort_of_outside (hlimits ▸ Bool.eq_false_iff.2 houtside) hverdict with
      ⟨failure, habort⟩
    exact hleads failure habort
  grants := fun s _ _ _ g _ h _ => s.ensures_makeAccessible_keeps Untold.concat g h

/-- Whatever the kernel answers, a drive ends where it is told of an access out of the window. -/
theorem drive_endsOutside {σ : Type} (s : Sandbox .launched) (limits : Limits)
    (started wallLimit : Duration) (turns : Nat) (answer : (c : Call) → σ → Answer c × σ) (k : σ) :
    let drive := s.drive (.start s.layout limits) started wallLimit turns
    EndsOutside limits.window (drive.transcript answer k) (drive.run answer k).1.1 := by
  have hnone : Untold limits.window [] := by
    intro pid before told addr denial pc htold hgrows
    obtain rfl := List.prefix_nil.1 hgrows
    generalize hnil : ([] : Transcript) = told at htold
    rcases htold with @⟨q, registers, info, _⟩
    simp [telling] at hnil
  exact (keeps_untold s.layout limits).of_drive hnone started wallLimit turns answer k

end Drive

end Footprint
