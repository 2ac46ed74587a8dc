import Mathlib.Algebra.BigOperators.Group.List.Basic
import Footprint.Proofs.Supervision.Pacing

/-!
# A drive keeps to its bounds

What the turns of a drive say about its exchanges as they stand: how many stops are consumed, what an
answer of the caller or of the clock leads to, and what can still happen once the caller gave up (`Paced`).
A drive that is not made to wait for ever by interruptions also ends, provided that the clock comes to the
limit at some time: each turn asks the clock, so a drive of enough turns asks it then
(`drive_keeps_bounds`).
-/

namespace Footprint

namespace Drive

open Kernel Monitor

variable {limits : Limits} {started wallLimit : Duration} {turns : List Transcript}
  {last t turn a b before after : Transcript} {x : Exchange} {result : Except Halt Unit}

/-! ## Places in a turn -/

/-- Only the opening of a turn asks the caller. -/
theorem Turn.of_asked (h : Turn started wallLimit turn) (hturn : turn = a ++ x :: b)
    (hx : x.call = .cancelled) :
    x = ⟨.cancelled, false⟩ ∧ ∃ now body, b = ⟨.clock, now⟩ :: body ∧ ¬ Late started wallLimit now := by
  rcases h.opens with ⟨now, body, rfl, hearly, hbody⟩
  rcases a with _ | ⟨y, _ | ⟨z, a⟩⟩
  · cases hturn
    exact ⟨rfl, now, body, rfl, hearly⟩
  · cases hturn
    cases hx
  · cases hturn
    exact absurd hx (hbody x (by simp))

/-- A stop is consumed behind the opening, and is the first one. -/
theorem Turn.of_stop (h : Turn started wallLimit turn) (hturn : turn = a ++ x :: b)
    (hx : consumesStop x = true) :
    ∃ now body, a = opening now ++ body ∧ ¬ Late started wallLimit now ∧ stops body = 0 ∧
      ∀ y ∈ body, y.call ≠ .cancelled := by
  have hstops := h.stops_le
  rcases h.opens with ⟨now, body, rfl, hearly, hbody⟩
  rcases a with _ | ⟨y, _ | ⟨z, a⟩⟩
  · cases hturn
    cases hx
  · cases hturn
    cases hx
  · cases hturn
    change stops (opening now ++ (a ++ x :: b)) ≤ 1 at hstops
    refine ⟨now, a, rfl, hearly, ?_, fun y hy => hbody y (by simp [hy])⟩
    have hone : stops (x :: b) = stops b + 1 := List.countP_cons_of_pos hx
    have hsplit : stops (opening now ++ (a ++ x :: b)) = stops a + (stops b + 1) := by
      rw [stops_append, stops_append, hone]
      exact Nat.zero_add _
    exact Nat.eq_zero_of_le_zero (by omega)

/-- What the second part of exchanges can come to. -/
theorem rest_le (hstops : stops (a ++ b) ≤ 1) (hblocks : (blocks .idle (a ++ b)).length ≤ 1) :
    stops b ≤ 1 ∧ (blocks (Stage.idle.after a) b).length ≤ 1 := by
  rw [stops_append] at hstops
  rw [blocks_append, List.length_append] at hblocks
  omega

theorem Turn.mem_asked (h : Turn started wallLimit turn) : ⟨.cancelled, false⟩ ∈ turn := by
  rcases h.opens with ⟨now, body, rfl, -⟩
  simp [opening]

/-! ## Places in a drive -/

theorem exists_of_flatten_eq {chunks : List Transcript} (h : chunks.flatten = before ++ x :: after) :
    ∃ past chunk rest a b, chunks = past ++ chunk :: rest ∧ chunk = a ++ x :: b ∧
      before = past.flatten ++ a ∧ after = b ++ rest.flatten := by
  rcases List.flatten_eq_append_iff.1 h with ⟨past, rest, rfl, rfl, hrest⟩ |
    ⟨past, a, y, b, rest, rfl, rfl, hrest⟩
  · rcases List.flatten_eq_cons_iff.1 hrest.symm with ⟨empty, b, rest, rfl, hempty, rfl⟩
    refine ⟨past ++ empty, x :: b, rest, [], b, by simp, rfl, ?_, rfl⟩
    simp [List.flatten_eq_nil_iff.2 hempty]
  · cases hrest
    exact ⟨past, _, rest, a, b, rfl, rfl, rfl, rfl⟩

/-- Where an exchange of a drive stands: in a turn, or among the questions that end the drive. -/
inductive Place (started wallLimit : Duration) (applied : Nat) (before after : Transcript)
    (result : Except Halt Unit) : Exchange → Prop where
  | turn {past a b rest : Transcript} {x : Exchange} : Turn started wallLimit (a ++ x :: b) →
      before = past ++ a → after = b ++ rest → Place started wallLimit applied before after result x
  | cancelled : after = [] → result = .error (.failed .cancelled) →
      Place started wallLimit applied before after result ⟨.cancelled, true⟩
  | late {now : Duration} {iterations : UInt32} : after = [⟨.clock, now⟩] →
      iterations.toNat = applied →
      result = .error (.failed (.timeout .wallClock iterations ⟨now.nanos - started.nanos⟩)) →
      Place started wallLimit applied before after result ⟨.cancelled, false⟩
  | clock {now : Duration} : Place started wallLimit applied before after result ⟨.clock, now⟩

variable {applied : Nat} {past : Transcript}

theorem Exit.place (h : Exit started wallLimit applied last result) (hlast : last = a ++ x :: b) :
    Place started wallLimit applied (past ++ a) b result x := by
  cases h with
  | within hturn => exact .turn (hlast ▸ hturn) rfl (List.append_nil b).symm
  | cancelled =>
    rcases a with _ | ⟨y, a⟩
    · cases hlast
      exact .cancelled rfl rfl
    · simp at hlast
  | expired _ hcounted =>
    rcases a with _ | ⟨y, _ | ⟨z, a⟩⟩
    · cases hlast
      exact .late rfl hcounted rfl
    · cases hlast
      exact .clock
    · simp [opening] at hlast
  | unbegun => simp at hlast

theorem Ended.place (h : Ended limits started wallLimit turns last t result)
    (ht : t = before ++ x :: after) :
    Place started wallLimit (blocks .idle t).length before after result x := by
  have hchunks : (turns ++ [last]).flatten = before ++ x :: after := by
    rw [← ht, h.flatten_eq]
    simp
  rcases exists_of_flatten_eq hchunks with ⟨past, chunk, rest, a, b, hsplit, hchunk, rfl, rfl⟩
  rcases List.eq_nil_or_concat rest with rfl | ⟨rest, final, rfl⟩
  · rcases List.append_inj' hsplit rfl with ⟨rfl, hlast⟩
    cases hlast
    simpa using h.exit.place hchunk
  · have hwhole : turns ++ [last] = (past ++ chunk :: rest) ++ [final] := by simpa using hsplit
    rcases List.append_inj' hwhole rfl with ⟨rfl, -⟩
    exact .turn (hchunk ▸ (h.each chunk (by simp)).1) rfl rfl

/-! ## What the exchanges of a drive say -/

/-- How a drive keeps to its bounds. -/
structure Paced (limits : Limits) (started wallLimit : Duration) (t : Transcript)
    (result : Except Halt Unit) : Prop where
  stops_le : stops t ≤ limits.cap + 1
  -- A caller that gave up ends the drive before anything else is asked.
  cancelled : ∀ before after, t = before ++ ⟨.cancelled, true⟩ :: after →
    after = [] ∧ result = .error (.failed .cancelled)
  -- Otherwise the clock is asked, and ends the drive if the time is up.
  timed : ∀ before after, t = before ++ ⟨.cancelled, false⟩ :: after →
    ∃ now rest, after = ⟨.clock, now⟩ :: rest ∧ (Late started wallLimit now → rest = [] ∧
      ∃ iterations : UInt32, iterations.toNat = (blocks .idle t).length ∧
        result = .error (.failed (.timeout .wallClock iterations ⟨now.nanos - started.nanos⟩)))
  -- Each stop that is consumed is the first one behind such a pair of questions.
  opened : ∀ before x after, t = before ++ x :: after → consumesStop x = true →
    ∃ earlier now rest, before = earlier ++ opening now ++ rest ∧ ¬ Late started wallLimit now ∧
      stops rest = 0 ∧ ∀ y ∈ rest, y.call ≠ .cancelled
  -- Once the caller has given up, there is at most the stop of the turn under way.
  givenUp : ∀ earlier later, t = earlier ++ later → ⟨.cancelled, false⟩ ∉ later →
    stops later ≤ 1 ∧ (blocks (stageOf earlier) later).length ≤ 1

theorem Exit.stops_le (h : Exit started wallLimit applied last result) : stops last ≤ 1 := by
  cases h with
  | within hturn => exact hturn.stops_le
  | _ => exact Nat.zero_le _

theorem Exit.blocks_le (h : Exit started wallLimit applied last result) :
    (blocks .idle last).length ≤ 1 := by
  cases h with
  | within hturn => exact hturn.blocks_le
  | _ => exact Nat.zero_le _

/-- If the caller does not go on, the end shows nothing. -/
theorem Exit.of_not_asked (h : Exit started wallLimit applied last result)
    (hnone : ⟨.cancelled, false⟩ ∉ last) : stops last = 0 ∧ ∀ stage, blocks stage last = [] := by
  cases h with
  | cancelled => exact ⟨rfl, fun _ => rfl⟩
  | expired => simp [opening] at hnone
  | within hturn => exact absurd hturn.mem_asked hnone
  | unbegun => exact ⟨rfl, fun _ => rfl⟩

theorem after_flatten (h : ∀ turn ∈ turns, Stage.idle.after turn = .idle) :
    Stage.idle.after turns.flatten = .idle := by
  induction turns with
  | nil => rfl
  | cons turn rest ih =>
    rw [List.forall_mem_cons] at h
    rw [List.flatten_cons, Stage.after_append, h.1, ih h.2]

/-- Of whole turns only a part of the last one is left if the caller does not go on. -/
theorem rest_le_of_not_asked
    (h : ∀ turn ∈ turns, Turn started wallLimit turn ∧ Stage.idle.after turn = .idle)
    (hturns : turns.flatten = a ++ b) (hnone : ⟨.cancelled, false⟩ ∉ b) :
    stops b ≤ 1 ∧ (blocks (Stage.idle.after a) b).length ≤ 1 := by
  rcases List.eq_nil_or_concat turns with rfl | ⟨earlier, turn, rfl⟩
  · rcases List.append_eq_nil_iff.1 hturns.symm with ⟨rfl, rfl⟩
    exact ⟨Nat.zero_le _, Nat.zero_le _⟩
  · rw [List.concat_eq_append, List.flatten_append, List.flatten_singleton] at hturns
    have hturn := (h turn (by simp)).1
    rcases List.append_eq_append_iff.1 hturns with ⟨c, rfl, rfl⟩ | ⟨c, -, rfl⟩
    · have hidle : Stage.idle.after earlier.flatten = .idle :=
        after_flatten fun turn hmem => (h turn (by simp [hmem])).2
      rw [Stage.after_append, hidle]
      exact rest_le hturn.stops_le hturn.blocks_le
    · exact absurd (List.mem_append_right c hturn.mem_asked) hnone

theorem Ended.rest_le (h : Ended limits started wallLimit turns last t result) (ht : t = a ++ b)
    (hnone : ⟨.cancelled, false⟩ ∉ b) :
    stops b ≤ 1 ∧ (blocks (stageOf a) b).length ≤ 1 := by
  rw [h.flatten_eq] at ht
  rcases List.append_eq_append_iff.1 ht with ⟨c, rfl, rfl⟩ | ⟨c, hturns, rfl⟩
  · have hidle : Stage.idle.after turns.flatten = .idle := after_flatten fun turn hmem => (h.each turn hmem).2
    rw [stageOf_append, stageOf, hidle]
    exact Drive.rest_le h.exit.stops_le h.exit.blocks_le
  · rw [List.mem_append, not_or] at hnone
    have hrest := rest_le_of_not_asked h.each hturns hnone.1
    rcases h.exit.of_not_asked hnone.2 with ⟨hstops, hblocks⟩
    rw [stops_append, blocks_append, hstops, hblocks, List.append_nil]
    exact hrest

theorem Ended.paced (h : Ended limits started wallLimit turns last t result) :
    Paced limits started wallLimit t result where
  stops_le := by
    rw [h.flatten_eq, stops_append]
    exact Nat.add_le_add h.stops_le h.exit.stops_le
  cancelled := by
    intro before after ht
    cases h.place ht with
    | turn hturn => cases (hturn.of_asked rfl rfl).1
    | cancelled hafter hresult => exact ⟨hafter, hresult⟩
  timed := by
    intro before after ht
    cases h.place ht with
    | turn hturn hbefore hafter =>
      rcases (hturn.of_asked rfl rfl).2 with ⟨now, body, rfl, hearly⟩
      exact ⟨now, _, hafter, fun hlate => absurd hlate hearly⟩
    | late hafter hcounted hresult =>
      exact ⟨_, [], hafter, fun _ => ⟨rfl, _, hcounted, hresult⟩⟩
  opened := by
    intro before x after ht hx
    cases h.place ht with
    | turn hturn hbefore hafter =>
      rcases hturn.of_stop rfl hx with ⟨now, body, rfl, hearly, hstops, hbody⟩
      exact ⟨_, now, body, by rw [hbefore, List.append_assoc], hearly, hstops, hbody⟩
    | cancelled | late | clock => cases hx
  givenUp := fun _ _ ht hnone => h.rest_le ht hnone

/-! ## Coming to an end -/

/-- From some exchange on, however many turns are made, the clock is never before the limit. -/
def ReachesLimit (started wallLimit : Duration) (transcript : Nat → Transcript) : Prop :=
  ∃ n, ∀ (turns i : Nat) (now : Duration), n ≤ i →
    (transcript turns)[i]? = some (⟨.clock, now⟩ : Exchange) → Late started wallLimit now

/-- However many turns are made, interruptions do not follow each other for ever. -/
def InterruptsBriefly (transcript : Nat → Transcript) : Prop :=
  ∃ n, ∀ turns before burst after, transcript turns = before ++ burst ++ after →
    (∀ x ∈ burst, isInterruption x = true) → burst.length ≤ n

/-- The last of many turns reads the clock late in the exchanges, and early in time. -/
theorem Ended.exists_clock {n : Nat} (h : Ended limits started wallLimit turns last t result)
    (hlength : turns.length = n + 1) :
    ∃ (i : Nat) (now : Duration), n ≤ i ∧ t[i]? = some (⟨.clock, now⟩ : Exchange) ∧
      ¬ Late started wallLimit now := by
  rcases List.eq_nil_or_concat turns with rfl | ⟨earlier, turn, rfl⟩
  · cases hlength
  · rw [List.concat_eq_append, List.length_append] at hlength
    rcases (h.each turn (by simp)).1.opens with ⟨now, body, rfl, hearly, -⟩
    have hnonempty : ∀ length ∈ earlier.map List.length, 1 ≤ length := by
      intro length hmem
      rcases List.mem_map.1 hmem with ⟨turn, hturn, rfl⟩
      rcases (h.each turn (by simp [hturn])).1.opens with ⟨now, body, rfl, -⟩
      simp [opening]
    have hsum := List.length_le_sum_of_one_le _ hnonempty
    rw [List.length_map, ← List.length_flatten] at hsum
    refine ⟨earlier.flatten.length + 1, now, ?_, ?_, hearly⟩
    · rw [List.length_singleton] at hlength
      omega
    · rw [h.flatten_eq]
      simp [opening]

/-- A drive of enough turns does not give up. -/
theorem ne_impatient_of_ends {transcript : Nat → Transcript} {result : Nat → Except Halt Unit}
    (h : ∀ turns, Ends limits started wallLimit turns turns (transcript turns) (result turns))
    (hclock : ReachesLimit started wallLimit transcript) (hbriefly : InterruptsBriefly transcript) :
    ∃ n, ∀ turns, n ≤ turns → result turns ≠ .error .impatient := by
  rcases hclock with ⟨n, hlate⟩
  rcases hbriefly with ⟨m, hbrief⟩
  refine ⟨n + m + 1, fun turns hle himpatient => ?_⟩
  rcases h turns with ⟨made, last, hended, hreason⟩
  rcases hreason himpatient with hmade | ⟨before, burst, ht, hlength, hburst⟩
  · obtain ⟨extra, rfl⟩ : ∃ extra, turns = n + extra + 1 := ⟨turns - n - 1, by omega⟩
    rcases hended.exists_clock hmade with ⟨i, now, hi, hnow, hearly⟩
    exact hearly (hlate _ i now (by omega) hnow)
  · have hshort := hbrief turns before burst [] (by rw [ht, List.append_nil]) hburst
    omega

/-! ## Whole drives -/

theorem drive_ends {σ : Type} (s : Sandbox .launched) (limits : Limits) (started wallLimit : Duration)
    (turns : Nat) (answer : (c : Call) → σ → Answer c × σ) (k : σ) :
    let drive := s.drive (.start s.layout limits) started wallLimit turns
    Ends limits started wallLimit turns turns (drive.transcript answer k) (drive.run answer k).1.1 := by
  intro drive
  let run : Run := ⟨s.custody, .start s.layout limits⟩
  have hstart : Head s.layout limits started wallLimit [] [] run.monitor :=
    .start s.layout limits started wallLimit
  have hturns : Supervising.Ensures (fun t _ _ => Ends limits started wallLimit turns turns t (.ok ()))
      (fun t _ halt => Ends limits started wallLimit turns turns t (.error halt))
      (do
        let supervisor ← Supervising.ofTracing (s.supervisor started wallLimit turns)
        supervisor.drive turns) [] run := by
    refine Supervising.ensures_bind.2 (Supervising.ensures_ofTracing.2 (ensures_supervisor_eq ?_ ?_))
    · intro pid stub
      have hdrive := hstart.ensures_drive ⟨pid, ⟨pid, stub, turns⟩, started, wallLimit, turns⟩ rfl turns
      rwa [List.length_nil, Nat.zero_add] at hdrive
    · intro halt htracing hpatient
      refine ⟨[], [], by simpa using hstart.ended (.unbegun htracing), fun himpatient => ?_⟩
      exact absurd (Except.error.inj himpatient) hpatient
  have hdrive : drive.Ensures (fun t result => Ends limits started wallLimit turns turns t result.1) [] := by
    refine Dialogue.Ensures.mono hturns ?_
    rintro t ⟨halt | _, run⟩ h
    all_goals exact h
  exact hdrive.of_run answer k

/-- The answers of a kernel whose process never stops, at a time. -/
def spinning (n : Nat) : (c : Call) → Answer c
  | .clock => (⟨n⟩ : Duration)
  | .cancelled => false
  | .draw => (0 : Addr)
  | .openReport => (.error .noProcess : Except Errno Int32)
  | .fork _ => (.error .noProcess : Except Errno Pid)
  | .readReport _ => ([] : List UInt8)
  | .readRegisters _ => (.error .noProcess : Except Errno Registers)
  | .writeRegisters .. => (.error .noProcess : Except Errno Unit)
  | .readSignal _ => (.error .noProcess : Except Errno SignalInfo)
  | .traceOptions _ => (.error .noProcess : Except Errno Unit)
  | .resume .. => (.error .noProcess : Except Errno Unit)
  | .readRseq _ => (.error .noProcess : Except Errno Rseq)
  | .readMaps _ => (.error .noProcess : Except Errno String)
  | .poll _ => (.ok .stillAlive : Except Errno WaitStatus)
  | .wait _ => (.ok .stillAlive : Except Errno WaitStatus)
  | .kill _ => (.error .noProcess : Except Errno Unit)

/-- Every call takes a nanosecond. -/
def ticking (c : Call) (n : Nat) : Answer c × Nat :=
  (spinning n c, n + 1)

theorem getElem?_transcript_ticking {α : Type} (d : Kernel.Program α) (n i : Nat) :
    ∀ x, (d.transcript ticking n)[i]? = some x → x.reply = spinning (n + i) x.call := by
  induction d generalizing n i with
  | done a => simp [Dialogue.transcript]
  | ask c next ih =>
    intro x hx
    cases i with
    | zero =>
      cases hx
      rfl
    | succ i =>
      have hnext := ih _ (n + 1) i x hx
      rwa [Nat.add_right_comm] at hnext

theorem not_isInterruption_spinning {n : Nat} (h : x.reply = spinning n x.call) :
    isInterruption x = false := by
  rcases x with ⟨c, reply⟩
  obtain rfl : reply = spinning n c := h
  cases c
  all_goals rfl

end Drive

end Footprint
