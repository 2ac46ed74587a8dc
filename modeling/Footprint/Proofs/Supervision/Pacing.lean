import Footprint.Proofs.Monitor.Caps
import Footprint.Proofs.Supervision.Handling
import Footprint.Proofs.Supervision.Keeping
import Footprint.Proofs.Supervision.Patience
import Footprint.Proofs.Supervision.Soundness

/-!
# The pace of a drive

A drive is a sequence of turns. Each one opens with the same two questions, and behind an answer that lets
it go on at most one stop is consumed and at most one block made accessible (`Turn`). Between two turns as
many stops were consumed as blocks were made accessible, and as many grants counted (`Head`), so the bounds
of the monitor bound the stops as well. How the last turn ends depends on the first of the two questions
that does not let it go on (`Exit`).
-/

namespace Footprint

namespace Drive

open Kernel Monitor

/-! ## Stops and blocks -/

/-- Whether an exchange consumes a stop: the kernel had a new status of the process. -/
def consumesStop : Exchange → Bool
  | ⟨.poll _, .ok status⟩ => status ≠ .stillAlive
  | _ => false

def stops (t : Transcript) : Nat :=
  t.countP consumesStop

/-- The blocks that exchanges make accessible, from a stage on. -/
def blocks (stage : Stage) (t : Transcript) : List Addr :=
  (stage.shows t).filterMap Event.granted

def isCollected : Event → Bool
  | .collected _ => true
  | _ => false

variable {stage : Stage} {t t' u : Transcript} {x : Exchange}

theorem stops_append (t u : Transcript) : stops (t ++ u) = stops t + stops u :=
  List.countP_append

theorem blocks_append (stage : Stage) (t u : Transcript) :
    blocks stage (t ++ u) = blocks stage t ++ blocks (stage.after t) u := by
  simp [blocks, Stage.shows_append]

theorem countP_onExchange (stage : Stage) (x : Exchange) :
    (stage.onExchange x).2.toList.countP isCollected = if consumesStop x then 1 else 0 := by
  rcases x with ⟨c, reply⟩
  cases c with
  | poll =>
    cases reply with
    | error => rfl
    | ok status =>
      by_cases halive : status = .stillAlive
      all_goals simp [Stage.onExchange, consumesStop, isCollected, halive]
  | writeRegisters =>
    cases reply with
    | error => rfl
    | ok =>
      cases stage
      all_goals rfl
  | readRegisters | cancelled =>
    cases reply
    all_goals rfl
  | resume pid how =>
    cases how
    all_goals
      cases reply
      all_goals rfl
  | _ => rfl

/-- A stop is consumed where it shows that one was collected. -/
theorem countP_shows (stage : Stage) (t : Transcript) :
    (stage.shows t).countP isCollected = stops t := by
  induction t generalizing stage with
  | nil => rfl
  | cons x t ih =>
    rw [Stage.shows_cons, List.countP_append, ih, countP_onExchange, stops, stops, List.countP_cons,
      Nat.add_comm]

theorem countP_flatMap_events (rounds : List Round) :
    (rounds.flatMap Round.events).countP isCollected = rounds.length := by
  induction rounds with
  | nil => rfl
  | cons r rest ih =>
    rw [List.flatMap_cons, List.countP_append, ih, List.length_cons, Nat.add_comm]
    rfl

variable {layout : Layout} {limits : Limits} {rounds : List Round} {m : Monitor} {run : Run}
  {result : Except Halt Unit}

theorem Underway.blocks_eq (h : Underway layout rounds t m) : blocks .idle t = m.log.toList := by
  change (eventsOf t).filterMap Event.granted = _
  rw [h.events_eq, granted_flatMap h.accessible, h.log_eq]

theorem Underway.stops_eq (h : Underway layout rounds t m) : stops t = (blocks .idle t).length := by
  rw [h.blocks_eq, h.log_eq, List.length_map, ← countP_shows .idle t]
  change (eventsOf t).countP isCollected = _
  rw [h.events_eq, countP_flatMap_events]

/-- However a drive ends, each block took a stop. -/
theorem Faithful.blocks_le (h : Faithful layout t result m) : (blocks .idle t).length ≤ stops t := by
  rcases h.rounds with ⟨rounds, ending, hevents, -, hlog, -⟩
  have hblocks : blocks .idle t = rounds.map Round.block := h.recorded.symm.trans hlog
  rw [hblocks, List.length_map, ← countP_shows .idle t]
  change _ ≤ (eventsOf t).countP isCollected
  rw [hevents, List.countP_append, countP_flatMap_events]
  exact Nat.le_add_right _ _

/-! ## Turns -/

variable {started wallLimit : Duration}

/-- One turn of a drive, or what there is of it. -/
structure Turn (started wallLimit : Duration) (turn : Transcript) : Prop where
  opens : ∃ now body, turn = opening now ++ body ∧ ¬ Late started wallLimit now ∧
    ∀ x ∈ body, x.call ≠ .cancelled
  stops_le : stops turn ≤ 1
  blocks_le : (blocks .idle turn).length ≤ 1

/-- Exchanges that neither ask the caller nor consume a stop. -/
def Quiet (t : Transcript) : Prop :=
  ∀ x ∈ t, x.call ≠ .cancelled ∧ consumesStop x = false

theorem quiet_nil : Quiet [] := by simp [Quiet]

theorem Quiet.append (ht : Quiet t) (hu : Quiet u) : Quiet (t ++ u) :=
  fun x hx => (List.mem_append.1 hx).elim (ht x) (hu x)

theorem quiet_singleton (hcall : x.call ≠ .cancelled) (hx : consumesStop x = false) : Quiet [x] := by
  simpa [Quiet] using ⟨hcall, hx⟩

theorem Quiet.stops_eq (h : Quiet t) : stops t = 0 :=
  List.countP_eq_zero.2 fun x hx => by simp [(h x hx).2]

/-- What a turn exchanges behind its opening. -/
inductive Body : Transcript → Prop where
  | quiet {t : Transcript} : Quiet t → Body t
  -- A stop is looked for and handled.
  | stop {t u : Transcript} {pid : Pid} {status : WaitStatus} :
      Quiet t → Quiet u → Body (t ++ ⟨.poll pid, .ok status⟩ :: u)

theorem Body.stops_le (h : Body t) : stops t ≤ 1 := by
  cases h with
  | quiet h => simp [h.stops_eq]
  | @stop t u pid status ht hu =>
    have hone : stops [⟨.poll pid, .ok status⟩] ≤ 1 := List.countP_le_length
    rw [List.append_cons, stops_append, stops_append, ht.stops_eq, hu.stops_eq]
    omega

theorem Body.uncancelled (h : Body t) : ∀ x ∈ t, x.call ≠ .cancelled := by
  cases h with
  | quiet h => exact fun x hx => (h x hx).1
  | stop ht hu =>
    intro x hx
    rcases List.mem_append.1 hx with hx | hx
    · exact (ht x hx).1
    rcases List.mem_cons.1 hx with rfl | hx
    · simp
    · exact (hu x hx).1

/-! ## Between two turns -/

/-- Where a turn begins: whole turns were made, and each left the process waiting for the next. -/
structure Head (layout : Layout) (limits : Limits) (started wallLimit : Duration)
    (turns : List Transcript) (t : Transcript) (m : Monitor) : Prop where
  underway : ∃ rounds, Underway layout rounds t m
  kept : m.InStep ∧ m.limits = limits
  flatten_eq : t = turns.flatten
  each : ∀ turn ∈ turns, Turn started wallLimit turn ∧ Stage.idle.after turn = .idle

variable {turns : List Transcript}

theorem Head.start (layout : Layout) (limits : Limits) (started wallLimit : Duration) :
    Head layout limits started wallLimit [] [] (.start layout limits) where
  underway := ⟨[], .start layout limits⟩
  kept := ⟨.start layout limits, rfl⟩
  flatten_eq := rfl
  each := by simp

theorem Head.idle (h : Head layout limits started wallLimit turns t m) : stageOf t = .idle := by
  rcases h.underway with ⟨rounds, hunderway⟩
  exact hunderway.idle

theorem Head.stops_eq (h : Head layout limits started wallLimit turns t m) :
    stops t = (blocks .idle t).length := by
  rcases h.underway with ⟨rounds, hunderway⟩
  exact hunderway.stops_eq

/-- The counter of the monitor counts the blocks. -/
theorem Head.counted (h : Head layout limits started wallLimit turns t m) :
    m.iterations.toNat = (blocks .idle t).length := by
  rcases h.underway with ⟨rounds, hunderway⟩
  rw [hunderway.blocks_eq, h.kept.1.counted, BlockLog.size_eq_length]

theorem Head.stops_le (h : Head layout limits started wallLimit turns t m) : stops t ≤ limits.cap := by
  rw [h.stops_eq, ← h.counted, h.kept.1.counted, ← h.kept.2]
  exact h.kept.1.size_le

/-- A turn behind the head makes no more blocks accessible than it consumes stops. -/
theorem Head.turn (h : Head layout limits started wallLimit turns t m) {now : Duration}
    {body : Transcript} (hearly : ¬ Late started wallLimit now) (hbody : Body body)
    (hle : (blocks .idle (t ++ (opening now ++ body))).length ≤ stops (t ++ (opening now ++ body))) :
    Turn started wallLimit (opening now ++ body) := by
  have hstops : stops (opening now ++ body) ≤ 1 := by
    rw [stops_append]
    exact (Nat.zero_add _).le.trans hbody.stops_le
  refine ⟨⟨now, body, rfl, hearly, hbody.uncancelled⟩, hstops, ?_⟩
  have hidle : Stage.idle.after t = .idle := h.idle
  have hbefore := h.stops_eq
  rw [blocks_append, stops_append, hidle, List.length_append] at hle
  omega

theorem Head.next {m' : Monitor} (h : Head layout limits started wallLimit turns t m) {now : Duration}
    {body : Transcript} (hearly : ¬ Late started wallLimit now) (hbody : Body body)
    (hunderway : ∃ rounds, Underway layout rounds (t ++ opening now ++ body) m')
    (hkept : m'.InStep ∧ m'.limits = limits) :
    Head layout limits started wallLimit (turns ++ [opening now ++ body]) (t ++ opening now ++ body) m' := by
  rw [List.append_assoc] at hunderway ⊢
  refine ⟨hunderway, hkept, by simp [h.flatten_eq], ?_⟩
  rcases hunderway with ⟨rounds, hunderway⟩
  have hidle : Stage.idle.after t = .idle := h.idle
  have hturn := h.turn hearly hbody hunderway.stops_eq.ge
  have hafter : Stage.idle.after (opening now ++ body) = .idle := by
    have hstage := hunderway.idle
    rwa [stageOf_append, h.idle] at hstage
  intro turn hturn'
  rcases List.mem_append.1 hturn' with hearlier | hlast
  · exact h.each turn hearlier
  · obtain rfl := List.mem_singleton.1 hlast
    exact ⟨hturn, hafter⟩

/-! ## The end -/

/-- How a drive ends behind whole turns that made so many blocks accessible. -/
inductive Exit (started wallLimit : Duration) (applied : Nat) : Transcript → Except Halt Unit → Prop where
  -- The caller gave up; nothing else is asked.
  | cancelled : Exit started wallLimit applied [⟨.cancelled, true⟩] (.error (.failed .cancelled))
  -- The time is up; the process is not asked for.
  | expired {now : Duration} {iterations : UInt32} : Late started wallLimit now →
      iterations.toNat = applied → Exit started wallLimit applied (opening now)
        (.error (.failed (.timeout .wallClock iterations ⟨now.nanos - started.nanos⟩)))
  -- The turn that was begun ends the drive.
  | within {turn : Transcript} {result : Except Halt Unit} : Turn started wallLimit turn →
      Exit started wallLimit applied turn result
  -- No further turn was begun.
  | unbegun {halt : Halt} : halt.isTracing → Exit started wallLimit applied [] (.error halt)

/-- A drive that made whole turns and ended. -/
structure Ended (limits : Limits) (started wallLimit : Duration) (turns : List Transcript)
    (last t : Transcript) (result : Except Halt Unit) : Prop where
  flatten_eq : t = turns.flatten ++ last
  each : ∀ turn ∈ turns, Turn started wallLimit turn ∧ Stage.idle.after turn = .idle
  stops_le : stops turns.flatten ≤ limits.cap
  exit : Exit started wallLimit (blocks .idle t).length last result

theorem Head.ended {last : Transcript} (h : Head layout limits started wallLimit turns t m)
    (hexit : Exit started wallLimit (blocks .idle t).length last result) :
    Ended limits started wallLimit turns last (t ++ last) result where
  flatten_eq := by rw [← h.flatten_eq]
  each := h.each
  stops_le := h.flatten_eq ▸ h.stops_le
  exit := by
    cases hexit with
    | cancelled => exact .cancelled
    | expired hlate hcounted =>
      -- asking the caller and the clock makes nothing accessible
      refine .expired hlate ?_
      rw [hcounted, blocks_append]
      simp [blocks]
    | within hturn => exact .within hturn
    | unbegun htracing => exact .unbegun htracing

/-- Ends, and gives up only for the number of turns or for interruptions. -/
def Ends (limits : Limits) (started wallLimit : Duration) (bound patience : Nat) (t : Transcript)
    (result : Except Halt Unit) : Prop :=
  ∃ turns last, Ended limits started wallLimit turns last t result ∧
    (result = .error .impatient → turns.length = bound ∨ Weary patience t)

theorem lasting_inStep (limits : Limits) : Lasting fun m => m.InStep ∧ m.limits = limits :=
  lasting_of_change (fun _ _ _ _ h hchange => ⟨h.1.change hchange, hchange.limits_eq.trans h.2⟩)
    fun _ _ h hrunning => ⟨h.1.inPhase (phaseDuring_ne_granting hrunning), h.2⟩

theorem quiet_of_isHandling (h : isHandling x.call = true) :
    x.call ≠ .cancelled ∧ consumesStop x = false := by
  rcases x with ⟨c, reply⟩
  cases c with
  | cancelled | poll => cases h
  | _ => exact ⟨by simp, rfl⟩

/-! ## Looking for a stop -/

/-- What looking for a status shows, by its outcome. -/
def Looked (layout : Layout) (rounds : List Round) (t : Transcript) (m : Monitor) (pid : Pid)
    (t' : Transcript) : Option WaitStatus → Prop
  | none => ∃ body, Quiet body ∧ t' = t ++ body ∧ Underway layout rounds t' m
  | some status => ∃ body, Quiet body ∧ t' = t ++ body ++ [⟨.poll pid, .ok status⟩] ∧
      status ≠ .stillAlive ∧ Underway layout rounds (t ++ body) m

/-- Looking for a stop in vain shows nothing. -/
theorem Underway.look {pid : Pid} {reply : Except Errno WaitStatus} (h : Underway layout rounds t m)
    (hx : consumesStop ⟨.poll pid, reply⟩ = false) :
    Underway layout rounds (t ++ [⟨.poll pid, reply⟩]) m := by
  cases reply with
  | error errno => exact h.quiet (by simp [Stage.onExchange, h.idle]) (by simp [Stage.onExchange])
  | ok status =>
    obtain rfl : status = .stillAlive := by simpa [consumesStop] using hx
    exact h.quiet (by simp [Stage.onExchange, h.idle]) (by simp [Stage.onExchange])

theorem Underway.ensures_look (s : Supervisor) (h : Underway layout rounds t m) :
    Tracing.Ensures (Looked layout rounds t m s.pid)
      (fun t' halt => ∃ body, Quiet body ∧ t' = t ++ body ∧ Faithful layout t' (.error halt) m)
      (Tracing.poll s.pid s.patience) t := by
  let inv (t' : Transcript) : Prop := ∃ body, Quiet body ∧ t' = t ++ body ∧ Underway layout rounds t' m
  have hvain {t' : Transcript} {reply : Except Errno WaitStatus} (h : inv t')
      (hx : consumesStop ⟨.poll s.pid, reply⟩ = false) : inv (t' ++ [⟨.poll s.pid, reply⟩]) := by
    rcases h with ⟨body, hbody, ht, hunderway⟩
    exact ⟨_, hbody.append (quiet_singleton (by simp) hx), by simp [ht], hunderway.look hx⟩
  have hends {t' : Transcript} {halt : Halt} (h : inv t') (htracing : halt.isTracing) :
      ∃ body, Quiet body ∧ t' = t ++ body ∧ Faithful layout t' (.error halt) m := by
    rcases h with ⟨body, hbody, ht, hunderway⟩
    exact ⟨body, hbody, ht, hunderway.halted htracing (List.append_nil _).symm (by simp) rfl
      (by simp [hunderway.running])⟩
  refine Tracing.ensures_poll inv s.patience ⟨[], quiet_nil, by simp, h⟩ ?again ?none ?some ?refused
    ?impatient
  case again => exact fun t' h => hvain h rfl
  case none => exact fun t' h => hvain h rfl
  case some =>
    rintro t' status ⟨body, hbody, rfl, h⟩ hnew
    exact ⟨body, hbody, rfl, hnew, h⟩
  case refused => exact fun t' errno h => hends (hvain h rfl) rfl
  case impatient => exact fun t' h => hends h rfl

/-! ## Whole drives -/

/-- Handling a stop leads to the next turn or ends the drive, and asks for no other stop meanwhile. -/
theorem Underway.ensures_handle_quiet (s : Supervisor) {status : WaitStatus}
    (h : Underway layout rounds t run.monitor) (hnew : status ≠ .stillAlive)
    (hkept : run.monitor.InStep ∧ run.monitor.limits = limits) :
    Supervising.Ensures
      (fun t' run isComplete => Outcome layout t' run.monitor isComplete ∧
        (∃ handling, Quiet handling ∧ t' = t ++ ⟨.poll s.pid, .ok status⟩ :: handling) ∧
        run.monitor.InStep ∧ run.monitor.limits = limits)
      (fun t' run halt => Faithful layout t' (.error halt) run.monitor ∧
        (∃ handling, Quiet handling ∧ t' = t ++ ⟨.poll s.pid, .ok status⟩ :: handling) ∧
        (halt = .impatient → Weary s.injector.patience t'))
      (s.handle status) (t ++ [⟨.poll s.pid, .ok status⟩]) run := by
  have hcollected : eventsOf (t ++ [⟨.poll s.pid, .ok status⟩]) = eventsOf t ++ [.collected status] := by
    simp [Stage.onExchange, hnew]
  have hstage : stageOf (t ++ [⟨.poll s.pid, .ok status⟩]) = .idle := by
    simp [Stage.onExchange, h.idle]
  let handled (t' : Transcript) : Prop :=
    ∃ handling, Quiet handling ∧ t' = t ++ ⟨.poll s.pid, .ok status⟩ :: handling
  have hasked : Supervising.Ensures (fun t _ _ => handled t) (fun t _ _ => handled t) (s.handle status)
      (t ++ [⟨.poll s.pid, .ok status⟩]) run := by
    refine (Supervisor.asks_handle status).ensures ?_ ⟨[], quiet_nil, rfl⟩ run
    rintro t' x hx ⟨handling, hquiet, rfl⟩
    have hlast := quiet_of_isHandling hx
    exact ⟨_, hquiet.append (quiet_singleton hlast.1 hlast.2), by simp⟩
  have houtcome := h.ensures_handle s status hstage hcollected ⟨t, rfl⟩
  have hlasting := Supervisor.lasting_handle (s := s) (lasting_inStep limits) status
    (t ++ [⟨.poll s.pid, .ok status⟩]) run hkept
  have hpatient := Supervisor.patient_handle (s := s) status (t ++ [⟨.poll s.pid, .ok status⟩]) run
  refine ((houtcome.and hasked).and (hlasting.and hpatient)).mono ?_ ?_
  · rintro t' run isComplete ⟨⟨houtcome, hhandled⟩, hkept, -⟩
    exact ⟨houtcome, hhandled, hkept⟩
  · rintro t' run halt ⟨⟨hfaithful, hhandled⟩, -, hweary⟩
    exact ⟨hfaithful, hhandled, hweary⟩

/-- The turn under way ends the drive. -/
theorem Head.ends {now : Duration} {body : Transcript} {m' : Monitor} {bound patience : Nat}
    (h : Head layout limits started wallLimit turns t m) (hearly : ¬ Late started wallLimit now)
    (hbody : Body body) (hfaithful : Faithful layout (t ++ opening now ++ body) result m')
    (hweary : result = .error .impatient → Weary patience (t ++ opening now ++ body)) :
    Ends limits started wallLimit bound patience (t ++ opening now ++ body) result := by
  rw [List.append_assoc] at hfaithful hweary ⊢
  exact ⟨turns, _, h.ended (.within (h.turn hearly hbody hfaithful.blocks_le)), .inr ∘ hweary⟩

/-- What handling a stop leads to: the head of the next turn, or the end of the drive. -/
def Handled (layout : Layout) (limits : Limits) (s : Supervisor) (turns : List Transcript) (bound : Nat)
    (t : Transcript) (m : Monitor) : Bool → Prop
  | false => ∃ turn, Head layout limits s.started s.wallLimit (turns ++ [turn]) t m
  | true => Ends limits s.started s.wallLimit bound s.patience t (.ok ())

theorem Head.ensures_handle (s : Supervisor) (hpatience : s.injector.patience = s.patience) {now : Duration}
    {body : Transcript} {status : WaitStatus}
    (h : Head layout limits s.started s.wallLimit turns t run.monitor)
    (hearly : ¬ Late s.started s.wallLimit now) (hbody : Quiet body) (hnew : status ≠ .stillAlive)
    (hunderway : Underway layout rounds (t ++ opening now ++ body) run.monitor) (bound : Nat) :
    Supervising.Ensures (fun t run isComplete => Handled layout limits s turns bound t run.monitor isComplete)
      (fun t _ halt => Ends limits s.started s.wallLimit bound s.patience t (.error halt))
      (s.handle status) (t ++ opening now ++ body ++ [⟨.poll s.pid, .ok status⟩]) run := by
  refine (hunderway.ensures_handle_quiet s hnew h.kept).mono ?_ ?_
  · rintro t' run (_ | _) ⟨houtcome, ⟨handling, hhandling, rfl⟩, hkept⟩
    all_goals rw [List.append_assoc _ body] at houtcome ⊢
    · exact ⟨_, h.next hearly (.stop hbody hhandling) houtcome hkept⟩
    · exact h.ends hearly (.stop hbody hhandling) houtcome nofun
  · rintro t' run halt ⟨hfaithful, ⟨handling, hhandling, rfl⟩, hweary⟩
    rw [List.append_assoc _ body] at hfaithful hweary ⊢
    exact h.ends hearly (.stop hbody hhandling) hfaithful
      fun himpatient => hpatience ▸ hweary (Except.error.inj himpatient)

/-- From one head on, turns follow each other until one of them ends the drive. -/
theorem Head.ensures_drive (s : Supervisor) (hpatience : s.injector.patience = s.patience) (bound : Nat)
    (h : Head layout limits s.started s.wallLimit turns t run.monitor) :
    Supervising.Ensures
      (fun t _ _ => Ends limits s.started s.wallLimit (turns.length + bound) s.patience t (.ok ()))
      (fun t _ halt => Ends limits s.started s.wallLimit (turns.length + bound) s.patience t (.error halt))
      (s.drive bound) t run := by
  induction bound generalizing turns t run with
  | zero =>
    refine ⟨turns, [], ?_, fun _ => .inl rfl⟩
    simpa using h.ended (.unbegun rfl)
  | succ bound ih =>
    have hagain {turn t : Transcript} {run : Run}
        (h : Head layout limits s.started s.wallLimit (turns ++ [turn]) t run.monitor) :
        Supervising.Ensures
          (fun t _ _ => Ends limits s.started s.wallLimit (turns.length + (bound + 1)) s.patience t (.ok ()))
          (fun t _ halt =>
            Ends limits s.started s.wallLimit (turns.length + (bound + 1)) s.patience t (.error halt))
          (s.drive bound) t run := by
      have hrest := ih h
      rwa [List.length_append, List.length_singleton, Nat.add_assoc, Nat.add_comm 1] at hrest
    refine Supervising.ensures_bind.2 (Drive.ensures_checkBounds ?cancelled ?late ?go)
    case cancelled => exact ⟨turns, _, h.ended .cancelled, nofun⟩
    case late => exact fun now hlate => ⟨turns, _, h.ended (.expired hlate h.counted), nofun⟩
    case go =>
      intro now hearly
      rcases h.underway with ⟨rounds, hunderway⟩
      have hopened : Underway layout rounds (t ++ opening now) run.monitor :=
        hunderway.quiet (by simp [hunderway.idle]) (by simp)
      refine Supervising.ensures_bind.2 (Supervising.ensures_ofTracing.2
        (((hopened.ensures_look s).and (Tracing.patient_poll s.pid s.patience _)).mono ?_ ?_))
      · rintro t' (_ | status) ⟨⟨body, hbody, hlooked⟩, -⟩
        · rcases hlooked with ⟨rfl, hunderway⟩
          exact hagain (h.next hearly (.quiet hbody) ⟨rounds, hunderway⟩ h.kept)
        · rcases hlooked with ⟨rfl, hnew, hunderway⟩
          refine Supervising.ensures_bind.2
            ((h.ensures_handle s hpatience hearly hbody hnew hunderway _).mono ?_ fun _ _ _ h => h)
          rintro t' run (_ | _) hhandled
          · rcases hhandled with ⟨turn, hnext⟩
            exact hagain hnext
          · exact hhandled
      · rintro t' halt ⟨⟨body, hbody, rfl, hfaithful⟩, hweary⟩
        exact h.ends hearly (.quiet hbody) hfaithful fun himpatient => hweary (Except.error.inj himpatient)

end Drive

end Footprint
