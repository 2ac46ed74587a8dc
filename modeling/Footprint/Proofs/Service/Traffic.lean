import Footprint.Proofs.Service.Returned

/-!
# Concurrent calls

Several calls on one service are under way at the same time. Each makes its notes in its own order, one at
a time, and the notes of different calls interleave in any way. This module says what such a state and a
step of it are (`Traffic`, `Traffic.Step`), what a note can be at its place in a call (`Underway.next_cases`)
and when a property is kept by all interleavings (`Traffic.Reaches.induction`).
-/

namespace Footprint

namespace Service

variable {s : Service}

/-- An audit log that was just opened holds no event. -/
theorem events_of_ofPath {path : Option String} {log : Audit.Log} {files files' : Files}
    (h : Audit.Log.ofPath files path = .ok (log, files')) : log.events = #[] := by
  cases path with
  | none =>
    cases h
    rfl
  | some path =>
    simp only [Audit.Log.ofPath, Audit.Log.withFile, bind, Except.bind, pure, Except.pure] at h
    repeat' split at h
    all_goals
      cases h
      try rfl

/-- A service that was just created counted nothing and recorded nothing. -/
theorem eq_of_create {config : Config} {host : Host} {files files' : Files}
    (h : create config host files = .ok (.ok (s, files'))) : s.metrics = .zero ∧ s.log.events = #[] := by
  unfold create at h
  cases hvalidated : config.validate host with
  | error e =>
    rw [hvalidated] at h
    cases h
  | ok findings =>
    simp only [hvalidated, bind, Except.bind, pure, Except.pure] at h
    split at h
    · cases hopened : Audit.Log.ofPath files config.auditPath with
      | error cause =>
        rw [hopened] at h
        cases h
      | ok opened =>
        rw [hopened] at h
        cases h
        exact ⟨rfl, events_of_ofPath hopened⟩
    · cases h

/-- A call with the notes that it made and the notes that it still has to make. -/
structure Underway (s : Service) where
  call : Returned s
  noted : List Note
  left : List Note
  whole : noted ++ left = call.notes

namespace Underway

/-- A call that made no note yet. -/
def begin (call : Returned s) : Underway s :=
  ⟨call, [], call.notes, rfl⟩

/-- The call after its next note. -/
def advance (u : Underway s) {n : Note} {rest : List Note} (h : u.left = n :: rest) : Underway s :=
  ⟨u.call, u.noted ++ [n], rest, by rw [← u.whole, h, List.append_assoc, List.singleton_append]⟩

/-- The call after all of its notes. -/
def finish (u : Underway s) : Underway s :=
  ⟨u.call, u.call.notes, [], List.append_nil _⟩

/-- The call started and did not end. -/
def inFlight (u : Underway s) : Bool :=
  !u.noted.isEmpty && !u.left.isEmpty

/-- The call made all of its notes. -/
def isOver (u : Underway s) : Bool :=
  u.left.isEmpty

end Underway

/-- A service with the calls on it. -/
structure Traffic (s : Service) where
  service : Service
  calls : List (Underway s)

namespace Traffic

/-- Calls that are about to start on a service. -/
def start (s : Service) (calls : List (Returned s)) : Traffic s :=
  ⟨s, calls.map .begin⟩

/-- Some call makes its next note. -/
inductive Step : Traffic s → Traffic s → Prop where
  | note {service : Service} {before after : List (Underway s)} {u : Underway s} {n : Note}
      {rest : List Note} (h : u.left = n :: rest) :
      Step ⟨service, before ++ u :: after⟩ ⟨service.note n, before ++ u.advance h :: after⟩

/-- What calls on a service come to in any order of their notes. -/
inductive Reaches (t : Traffic s) : Traffic s → Prop where
  | refl : Reaches t t
  | step {t' t'' : Traffic s} : Reaches t t' → Step t' t'' → Reaches t t''

/-- What each note keeps holds in every interleaving. -/
theorem Reaches.induction {P : Traffic s → Prop} {t t' : Traffic s} (h : Reaches t t') (ht : P t)
    (hstep : ∀ t t', Step t t' → P t → P t') : P t' := by
  induction h with
  | refl => exact ht
  | step _ hlast ih => exact hstep _ _ hlast ih

/-- The calls stay the same. -/
theorem Reaches.calls_eq {calls : List (Returned s)} {t : Traffic s} (h : (start s calls).Reaches t) :
    t.calls.map (·.call) = calls := by
  have hstart : (start s calls).calls.map (·.call) = calls := by
    simp [start, Underway.begin, Function.comp_def]
  refine h.induction (P := fun t => t.calls.map (·.call) = calls) hstart ?_
  rintro _ _ ⟨hleft⟩ h
  simpa [Underway.advance] using h

/-- A call may make all the notes that are left one after the other. -/
theorem Reaches.finish {t : Traffic s} {service : Service} {before after : List (Underway s)}
    {u : Underway s} (h : t.Reaches ⟨service, before ++ u :: after⟩) :
    t.Reaches ⟨service.noteAll u.left, before ++ u.finish :: after⟩ := by
  induction hleft : u.left generalizing service u with
  | nil =>
    have hwhole := u.whole
    rw [hleft, List.append_nil] at hwhole
    have hfinished : u.finish = u := by
      rcases u with ⟨call, noted, left, _⟩
      change noted = call.notes at hwhole
      subst hleft hwhole
      rfl
    rw [hfinished]
    exact h
  | cons n rest ih => exact ih (u := u.advance hleft) (h.step (.note hleft)) rfl

/-- Calls that were made one after the other. -/
def serial (s : Service) (calls : List (Returned s)) : Traffic s :=
  ⟨calls.foldl (fun service call => service.noteAll call.notes) s,
    calls.map fun call => (Underway.begin call).finish⟩

/-- Calls made one after the other are one of the orders in which they may interleave. -/
theorem reaches_serial (calls : List (Returned s)) : (start s calls).Reaches (serial s calls) := by
  suffices hrest : ∀ (t : Traffic s) (done : List (Underway s)) (service : Service),
      t.Reaches ⟨service, done ++ calls.map .begin⟩ →
        t.Reaches ⟨calls.foldl (fun service call => service.noteAll call.notes) service,
          done ++ calls.map fun call => (Underway.begin call).finish⟩ from
    hrest _ [] s .refl
  induction calls with
  | nil => exact fun t done service h => h
  | cons call rest ih =>
    intro t done service h
    have hfinished : t.Reaches ⟨service.noteAll call.notes,
        done ++ (Underway.begin call).finish :: rest.map .begin⟩ := Reaches.finish h
    have hlater := ih t (done ++ [(Underway.begin call).finish]) (service.noteAll call.notes)
    rw [List.append_assoc, List.append_assoc] at hlater
    exact hlater hfinished

/-- The calls that ended. -/
def ended (t : Traffic s) : List (Returned s) :=
  (t.calls.filter (·.isOver)).map (·.call)

end Traffic

/-! ## The notes of a call -/

/-- Whether a note changes the number of active calls. -/
def Note.isBracket : Note → Bool
  | .metric .callStarted | .metric .callEnded => true
  | _ => false

/-- Between its start and its end a call does not change the number of active calls. -/
theorem Returned.between_isBracket (c : Returned s) (elapsed : Duration) :
    ∀ n ∈ c.between elapsed, n.isBracket = false := by
  rcases Metrics.exists_updatesOfOutcome c.result elapsed with ⟨micros, indices, hupdates⟩
  have htorn : (Note.metric (Metrics.updateOfTeardown c.outcome.teardown)).isBracket = false := by
    rw [Metrics.updateOfTeardown_eq]
    split
    all_goals rfl
  have hdone : (Note.metric (Metrics.updateOfResult c.result)).isBracket = false := by
    cases c.result
    all_goals rfl
  have hteardown : ∀ n ∈ teardownNotes c.laterCorrelation c.outcome, n.isBracket = false := by
    unfold teardownNotes
    split
    · simpa [Note.isBracket] using htorn
    · simp
  unfold between
  rw [hupdates]
  simp only [List.forall_mem_cons, List.forall_mem_append, List.forall_mem_map, List.map_append,
    List.map_cons, List.map_nil, Metrics.updatesOfWork]
  exact ⟨rfl, ⟨⟨hteardown, rfl, rfl, by simp⟩, ⟨⟨rfl, rfl, rfl, by simp⟩, fun _ _ => rfl⟩, hdone, by simp⟩,
    rfl, by simp⟩

/-- What the next note of a call is: the start, something in between, or the end. -/
theorem Underway.next_cases {u : Underway s} {n : Note} {rest : List Note} (h : u.left = n :: rest) :
    (u.noted = [] ∧ n = .metric .callStarted ∧ rest ≠ []) ∨
      (u.noted ≠ [] ∧ n.isBracket = false ∧ rest ≠ []) ∨
      (u.noted ≠ [] ∧ n = .metric .callEnded ∧ rest = []) := by
  rcases u.call.exists_notes_eq with ⟨elapsed, hnotes⟩
  have hwhole : u.noted ++ n :: rest =
      .metric .callStarted :: (u.call.between elapsed ++ [.metric .callEnded]) := by
    rw [← hnotes, ← h]
    exact u.whole
  cases hnoted : u.noted with
  | nil =>
    rw [hnoted, List.nil_append, List.cons.injEq] at hwhole
    exact .inl ⟨rfl, hwhole.1, by simp [hwhole.2]⟩
  | cons first noted =>
    rw [hnoted, List.cons_append, List.cons.injEq] at hwhole
    refine .inr ?_
    rcases List.eq_nil_or_concat rest with rfl | ⟨rest', last, rfl⟩
    · rcases List.append_inj' hwhole.2 rfl with ⟨_, hlast⟩
      exact .inr ⟨by simp, List.singleton_inj.1 hlast, rfl⟩
    · have hsplit : (noted ++ n :: rest') ++ [last] =
          u.call.between elapsed ++ [.metric .callEnded] := by
        simpa using hwhole.2
      rcases List.append_inj' hsplit rfl with ⟨hbetween, _⟩
      exact .inl ⟨by simp, u.call.between_isBracket elapsed n (by simp [← hbetween]), by simp⟩

end Service

end Footprint
