import Gritty.Daemon.Table

/-!
# Refusing a name

`NewSession` with a name should be refused exactly when an unfinished session has that name.  The
code looks the name up in the table, which it reaps at the loop head but not after the connection
and the request were awaited, so that a session that finished meanwhile still keeps its name.

## Main definitions

* `RefusalExact` : a request is refused if an unfinished session has its name, and creates a session
  otherwise.
* `StaleName` : the table still has a finished session of that name.

## Main results

* `not_finishedNamed` : an unfinished session and a finished one never share a name.
* `refusalExact_iff` : in every run, names are refused exactly if and only if no name is stale when
  a request is served.
-/

namespace Gritty

namespace Daemon

/-- The name that a move asks a new session for. -/
def requestedName (m : Move State Event) : Option String :=
  match m.src.control, m.lbl with
  | .reading _, .request (some (.ok (.newSession name))) => nameOpt name
  | _, _ => none

/-- A session of the table has the name `n`, and its task has not finished. -/
def UnfinishedNamed (s : State) (n : String) : Prop :=
  ∃ e ∈ s.sessions.entries, e.2.name = some n ∧ (s.tasks e.2.handle).isFinished = false

/-- A session of the table has the name `n`, but its task has finished. -/
def FinishedNamed (s : State) (n : String) : Prop :=
  ∃ e ∈ s.sessions.entries, e.2.name = some n ∧ (s.tasks e.2.handle).isFinished = true

instance (s : State) (n : String) : Decidable (FinishedNamed s n) :=
  inferInstanceAs (Decidable (∃ e ∈ s.sessions.entries, _ ∧ _))

/-- The answer to a move's request is an error. -/
def AnsweredError (m : Move State Event) : Prop :=
  ∃ framed message, m.dst.control = .replying framed (.error message) .again

/-- A move creates a session with the name `n`, with a fresh task that gets the connection. -/
def CreatedNamed (m : Move State Event) (n : String) : Prop :=
  ∃ framed id, m.src.control = .reading framed ∧
    m.dst.control =
      .replying framed (.sessionCreated (toString id)) (.handOff m.src.issued.length) ∧
    m.dst.issued = m.src.issued ++ [id] ∧
    m.dst.sessions.lookup id = some ⟨m.src.issued.length, some n⟩ ∧
    m.dst.tasks m.src.issued.length = .spawned

/-- The refusal of a name is exact. -/
def RefusalExact (m : Move State Event) : Prop :=
  ∀ n ∈ requestedName m,
    (AnsweredError m ↔ UnfinishedNamed m.src n) ∧ (¬ UnfinishedNamed m.src n → CreatedNamed m n)

/-- The requested name is that of a finished session which is still in the table. -/
def StaleName (m : Move State Event) : Prop := ∃ n ∈ requestedName m, FinishedNamed m.src n

instance : DecidablePred StaleName :=
  fun m => inferInstanceAs (Decidable (∃ n ∈ requestedName m, FinishedNamed m.src n))

variable {s s' : State} {m : Move State Event} {n : String} {tr : List (Move State Event)}

theorem named_iff : Named s.sessions n ↔ UnfinishedNamed s n ∨ FinishedNamed s n := by
  constructor
  · rintro ⟨id, state, hl, hn⟩
    have he := Table.lookup_eq_some_iff.1 hl
    cases hf : (s.tasks state.handle).isFinished
    · exact .inl ⟨⟨id, state⟩, he, hn, hf⟩
    · exact .inr ⟨⟨id, state⟩, he, hn, hf⟩
  · rintro (⟨e, he, hn, -⟩ | ⟨e, he, hn, -⟩) <;>
      exact ⟨e.1, e.2, Table.lookup_eq_some_iff.2 he, hn⟩

/-- An unfinished session and a finished one do not have the same name. -/
theorem not_finishedNamed (hd : NamesDistinct s.sessions) (hu : UnfinishedNamed s n) :
    ¬ FinishedNamed s n := by
  obtain ⟨⟨id, state⟩, he, hn, hf⟩ := hu
  rintro ⟨⟨id', state'⟩, he', hn', hf'⟩
  have hl := Table.lookup_eq_some_iff.2 he
  have hl' := Table.lookup_eq_some_iff.2 he'
  obtain rfl := hd _ _ _ _ _ hl hl' hn hn'
  rw [hl] at hl'
  obtain rfl := Option.some.inj hl'
  rw [hf] at hf'
  cases hf'

theorem eq_of_requestedName (h : requestedName m = some n) :
    (∃ framed, m.src.control = .reading framed) ∧
      m.lbl = .request (some (.ok (.newSession n))) ∧ nameOpt n = some n ∧ n ≠ "" := by
  unfold requestedName at h
  split at h
  · next framed name hc hl =>
    obtain ⟨hne, rfl⟩ := nameOpt_eq_some_iff.1 h
    exact ⟨⟨framed, hc⟩, hl, h, hne⟩
  · cases h

theorem request_name (hr : requestedName m = some n) (h : lts.step m.src m.lbl m.dst) :
    (Named m.src.sessions n ∧ AnsweredError m) ∨
      (¬ Named m.src.sessions n ∧ ¬ AnsweredError m ∧ CreatedNamed m n) := by
  obtain ⟨⟨framed, hc⟩, hl, ho, hne⟩ := eq_of_requestedName hr
  obtain ⟨src, lbl, dst⟩ := m
  obtain rfl : lbl = _ := hl
  have hs : Serve src framed (.newSession n) dst := serve_of_step hc h
  cases hs with
  | duplicate _ hn => exact .inl ⟨hn, framed, _, rfl⟩
  | created hn =>
    refine .inr ⟨hn hne, ?_, ?_⟩
    · rintro ⟨_, _, he⟩
      cases he
    · rw [ho]
      exact ⟨framed, src.nextId, hc, rfl, rfl, lookup_create.2 (.inl ⟨rfl, rfl⟩),
        Function.update_self _ _ _⟩
  | unexpected hn => exact absurd trivial hn

theorem refusalExact_move (hd : NamesDistinct m.src.sessions) (h : lts.step m.src m.lbl m.dst) :
    RefusalExact m ↔ ¬ StaleName m := by
  constructor
  · rintro he ⟨n, hn, hf⟩
    have hnamed : Named m.src.sessions n := named_iff.2 (.inr hf)
    have hu : UnfinishedNamed m.src n := by
      rcases request_name hn h with ⟨-, ha⟩ | ⟨hno, -⟩
      · exact (he n hn).1.1 ha
      · exact absurd hnamed hno
    exact not_finishedNamed hd hu hf
  · intro hs n hn
    have hf : ¬ FinishedNamed m.src n := fun hf => hs ⟨n, hn, hf⟩
    have hiff : Named m.src.sessions n ↔ UnfinishedNamed m.src n := by
      rw [named_iff, or_iff_left hf]
    rcases request_name hn h with ⟨hnamed, ha⟩ | ⟨hno, ha, hc⟩
    · exact ⟨iff_of_true ha (hiff.1 hnamed), fun hno => absurd (hiff.1 hnamed) hno⟩
    · exact ⟨iff_of_false ha (mt hiff.2 hno), fun _ => hc⟩

/-- **Names are refused exactly, unless a name is stale.**  In every run of the daemon, each
`NewSession` with a name is refused if and only if an unfinished session has the name, and creates
a session with that name otherwise, exactly when no such request asks for the name of a finished
session that is still in the table. -/
theorem refusalExact_iff (hr : lts.Run .init tr s) :
    (∀ m ∈ tr, RefusalExact m) ↔ ∀ m ∈ tr, ¬ StaleName m := by
  refine forall₂_congr ?_
  intro m hm
  obtain ⟨hst, _, _, -, hm'⟩ := hr.move hm
  exact refusalExact_move (TableInv.of_reachable hm'.reachable).distinct hst

/-- One connection with a `NewSession` request. -/
def newSessionEvents (name : String) : List Event :=
  [.connect, .reap, .accept true, .request (some (.ok (.newSession name))), .replied true]

/-- A name is asked for twice while its session runs: the second request is refused. -/
theorem refusalExact_iff_running :
    ∃ s, LTS.exec step .init (newSessionEvents "work" ++ newSessionEvents "work") = some s ∧
      ∀ m ∈ LTS.trace step .init (newSessionEvents "work" ++ newSessionEvents "work"),
        RefusalExact m := by
  have h : ∃ s, LTS.exec step .init (newSessionEvents "work" ++ newSessionEvents "work") = some s :=
    ⟨_, rfl⟩
  obtain ⟨s, h⟩ := h
  exact ⟨s, h, (refusalExact_iff (LTS.run_of_exec h)).2 (by decide)⟩

/-- The session `work` finishes while the daemon waits for the next connection. -/
def staleEvents : List Event :=
  newSessionEvents "work" ++
    [.reap, .task 0 (.openpty none), .finish 0, .connect, .accept true]

/-- The session has finished before the request arrives, and yet its name is refused. -/
theorem not_refusalExact_stale :
    ∃ tr s s', lts.Run .init tr s ∧ tr.map Move.lbl = staleEvents ∧
      (s.tasks 0).isFinished = true ∧ ¬ UnfinishedNamed s "work" ∧
      lts.step s (.request (some (.ok (.newSession "work")))) s' ∧
      s'.control = .replying 1 (.error "session name already exists: work") .again ∧
      ¬ RefusalExact ⟨s, .request (some (.ok (.newSession "work"))), s'⟩ := by
  have h : ∃ s s', LTS.exec step .init staleEvents = some s ∧ (s.tasks 0).isFinished = true ∧
      s.sessions.entries = [⟨0, ⟨0, some "work"⟩⟩] ∧ s.control = .reading 1 ∧
      step s (.request (some (.ok (.newSession "work")))) = some s' ∧
      s'.control = .replying 1 (.error "session name already exists: work") .again :=
    ⟨_, _, rfl, rfl, rfl, rfl, rfl, rfl⟩
  obtain ⟨s, s', h, hf, hs, hc, hst, hc'⟩ := h
  have hu : ¬ UnfinishedNamed s "work" := by
    rintro ⟨e, he, -, hf'⟩
    rw [hs] at he
    obtain rfl := List.mem_singleton.1 he
    rw [hf] at hf'
    cases hf'
  refine ⟨_, s, s', LTS.run_of_exec h, rfl, hf, hu, hst, hc', fun hx => hu ?_⟩
  have hr : requestedName ⟨s, .request (some (.ok (.newSession "work"))), s'⟩ = some "work" := by
    simp [requestedName, hc, nameOpt]
  exact (hx "work" hr).1.1 ⟨_, _, hc'⟩

end Daemon

end Gritty
