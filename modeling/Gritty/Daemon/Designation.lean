import Gritty.Daemon.Names

/-!
# What an id designates

`SessionCreated` returns the id of the new session, and the client comes back with it.  Targets are
matched against names first, and a name may be any string, so the id of one session can be the name
of another.  An id designates its own session exactly when no other session has it as its name.

## Main definitions

* `OwnId` : the id resolves to its session, and `Attach` and `KillSession` with it act on that one.
* `NotShadowed` : no other session has the id as its name.

## Main results

* `resolveSession_toString_iff` : what an id resolves to.
* `attach_step`, `kill_step` : what the two requests do with a target that resolves.
* `ownId_iff` : in every reachable state, the id of a live session designates it exactly when it is
  not shadowed.
-/

namespace Gritty

namespace Daemon

/-- The session `id` is in the table, and its task has not finished. -/
def Live (s : State) (id : UInt32) (state : SessionState) : Prop :=
  s.sessions.lookup id = some state ∧ (s.tasks state.handle).isFinished = false

/-- The id of a session, as a target, designates the session. -/
structure OwnId (s : State) (id : UInt32) (state : SessionState) : Prop where
  resolves : resolveSession s.sessions (toString id) = some id
  /-- `Attach` hands the connection to the session's task; if the task has closed its channel, it is
  this session that is dropped. -/
  attach : ∀ framed s', s.control = .reading framed →
    lts.step s (.request (some (.ok (.attach (toString id))))) s' → s'.tasks = s.tasks ∧
      ((s.tasks state.handle).isClosed = false → s'.sessions = s.reap.sessions ∧
        s'.control = .replying framed .ok (.handOff state.handle)) ∧
      ((s.tasks state.handle).isClosed = true → s'.sessions = s.reap.sessions.erase id ∧
        s'.control = .replying framed (noSuchSession (toString id)) .again)
  /-- `KillSession` aborts the session's task and no other, and drops the session. -/
  kill : ∀ framed s', s.control = .reading framed →
    lts.step s (.request (some (.ok (.killSession (toString id))))) s' →
      s'.tasks = Function.update s.tasks state.handle
        { s.tasks state.handle with aborted := true } ∧
      s'.sessions = s.reap.sessions.erase id ∧ s'.control = .replying framed .ok .again

/-- No other session has the id as its name. -/
def NotShadowed (s : State) (id : UInt32) : Prop :=
  ∀ e ∈ s.sessions.entries, e.2.name = some (toString id) → e.1 = id

instance (s : State) (id : UInt32) : Decidable (NotShadowed s id) :=
  inferInstanceAs (Decidable (∀ e ∈ s.sessions.entries, _ → _))

variable {s s' : State} {id : UInt32} {state : SessionState}

theorem live_reap (h : Live s id state) : s.reap.sessions.lookup id = some state :=
  lookup_reap.2 ⟨h.1, h.2⟩

theorem NotShadowed.reap (h : NotShadowed s id) : NotShadowed s.reap id := by
  intro e he
  exact h e (List.mem_of_mem_filter he)

/-- An id resolves to its own session exactly when it is not shadowed. -/
theorem resolveSession_toString_iff (hd : NamesDistinct s.sessions)
    (hl : s.sessions.lookup id = some state) :
    resolveSession s.sessions (toString id) = some id ↔ NotShadowed s id := by
  rw [resolveSession_eq_some_iff hd]
  constructor
  · rintro (⟨state', hl', hn'⟩ | ⟨hno, -⟩) e he hn
    · exact hd _ _ _ _ _ (Table.lookup_eq_some_iff.2 he) hl' hn hn'
    · exact absurd ⟨_, _, Table.lookup_eq_some_iff.2 he, hn⟩ hno
  · intro h
    by_cases hnamed : Named s.sessions (toString id)
    -- a session with the name is the session itself
    · obtain ⟨id', state', hl', hn'⟩ := hnamed
      obtain rfl := h ⟨id', state'⟩ (Table.lookup_eq_some_iff.1 hl') hn'
      exact .inl ⟨state', hl', hn'⟩
    · exact .inr ⟨hnamed, Text.parseU32_toString id, Table.mem_of_lookup hl⟩

/-- What `Attach` does with a target that resolves to a session. -/
theorem attach_step {framed : Conn} {target : String} (hc : s.control = .reading framed)
    (hr : resolveSession s.reap.sessions target = some id)
    (hl : s.reap.sessions.lookup id = some state)
    (h : lts.step s (.request (some (.ok (.attach target)))) s') : s'.tasks = s.tasks ∧
      ((s.tasks state.handle).isClosed = false → s'.sessions = s.reap.sessions ∧
        s'.control = .replying framed .ok (.handOff state.handle)) ∧
      ((s.tasks state.handle).isClosed = true → s'.sessions = s.reap.sessions.erase id ∧
        s'.control = .replying framed (noSuchSession target) .again) := by
  cases serve_of_step hc h with
  | attachNone hr' => simp [hr] at hr'
  | attachClosed hr' hl' hcl =>
    obtain rfl := Option.some.inj (hr.symm.trans hr')
    obtain rfl := Option.some.inj (hl.symm.trans hl')
    exact ⟨rfl, fun hop => by simp [hop] at hcl, fun _ => ⟨rfl, rfl⟩⟩
  | attached hr' hl' hop =>
    obtain rfl := Option.some.inj (hr.symm.trans hr')
    obtain rfl := Option.some.inj (hl.symm.trans hl')
    exact ⟨rfl, fun _ => ⟨rfl, rfl⟩, fun hcl => by simp [hop] at hcl⟩
  | unexpected hn => exact absurd trivial hn

/-- What `KillSession` does with a target that resolves to a session. -/
theorem kill_step {framed : Conn} {target : String} (hc : s.control = .reading framed)
    (hr : resolveSession s.reap.sessions target = some id)
    (hl : s.reap.sessions.lookup id = some state)
    (h : lts.step s (.request (some (.ok (.killSession target)))) s') :
    s'.tasks = Function.update s.tasks state.handle { s.tasks state.handle with aborted := true } ∧
      s'.sessions = s.reap.sessions.erase id ∧ s'.control = .replying framed .ok .again := by
  cases serve_of_step hc h with
  | killNone hr' => simp [hr] at hr'
  | killed hr' hl' =>
    obtain rfl := Option.some.inj (hr.symm.trans hr')
    obtain rfl := Option.some.inj (hl.symm.trans hl')
    exact ⟨rfl, rfl, rfl⟩
  | unexpected hn => exact absurd trivial hn

/-- **An id designates its own session unless it is the name of another.**  In every reachable
state, the id of a live session resolves to it, and `Attach` and `KillSession` with the id act on
it and on no other session, if and only if no other session of the table has the id as its name. -/
theorem ownId_iff (h : lts.Reachable .init s) (hl : Live s id state) :
    OwnId s id state ↔ NotShadowed s id := by
  have hd := (TableInv.of_reachable h).distinct
  have hiff := resolveSession_toString_iff hd hl.1
  refine ⟨fun ho => hiff.1 ho.resolves, ?_⟩
  intro hn
  have hd' : NamesDistinct s.reap.sessions :=
    ((TableInv.of_reachable h).of_shrinks shrinks_reap).distinct
  have hr : resolveSession s.reap.sessions (toString id) = some id :=
    (resolveSession_toString_iff hd' (live_reap hl)).2 hn.reap
  exact ⟨hiff.2 hn, fun framed s' hc hst => attach_step hc hr (live_reap hl) hst,
    fun framed s' hc hst => kill_step hc hr (live_reap hl) hst⟩

/-- Two sessions, the second with the name `work`. -/
def workEvents : List Event := newSessionEvents "" ++ newSessionEvents "work"

/-- Both ids designate their own sessions. -/
theorem ownId_iff_work :
    ∃ s, LTS.exec step .init workEvents = some s ∧ OwnId s 0 ⟨0, none⟩ ∧
      OwnId s 1 ⟨1, some "work"⟩ := by
  have h : ∃ s, LTS.exec step .init workEvents = some s ∧ Live s 0 ⟨0, none⟩ ∧
      Live s 1 ⟨1, some "work"⟩ ∧ NotShadowed s 0 ∧ NotShadowed s 1 :=
    ⟨_, rfl, ⟨rfl, rfl⟩, ⟨rfl, rfl⟩, by decide, by decide⟩
  obtain ⟨s, h, hl₀, hl₁, hn₀, hn₁⟩ := h
  have hr := (LTS.run_of_exec h).reachable
  exact ⟨s, h, (ownId_iff hr hl₀).2 hn₀, (ownId_iff hr hl₁).2 hn₁⟩

/-- Two sessions, the second with the id of the first as its name, and a connection accepted. -/
def shadowEvents : List Event :=
  newSessionEvents "" ++ newSessionEvents "0" ++ [.connect, .reap, .accept true]

/-- The id 0 resolves to session 1, and killing it kills session 1. -/
theorem not_ownId_shadow :
    ∃ s s', lts.Reachable .init s ∧ Live s 0 ⟨0, none⟩ ∧ Live s 1 ⟨1, some "0"⟩ ∧
      resolveSession s.sessions (toString (0 : UInt32)) = some 1 ∧
      lts.step s (.request (some (.ok (.killSession (toString (0 : UInt32)))))) s' ∧
      (s'.tasks 1).aborted = true ∧ (s'.tasks 0).aborted = false ∧ (1 : UInt32) ∉ s'.sessions ∧
      ¬ OwnId s 0 ⟨0, none⟩ := by
  have h : ∃ s s', LTS.exec step .init shadowEvents = some s ∧ Live s 0 ⟨0, none⟩ ∧
      Live s 1 ⟨1, some "0"⟩ ∧ resolveSession s.sessions (toString (0 : UInt32)) = some 1 ∧
      lts.step s (.request (some (.ok (.killSession (toString (0 : UInt32)))))) s' ∧
      (s'.tasks 1).aborted = true ∧ (s'.tasks 0).aborted = false ∧ (1 : UInt32) ∉ s'.sessions :=
    ⟨_, _, rfl, ⟨rfl, rfl⟩, ⟨rfl, rfl⟩, rfl, rfl, rfl, rfl, by decide⟩
  obtain ⟨s, s', h, hl₀, hl₁, hr, hst, ha₁, ha₀, hm⟩ := h
  refine ⟨s, s', (LTS.run_of_exec h).reachable, hl₀, hl₁, hr, hst, ha₁, ha₀, hm, ?_⟩
  intro ho
  have heq : (some 1 : Option UInt32) = some 0 := hr.symm.trans ho.resolves
  exact absurd heq (by decide)

end Daemon

end Gritty
