import Gritty.Daemon.Basic

/-!
# The moves of the daemon

`Serve` lists the outcomes of a control request and `Step` the moves of the daemon with its tasks,
one constructor for each branch of the code.  All invariants of the daemon are shown by cases on
them, and none looks at `step` again.

The two lookups that the code makes without a check never fail, since a resolved id is a key of the
table, so that no branch of the lists is a panic.

## Main results

* `mem_of_resolveSession` : a resolved id is a key of the table.
* `serve_cases` : every request has one of the listed outcomes.
* `step_cases` : every step is one of the listed moves.
* `serve_of_step` : a request that is read is served on its connection.
-/

namespace Gritty

namespace Daemon

variable {s s' : State} {sessions : Sessions} {target : String} {id : UInt32}

/-- Some session of the table has the name `n`. -/
def Named (sessions : Sessions) (n : String) : Prop :=
  ∃ id state, sessions.lookup id = some state ∧ state.name = some n

theorem any_name_iff {n : String} :
    (sessions.entries.any fun e => e.2.name == some n) = true ↔ Named sessions n := by
  rw [List.any_eq_true]
  constructor
  · rintro ⟨⟨id, state⟩, he, hn⟩
    exact ⟨id, state, Table.lookup_eq_some_iff.2 he, by simpa using hn⟩
  · rintro ⟨id, state, hl, hn⟩
    exact ⟨⟨id, state⟩, Table.lookup_eq_some_iff.1 hl, by simpa using hn⟩

/-- A resolved id is a key of the table. -/
theorem mem_of_resolveSession (h : resolveSession sessions target = some id) : id ∈ sessions := by
  unfold resolveSession at h
  split at h
  · next e he =>
    obtain rfl := Option.some.inj h
    exact Table.mem_of_lookup (Table.lookup_eq_some_iff.2 (List.mem_of_find?_eq_some he))
  · split at h
    · split at h
      · next hm => exact Option.some.inj h ▸ hm
      · cases h
    · cases h

/-- The frames that the daemon takes as requests. -/
def IsRequest : Frame → Prop
  | .newSession _ | .attach _ | .listSessions | .killSession _ | .killServer => True
  | _ => False

/-- The outcomes of a control request. -/
inductive Serve (s : State) (framed : Conn) : Frame → State → Prop
  | duplicate {name} : name ≠ "" → Named s.sessions name →
      Serve s framed (.newSession name)
        (s.reply framed (.error ("session name already exists: " ++ name)) .again)
  | created {name} : (name ≠ "" → ¬ Named s.sessions name) →
      Serve s framed (.newSession name) (s.create framed (nameOpt name))
  | attachNone {session} : resolveSession s.reap.sessions session = none →
      Serve s framed (.attach session) (s.reap.reply framed (noSuchSession session) .again)
  | attachClosed {session id state} : resolveSession s.reap.sessions session = some id →
      s.reap.sessions.lookup id = some state → (s.tasks state.handle).isClosed = true →
      Serve s framed (.attach session)
        ({ s.reap with sessions := s.reap.sessions.erase id }.reply framed (noSuchSession session)
          .again)
  | attached {session id state} : resolveSession s.reap.sessions session = some id →
      s.reap.sessions.lookup id = some state → (s.tasks state.handle).isClosed = false →
      Serve s framed (.attach session) (s.reap.reply framed .ok (.handOff state.handle))
  | listed : Serve s framed .listSessions (s.reap.list framed)
  | killNone {session} : resolveSession s.reap.sessions session = none →
      Serve s framed (.killSession session) (s.reap.reply framed (noSuchSession session) .again)
  | killed {session id state} : resolveSession s.reap.sessions session = some id →
      s.reap.sessions.lookup id = some state →
      Serve s framed (.killSession session)
        (({ s.reap with sessions := s.reap.sessions.erase id }.abort state.handle).reply framed .ok
          .again)
  | shutdown : Serve s framed .killServer (s.shutdown.reply framed .ok .quit)
  | unexpected {frame} : ¬ IsRequest frame →
      Serve s framed frame (s.reply framed (.error "unexpected frame type") .again)

theorem nameOpt_eq_some_iff {name n : String} : nameOpt name = some n ↔ name ≠ "" ∧ name = n := by
  simp [nameOpt]

theorem newSession_cases (framed : Conn) (name : String) :
    Serve s framed (.newSession name) (s.newSession framed name) := by
  unfold State.newSession
  split
  · next n hn =>
    obtain ⟨hne, rfl⟩ := nameOpt_eq_some_iff.1 hn
    by_cases hd : (s.sessions.entries.any fun e => e.2.name == some name) = true
    · rw [if_pos hd]
      exact .duplicate hne (any_name_iff.1 hd)
    · rw [if_neg hd, ← hn]
      exact .created fun _ hd' => hd (any_name_iff.2 hd')
  · next hn =>
    -- without a name nothing is looked up
    have hname : name = "" := by simpa [nameOpt] using hn
    rw [← hn]
    exact .created fun hne => absurd hname hne

theorem attach_cases (framed : Conn) (session : String) :
    Serve s framed (.attach session) (s.reap.attach framed session) := by
  unfold State.attach
  split
  · next id hr =>
    -- `sessions[&id]`
    obtain ⟨state, hl⟩ := Table.exists_lookup_of_mem (mem_of_resolveSession hr)
    rw [hl]
    show Serve s framed (.attach session) (if (s.tasks state.handle).isClosed then _ else _)
    by_cases hc : (s.tasks state.handle).isClosed = true
    · rw [if_pos hc]
      exact .attachClosed hr hl hc
    · rw [if_neg hc]
      exact .attached hr hl (Bool.eq_false_iff.2 hc)
  · next hr => exact .attachNone hr

theorem kill_cases (framed : Conn) (session : String) :
    Serve s framed (.killSession session) (s.reap.kill framed session) := by
  unfold State.kill
  split
  · next id hr =>
    -- `sessions.remove(&id).unwrap()`
    obtain ⟨state, hl⟩ := Table.exists_lookup_of_mem (mem_of_resolveSession hr)
    rw [hl]
    exact .killed hr hl
  · next hr => exact .killNone hr

/-- **Every request has one of the listed outcomes.** -/
theorem serve_cases (framed : Conn) (frame : Frame) :
    Serve s framed frame (s.serve framed frame) := by
  cases frame with
  | newSession name => exact newSession_cases framed name
  | attach session => exact attach_cases framed session
  | listSessions => exact .listed
  | killSession session => exact kill_cases framed session
  | killServer => exact .shutdown
  | _ => exact .unexpected not_false

/-- The moves, branch by branch. -/
inductive Step (s : State) : Event → State → Prop
  | task {handle e server} : handle < s.issued.length → s.allows handle e = true →
      Server.lts.step (s.tasks handle).server e server →
      Step s (.task handle e)
        { s with tasks := Function.update s.tasks handle { s.tasks handle with server := server } }
  | finish {handle} : handle < s.issued.length → (s.tasks handle).isClosed = true →
      Step s (.finish handle)
        { s with
          tasks := Function.update s.tasks handle { s.tasks handle with isFinished := true } }
  | rehash {sessions'} : sessions'.entries.Perm s.sessions.entries →
      Step s (.rehash sessions') { s with sessions := sessions' }
  | connect : Step s .connect
      { s with backlog := s.backlog ++ [s.connected], connected := s.connected + 1 }
  | reap : s.control = .top → Step s .reap { s.reap with control := .accepting }
  | accept {framed backlog} : s.control = .accepting → s.backlog = framed :: backlog →
      Step s (.accept true) { s with backlog := backlog, control := .reading framed }
  | refuse {framed backlog} : s.control = .accepting → s.backlog = framed :: backlog →
      Step s (.accept false) { s with backlog := backlog, control := .top }
  | acceptErr : s.control = .accepting →
      Step s .acceptErr { s with sessions := ∅, control := .returned false }
  | signal : s.control = .accepting →
      Step s .signal { s.shutdown with control := .returned true }
  | noRequest {framed r} : s.control = .reading framed → (∀ frame, r ≠ some (.ok frame)) →
      Step s (.request r) { s with control := .top }
  | request {framed frame s'} : s.control = .reading framed → Serve s framed frame s' →
      Step s (.request (some (.ok frame))) s'
  | replied {framed reply next ok} : s.control = .replying framed reply next →
      Step s (.replied ok)
        ({ s with replies := if ok then s.replies ++ [(framed, reply)] else s.replies }.proceed
          framed next)

/-- **Every step is one of the listed moves.** -/
theorem step_cases {e : Event} (h : lts.step s e s') : Step s e s' := by
  change step s e = some s' at h
  unfold step at h
  split at h
  -- the tasks and the world
  · next handle e =>
    unfold State.stepTask at h
    by_cases hk : handle < s.issued.length ∧ s.allows handle e = true
    · rw [if_pos hk] at h
      obtain ⟨server, hs, rfl⟩ := Option.map_eq_some_iff.1 h
      exact .task hk.1 hk.2 hs
    · rw [if_neg hk] at h
      cases h
  · next handle =>
    by_cases hk : handle < s.issued.length ∧ (s.tasks handle).isClosed = true
    · rw [if_pos hk] at h
      obtain rfl := Option.some.inj h
      exact .finish hk.1 hk.2
    · rw [if_neg hk] at h
      cases h
  · next sessions' =>
    by_cases hp : sessions'.entries.Perm s.sessions.entries
    · rw [if_pos hp] at h
      obtain rfl := Option.some.inj h
      exact .rehash hp
    · rw [if_neg hp] at h
      cases h
  · obtain rfl := Option.some.inj h
    exact .connect
  -- the control loop
  · split at h
    · next hc =>
      obtain rfl := Option.some.inj h
      exact .reap hc
    · cases h
  · next sameUid =>
    split at h
    · next hc hb =>
      obtain rfl := Option.some.inj h
      cases sameUid
      · exact .refuse hc hb
      · exact .accept hc hb
    · cases h
  · split at h
    · next hc =>
      obtain rfl := Option.some.inj h
      exact .acceptErr hc
    · cases h
  · split at h
    · next hc =>
      obtain rfl := Option.some.inj h
      exact .signal hc
    · cases h
  -- `let Some(Ok(frame)) = framed.next().await else`
  · split at h
    · next hc =>
      split at h
      · obtain rfl := Option.some.inj h
        exact .request hc (serve_cases _ _)
      · next hr =>
        obtain rfl := Option.some.inj h
        exact .noRequest hc hr
    · cases h
  · split at h
    · next hc =>
      obtain rfl := Option.some.inj h
      exact .replied hc
    · cases h

/-- A request that is read is served on its connection. -/
theorem serve_of_step {framed : Conn} {frame : Frame} (hc : s.control = .reading framed)
    (h : lts.step s (.request (some (.ok frame))) s') : Serve s framed frame s' := by
  cases step_cases h with
  | noRequest _ hno => exact absurd rfl (hno frame)
  | request hc' hs =>
    obtain rfl := Control.reading.inj (hc.symm.trans hc')
    exact hs

end Daemon

end Gritty
