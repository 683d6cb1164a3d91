import Gritty.Daemon.Names

/-!
# What a request touches

A connection carries one request.  `Handles` is the whole handling of it, up to the loop head: the
request is served, the reply is sent, and the connection may be handed to a task.  `TouchesOnly`
says what may change on the way: the session that is created or resolved, and sessions that had
finished or whose channel was closed.

## Main definitions

* `WellKept` : what the table and the tasks have to satisfy, in reachable states and in others.
* `Handles` : one connection, from the request to the loop head.
* `TouchesOnly` : what is left alone, for the table, the tasks, and the counter of ids.

## Main results

* `WellKept.of_reachable` : reachable states are well kept.
* `touchesOnly_attached`, `touchesOnly_killed`, `touchesOnly_created` : the requests that succeed.
* `touchesOnly` : no request but `KillServer` touches more than the session that it names, and a
  request that fails touches none.
-/

namespace Gritty

namespace Daemon

/-- The table invariant.  A `JoinHandle` belongs to one entry, so each session has a spawned task of
its own. -/
structure WellKept (s : State) : Prop where
  keys : ∀ id ∈ s.sessions, id < s.nextId
  names : NamesDistinct s.sessions
  spawned : ∀ id state, s.sessions.lookup id = some state → state.handle < s.issued.length
  own : ∀ id id' state state', s.sessions.lookup id = some state →
    s.sessions.lookup id' = some state' → state.handle = state'.handle → id = id'

/-- One connection is handled, with a reply or without. -/
inductive Handles (s : State) (framed : Conn) (r : Server.NextFrame) : Option Frame → State → Prop
  | silent {s'} : s.control = .reading framed → lts.step s (.request r) s' → s'.control = .top →
      Handles s framed r none s'
  | replied {s₁ s' reply next ok} : s.control = .reading framed → lts.step s (.request r) s₁ →
      s₁.control = .replying framed reply next → lts.step s₁ (.replied ok) s' →
      Handles s framed r (some reply) s'

/-- The session that a request creates or resolves. -/
def subject (s : State) : Server.NextFrame → Option UInt32
  | some (.ok (.newSession _)) => some s.nextId
  | some (.ok (.attach target)) | some (.ok (.killSession target)) =>
    resolveSession s.reap.sessions target
  | _ => none

/-- The session had finished, or its channel was closed. -/
def Gone (s : State) (state : SessionState) : Prop :=
  (s.tasks state.handle).isFinished = true ∨ (s.tasks state.handle).isClosed = true

/-- The request creates a session. -/
def CreatesSession (r : Server.NextFrame) (reply : Option Frame) : Prop :=
  ∃ name id, r = some (.ok (.newSession name)) ∧ reply = some (.sessionCreated id)

/-- The request kills a session. -/
def KillsSession (r : Server.NextFrame) (reply : Option Frame) : Prop :=
  ∃ target, r = some (.ok (.killSession target)) ∧ reply = some .ok

/-- No reply, or an `Error`. -/
def Fails : Option Frame → Prop
  | none | some (.error _) => True
  | _ => False

/-- What the handling of a connection may change. -/
structure TouchesOnly (s : State) (framed : Conn) (r : Server.NextFrame) (reply : Option Frame)
    (s' : State) : Prop where
  nextId : s'.nextId = s.nextId ∨ CreatesSession r reply ∧ s'.nextId = s.nextId + 1
  /-- an entry is lost only if it was gone, or if it is the one that is killed -/
  lost : ∀ id state, s.sessions.lookup id = some state → s'.sessions.lookup id = some state ∨
    id ∉ s'.sessions ∧ (Gone s state ∨ KillsSession r reply ∧ subject s r = some id)
  /-- an entry is new only if it is the one that is created -/
  gained : ∀ id state, s'.sessions.lookup id = some state → s.sessions.lookup id = some state ∨
    CreatesSession r reply ∧ id = s.nextId
  /-- the new entry has the next id and the name asked for -/
  created : ∀ name id, r = some (.ok (.newSession name)) → reply = some (.sessionCreated id) →
    id = toString s.nextId ∧ s'.nextId = s.nextId + 1 ∧ s.nextId ∉ s.sessions ∧
      s'.sessions.lookup s.nextId = some ⟨s.issued.length, nameOpt name⟩
  killed : KillsSession r reply → ∃ id, subject s r = some id ∧ id ∈ s.sessions ∧ id ∉ s'.sessions
  /-- the task of every other entry is left alone, with its metadata and its channel -/
  tasks : ∀ id state, s.sessions.lookup id = some state → subject s r ≠ some id →
    s'.tasks state.handle = s.tasks state.handle
  /-- the connection goes to one task at most, of the session created or resolved -/
  handedOff : s'.handOffs = s.handOffs ∨ ∃ id state, subject s r = some id ∧
    s'.sessions.lookup id = some state ∧ s'.handOffs = s.handOffs ++ [(framed, state.handle)]
  /-- a failure touches no task and hands nothing over -/
  failed : Fails reply → s'.nextId = s.nextId ∧ s'.tasks = s.tasks ∧ s'.issued = s.issued ∧
    s'.handOffs = s.handOffs

variable {s s' s₁ : State} {framed : Conn} {r : Server.NextFrame} {reply : Option Frame}

theorem WellKept.of_reachable (h : lts.Reachable .init s) (hn : s.issued.length < 2 ^ 32) :
    WellKept s := by
  have hi := TableInv.of_reachable h
  refine ⟨fun id hid => hi.lt_nextId hn hid, hi.distinct, fun id state hl => ?_, ?_⟩
  · exact (List.getElem?_eq_some_iff.mp (hi.handle id state hl)).1
  · intro id id' state state' hl hl' heq
    have hid := hi.handle id state hl
    rw [heq, hi.handle id' state' hl'] at hid
    exact (Option.some.inj hid).symm

/-- The table only lost sessions that were gone, and nothing else has changed. -/
structure Prunes (s s' : State) : Prop where
  nextId : s'.nextId = s.nextId
  issued : s'.issued = s.issued
  lost : ∀ id state, s.sessions.lookup id = some state →
    s'.sessions.lookup id = some state ∨ id ∉ s'.sessions ∧ Gone s state
  kept : ∀ id state, s'.sessions.lookup id = some state → s.sessions.lookup id = some state

theorem notMem_of_lookup {sessions : Sessions} {id : UInt32}
    (h : ∀ state, sessions.lookup id ≠ some state) : id ∉ sessions := by
  intro hm
  obtain ⟨state, hl⟩ := Table.exists_lookup_of_mem hm
  exact h state hl

theorem prunes_refl (s : State) : Prunes s s := ⟨rfl, rfl, fun _ _ hl => .inl hl, fun _ _ hl => hl⟩

theorem prunes_reap (s : State) : Prunes s s.reap where
  nextId := rfl
  issued := rfl
  lost id state hl := by
    cases hf : (s.tasks state.handle).isFinished with
    | false => exact .inl (lookup_reap.mpr ⟨hl, hf⟩)
    | true =>
      refine .inr ⟨notMem_of_lookup fun state' hl' => ?_, .inl hf⟩
      obtain ⟨hl', hf'⟩ := lookup_reap.mp hl'
      obtain rfl := Option.some.inj (hl.symm.trans hl')
      simp [hf] at hf'
  kept id state hl := (lookup_reap.mp hl).1

theorem prunes_erase {id : UInt32} {state : SessionState} (hl : s.sessions.lookup id = some state)
    (hgone : Gone s state) : Prunes s { s.reap with sessions := s.reap.sessions.erase id } where
  nextId := rfl
  issued := rfl
  lost id' state' hl' := by
    by_cases heq : id' = id
    · subst heq
      obtain rfl := Option.some.inj (hl.symm.trans hl')
      exact .inr ⟨by simp, hgone⟩
    · obtain hreap | ⟨hm, hgone'⟩ := (prunes_reap s).lost id' state' hl'
      · exact .inl (Table.lookup_erase_iff.mpr ⟨heq, hreap⟩)
      · exact .inr ⟨fun h => hm (AList.mem_erase.mp h).2, hgone'⟩
  kept id' state' hl' := (prunes_reap s).kept id' state' (Table.lookup_erase_iff.mp hl').2

namespace Prunes

theorem congr (h : Prunes s s₁) (hn : s'.nextId = s₁.nextId) (hi : s'.issued = s₁.issued)
    (hs : s'.sessions = s₁.sessions) : Prunes s s' := by
  refine ⟨hn.trans h.nextId, hi.trans h.issued, fun id state hl => ?_, fun id state hl => ?_⟩
  · rw [hs]
    exact h.lost id state hl
  · rw [hs] at hl
    exact h.kept id state hl

theorem touches (h : Prunes s s') (hcreate : ¬CreatesSession r reply)
    (hkill : ¬KillsSession r reply) (htasks : s'.tasks = s.tasks)
    (hhand : s'.handOffs = s.handOffs) : TouchesOnly s framed r reply s' where
  nextId := .inl h.nextId
  lost id state hl := (h.lost id state hl).imp_right fun ⟨hm, hg⟩ => ⟨hm, .inl hg⟩
  gained id state hl := .inl (h.kept id state hl)
  created name id hr hreply := absurd ⟨name, id, hr, hreply⟩ hcreate
  killed hk := absurd hk hkill
  tasks _ _ _ _ := by rw [htasks]
  handedOff := .inl hhand
  failed _ := ⟨h.nextId, htasks, h.issued, hhand⟩

end Prunes

theorem WellKept.tasks_update (hw : WellKept s) {id id' : UInt32} {state state' : SessionState}
    (hl : s.sessions.lookup id = some state) (hl' : s.sessions.lookup id' = some state')
    (hne : id ≠ id') (task : Task) :
    Function.update s.tasks state.handle task state'.handle = s.tasks state'.handle :=
  Function.update_of_ne (fun heq => hne (hw.own id id' state state' hl hl' heq.symm)) _ _

theorem touchesOnly_attached (hw : WellKept s) {session : String} {id : UInt32}
    {state : SessionState} (hr : resolveSession s.reap.sessions session = some id)
    (hl : s.reap.sessions.lookup id = some state) (hp : Prunes s s')
    (hsessions : s'.sessions = s.reap.sessions)
    (htasks : s'.tasks = Function.update s.tasks state.handle ((s.tasks state.handle).send framed))
    (hhand : s'.handOffs = s.handOffs ++ [(framed, state.handle)]) :
    TouchesOnly s framed (some (.ok (.attach session))) (some .ok) s' where
  nextId := .inl hp.nextId
  lost id' state' hl' := (hp.lost id' state' hl').imp_right fun ⟨hm, hg⟩ => ⟨hm, .inl hg⟩
  gained id' state' hl' := .inl (hp.kept id' state' hl')
  created _ _ h := by cases h
  killed := by
    rintro ⟨_, h, -⟩
    cases h
  tasks id' state' hl' hne := by
    have hne' : id ≠ id' := fun h => hne (h ▸ hr)
    rw [htasks, hw.tasks_update (lookup_reap.mp hl).1 hl' hne']
  handedOff := .inr ⟨id, state, hr, hsessions ▸ hl, hhand⟩
  failed h := h.elim

theorem touchesOnly_killed (hw : WellKept s) {session : String} {id : UInt32}
    {state : SessionState} {task : Task} (hr : resolveSession s.reap.sessions session = some id)
    (hl : s.reap.sessions.lookup id = some state) (hnext : s'.nextId = s.nextId)
    (hsessions : s'.sessions = s.reap.sessions.erase id)
    (htasks : s'.tasks = Function.update s.tasks state.handle task)
    (hhand : s'.handOffs = s.handOffs) :
    TouchesOnly s framed (some (.ok (.killSession session))) (some .ok) s' where
  nextId := .inl hnext
  lost id' state' hl' := by
    rw [hsessions]
    by_cases heq : id' = id
    · subst heq
      exact .inr ⟨by simp, .inr ⟨⟨session, rfl, rfl⟩, hr⟩⟩
    · obtain hreap | ⟨hm, hgone⟩ := (prunes_reap s).lost id' state' hl'
      · exact .inl (Table.lookup_erase_iff.mpr ⟨heq, hreap⟩)
      · exact .inr ⟨fun h => hm (AList.mem_erase.mp h).2, .inl hgone⟩
  gained id' state' hl' := by
    rw [hsessions] at hl'
    exact .inl (lookup_reap.mp (Table.lookup_erase_iff.mp hl').2).1
  created _ _ h := by cases h
  killed _ := ⟨id, hr, Table.mem_of_lookup (lookup_reap.mp hl).1, by simp [hsessions]⟩
  tasks id' state' hl' hne := by
    have hne' : id ≠ id' := fun h => hne (h ▸ hr)
    rw [htasks, hw.tasks_update (lookup_reap.mp hl).1 hl' hne']
  handedOff := .inl hhand
  failed h := h.elim

theorem touchesOnly_created (hw : WellKept s) {name : String} {replies : List (Conn × Frame)} :
    TouchesOnly s framed (some (.ok (.newSession name)))
      (some (.sessionCreated (toString s.nextId)))
      ({ s.create framed (nameOpt name) with replies := replies }.proceed framed
        (.handOff s.issued.length)) := by
  have hfresh : s.nextId ∉ s.sessions := fun hm => absurd (hw.keys _ hm) (UInt32.lt_irrefl _)
  have hcreates : CreatesSession (some (.ok (.newSession name)))
      (some (.sessionCreated (toString s.nextId))) := ⟨name, _, rfl, rfl⟩
  have hlookup : ∀ id state, (s.create framed (nameOpt name)).sessions.lookup id = some state ↔
      (id = s.nextId ∧ state = ⟨s.issued.length, nameOpt name⟩) ∨
        (id ≠ s.nextId ∧ s.sessions.lookup id = some state) := fun _ _ => lookup_create
  constructor
  case nextId => exact .inr ⟨hcreates, rfl⟩
  case lost =>
    intro id state hl
    have hne : id ≠ s.nextId := fun h => hfresh (h ▸ Table.mem_of_lookup hl)
    exact .inl ((hlookup id state).mpr (.inr ⟨hne, hl⟩))
  case gained =>
    intro id state hl
    obtain ⟨rfl, -⟩ | ⟨-, hl⟩ := (hlookup id state).mp hl
    · exact .inr ⟨hcreates, rfl⟩
    · exact .inl hl
  case created =>
    intro name' id hr hreply
    cases hr
    obtain rfl := Frame.sessionCreated.inj (Option.some.inj hreply)
    exact ⟨rfl, rfl, hfresh, (hlookup _ _).mpr (.inl ⟨rfl, rfl⟩)⟩
  case killed =>
    rintro ⟨_, h, -⟩
    cases h
  case tasks =>
    intro id state hl _
    have hne : state.handle ≠ s.issued.length := Nat.ne_of_lt (hw.spawned id state hl)
    simp [State.create, State.proceed, hne]
  case handedOff =>
    exact .inr ⟨s.nextId, _, rfl, (hlookup _ _).mpr (.inl ⟨rfl, rfl⟩), rfl⟩
  case failed => exact fun h => h.elim

theorem not_createsSession (h : ∀ id, reply ≠ some (.sessionCreated id)) :
    ¬CreatesSession r reply := by
  rintro ⟨_, id, -, hreply⟩
  exact h id hreply

theorem not_killsSession (h : reply ≠ some .ok) : ¬KillsSession r reply := by
  rintro ⟨_, -, hreply⟩
  exact h hreply

theorem touchesOnly_served (hw : WellKept s) {framed' : Conn} {frame reply : Frame} {next : Next}
    {replies : List (Conn × Frame)} (hframe : frame ≠ .killServer)
    (hs : Serve s framed frame s₁) (hc : s₁.control = .replying framed' reply next) :
    TouchesOnly s framed (some (.ok frame)) (some reply)
      ({ s₁ with replies := replies }.proceed framed' next) := by
  have hframed : framed' = framed := by
    cases hs <;> exact (Control.replying.inj hc).1.symm
  subst hframed
  cases hs with
  | duplicate | unexpected =>
    obtain ⟨-, rfl, rfl⟩ := Control.replying.inj hc
    refine Prunes.touches ?_ (not_createsSession ?_) (not_killsSession ?_) rfl rfl
    · exact (prunes_refl s).congr rfl rfl rfl
    · simp
    · simp
  | created =>
    obtain ⟨-, rfl, rfl⟩ := Control.replying.inj hc
    exact touchesOnly_created hw
  | attachNone | listed | killNone =>
    obtain ⟨-, rfl, rfl⟩ := Control.replying.inj hc
    refine Prunes.touches ?_ (not_createsSession ?_) (not_killsSession ?_) rfl rfl
    · exact (prunes_reap s).congr rfl rfl rfl
    · simp [noSuchSession]
    · simp [noSuchSession]
  | attachClosed hr hl hcl =>
    obtain ⟨-, rfl, rfl⟩ := Control.replying.inj hc
    refine Prunes.touches ?_ (not_createsSession ?_) (not_killsSession ?_) rfl rfl
    · exact (prunes_erase (lookup_reap.mp hl).1 (.inr hcl)).congr rfl rfl rfl
    · simp [noSuchSession]
    · simp [noSuchSession]
  | attached hr hl =>
    obtain ⟨-, rfl, rfl⟩ := Control.replying.inj hc
    exact touchesOnly_attached hw hr hl ((prunes_reap s).congr rfl rfl rfl) rfl rfl rfl
  | killed hr hl =>
    obtain ⟨-, rfl, rfl⟩ := Control.replying.inj hc
    exact touchesOnly_killed hw hr hl rfl rfl rfl rfl
  | shutdown => exact absurd rfl hframe

/-- **Requests touch only what they name, and failures touch nothing.** -/
theorem touchesOnly (hw : WellKept s) (hr : r ≠ some (.ok .killServer))
    (h : Handles s framed r reply s') : TouchesOnly s framed r reply s' := by
  cases h with
  | silent hc hst htop =>
    cases step_cases hst with
    | noRequest =>
      refine Prunes.touches ?_ (not_createsSession nofun) (not_killsSession nofun) rfl rfl
      exact (prunes_refl s).congr rfl rfl rfl
    | request _ hs => cases hs <;> cases htop
  | replied hc hst hrep hst' =>
    cases step_cases hst with
    | noRequest => cases hrep
    | request hc' hs =>
      obtain rfl := Control.reading.inj (hc.symm.trans hc')
      cases step_cases hst' with
      | replied hrep' =>
        obtain ⟨rfl, rfl, rfl⟩ := Control.replying.inj (hrep.symm.trans hrep')
        exact touchesOnly_served hw (fun h => hr (by rw [h])) hs hrep

/-- Two sessions, and a connection accepted. -/
def twoEvents : List Event :=
  newSessionEvents "" ++ newSessionEvents "work" ++ [.connect, .reap, .accept true]

/-- The second session is killed, and the first is left alone. -/
theorem touchesOnly_kill :
    ∃ s s', LTS.exec step .init twoEvents = some s ∧
      TouchesOnly s 2 (some (.ok (.killSession "work"))) (some .ok) s' ∧
      (1 : UInt32) ∉ s'.sessions ∧ s'.sessions.lookup 0 = some ⟨0, none⟩ := by
  have h : ∃ s s₁ s', LTS.exec step .init twoEvents = some s ∧ s.issued.length < 2 ^ 32 ∧
      s.control = .reading 2 ∧ lts.step s (.request (some (.ok (.killSession "work")))) s₁ ∧
      s₁.control = .replying 2 .ok .again ∧ lts.step s₁ (.replied true) s' ∧
      (1 : UInt32) ∉ s'.sessions ∧ s'.sessions.lookup 0 = some ⟨0, none⟩ :=
    ⟨_, _, _, rfl, by decide, rfl, rfl, rfl, rfl, by decide, rfl⟩
  obtain ⟨s, s₁, s', h, hlen, hc, hst, hrep, hst', hm, hl⟩ := h
  have hw := WellKept.of_reachable (LTS.run_of_exec h).reachable hlen
  exact ⟨s, s', h, touchesOnly hw (by simp) (.replied hc hst hrep hst'), hm, hl⟩

end Daemon

end Gritty
