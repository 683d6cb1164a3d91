import Gritty.Daemon.Designation
import Gritty.Daemon.Listing

/-!
# Finished sessions

A session may finish long before the table is reaped.  `Attach`, `ListSessions` and `KillSession`
reap first, so that a finished session is neither listed nor found, neither by its name nor by its
id, and is gone from the table when the request is served.

A target may be shared: the name of a finished session may be the id of a running one.  Such a
target leads to the running session, and not to the finished one.

## Main results

* `reaped_step` : the finished sessions are gone when one of these requests is served.
* `listed_step` : no finished session is listed.
* `unknown_step` : a target that only finished sessions answer to is refused.
* `actsOn_step` : no finished session is attached to or killed.
* `finishedHidden` : all of this, in every reachable state.
-/

namespace Gritty

namespace Daemon

/-- The requests that reap the table first. -/
inductive Reaps : Frame → Prop
  | attach (target : String) : Reaps (.attach target)
  | listSessions : Reaps .listSessions
  | killSession (target : String) : Reaps (.killSession target)

/-- The request is about the target. -/
inductive Targets (target : String) : Frame → Prop
  | attach : Targets target (.attach target)
  | killSession : Targets target (.killSession target)

/-- The request has acted on the session: `Attach` has found it, and either goes on to hand the
connection over or has dropped the session since its channel is closed; `KillSession` has aborted
its task and removed it. -/
inductive ActsOn (s : State) (framed : Conn) (id : UInt32) (state : SessionState) (s' : State) :
    Frame → Prop
  | attached {target} : (s.tasks state.handle).isClosed = false →
      s'.sessions = s.reap.sessions → s'.tasks = s.tasks →
      s'.control = .replying framed .ok (.handOff state.handle) →
      ActsOn s framed id state s' (.attach target)
  | closed {target} : (s.tasks state.handle).isClosed = true →
      s'.sessions = s.reap.sessions.erase id → s'.tasks = s.tasks →
      s'.control = .replying framed (noSuchSession target) .again →
      ActsOn s framed id state s' (.attach target)
  | killed {target} : s'.sessions = s.reap.sessions.erase id →
      s'.tasks = Function.update s.tasks state.handle
        { s.tasks state.handle with aborted := true } →
      s'.control = .replying framed .ok .again → ActsOn s framed id state s' (.killSession target)

/-- Finished sessions do not matter to a request that is read in the state `s`. -/
structure FinishedHidden (s : State) (framed : Conn) : Prop where
  /-- the list has one row for each unfinished session -/
  listed : ∀ s', lts.step s (.request (some (.ok .listSessions))) s' →
    ∃ rows, s'.control = .replying framed (.sessionInfo rows) .again ∧
      rows.Perm ((s.sessions.entries.filter fun e => !(s.tasks e.2.handle).isFinished).map
        fun e => sessionEntry s.tasks e.1 e.2)
  /-- a target that is neither the name nor the id of an unfinished session is answered `Error` -/
  unknown : ∀ target frame s', Targets target frame → lts.step s (.request (some (.ok frame))) s' →
    (∀ id state, Live s id state → state.name ≠ some target ∧ Text.parseU32 target ≠ some id) →
    s'.control = .replying framed (noSuchSession target) .again
  /-- a target, the name of a finished session and the id of an unfinished one, is the latter -/
  shared : ∀ target frame s' id state id' state', Targets target frame →
    lts.step s (.request (some (.ok frame))) s' → Live s id state →
    Text.parseU32 target = some id → s.sessions.lookup id' = some state' →
    (s.tasks state'.handle).isFinished = true → state'.name = some target →
    ActsOn s framed id state s' frame
  /-- `Attach` answers `Ok` for an unfinished session that still takes clients only -/
  attach : ∀ target s' next, lts.step s (.request (some (.ok (.attach target)))) s' →
    s'.control = .replying framed .ok next →
    ∃ id state, Live s id state ∧ (s.tasks state.handle).isClosed = false ∧
      next = .handOff state.handle
  /-- no finished session is left -/
  reaped : ∀ frame s' id state, Reaps frame → lts.step s (.request (some (.ok frame))) s' →
    s'.sessions.lookup id = some state → Live s id state

variable {s s' : State} {framed : Conn} {id : UInt32} {state : SessionState} {target : String}

theorem resolveSession_reap_eq_none (hd : NamesDistinct s.reap.sessions)
    (h : ∀ id state, Live s id state → state.name ≠ some target ∧ Text.parseU32 target ≠ some id) :
    resolveSession s.reap.sessions target = none := by
  rw [Option.eq_none_iff_forall_ne_some]
  intro id hr
  obtain ⟨state, hl, hn⟩ | ⟨-, hp, hm⟩ := (resolveSession_eq_some_iff hd).mp hr
  · exact (h id state (live_iff_lookup_reap.mpr hl)).1 hn
  · obtain ⟨state, hl⟩ := Table.exists_lookup_of_mem hm
    exact (h id state (live_iff_lookup_reap.mpr hl)).2 hp

theorem resolveSession_reap_shared (hd : NamesDistinct s.sessions)
    (hd' : NamesDistinct s.reap.sessions) (hl : Live s id state)
    (hp : Text.parseU32 target = some id) {id' : UInt32} {state' : SessionState}
    (hl' : s.sessions.lookup id' = some state')
    (hf : (s.tasks state'.handle).isFinished = true) (hn : state'.name = some target) :
    resolveSession s.reap.sessions target = some id := by
  rw [resolveSession_eq_some_iff hd']
  refine .inr ⟨?_, hp, Table.mem_of_lookup (live_reap hl)⟩
  rintro ⟨id'', state'', hl'', hn''⟩
  obtain ⟨hlookup, hun⟩ := lookup_reap.mp hl''
  obtain rfl := hd _ _ _ _ _ hl' hlookup hn hn''
  obtain rfl := Option.some.inj (hl'.symm.trans hlookup)
  simp [hf] at hun

theorem listed_step (h : lts.step s (.request (some (.ok .listSessions))) s')
    (hc : s.control = .reading framed) :
    s' = s.reap.list framed := by
  cases serve_of_step hc h with
  | listed => rfl
  | unexpected hn => exact absurd trivial hn

theorem unknown_step {frame : Frame} (ht : Targets target frame) (hc : s.control = .reading framed)
    (h : lts.step s (.request (some (.ok frame))) s')
    (hr : resolveSession s.reap.sessions target = none) :
    s'.control = .replying framed (noSuchSession target) .again := by
  cases ht with
  | attach =>
    cases serve_of_step hc h with
    | attachNone => rfl
    | attachClosed hr' | attached hr' => simp [hr] at hr'
    | unexpected hn => exact absurd trivial hn
  | killSession =>
    cases serve_of_step hc h with
    | killNone => rfl
    | killed hr' => simp [hr] at hr'
    | unexpected hn => exact absurd trivial hn

theorem actsOn_step {frame : Frame} (ht : Targets target frame) (hc : s.control = .reading framed)
    (h : lts.step s (.request (some (.ok frame))) s')
    (hr : resolveSession s.reap.sessions target = some id)
    (hl : s.reap.sessions.lookup id = some state) : ActsOn s framed id state s' frame := by
  cases ht with
  | attach =>
    obtain ⟨htasks, hopen, hclosed⟩ := attach_step hc hr hl h
    cases hcl : (s.tasks state.handle).isClosed with
    | false =>
      obtain ⟨hsessions, hcontrol⟩ := hopen hcl
      exact .attached hcl hsessions htasks hcontrol
    | true =>
      obtain ⟨hsessions, hcontrol⟩ := hclosed hcl
      exact .closed hcl hsessions htasks hcontrol
  | killSession =>
    obtain ⟨htasks, hsessions, hcontrol⟩ := kill_step hc hr hl h
    exact .killed hsessions htasks hcontrol

theorem attached_step {next : Next} (hc : s.control = .reading framed)
    (h : lts.step s (.request (some (.ok (.attach target)))) s')
    (hok : s'.control = .replying framed .ok next) :
    ∃ id state, Live s id state ∧ (s.tasks state.handle).isClosed = false ∧
      next = .handOff state.handle := by
  cases serve_of_step hc h with
  | attachNone | attachClosed => cases hok
  | @attached _ id state hr hl hopen =>
    obtain ⟨-, -, rfl⟩ := Control.replying.inj hok
    exact ⟨id, state, live_iff_lookup_reap.mpr hl, hopen, rfl⟩
  | unexpected hn => exact absurd trivial hn

theorem reaped_step {frame : Frame} (hreaps : Reaps frame) (hc : s.control = .reading framed)
    (h : lts.step s (.request (some (.ok frame))) s') (hl : s'.sessions.lookup id = some state) :
    Live s id state := by
  rw [live_iff_lookup_reap]
  cases serve_of_step hc h with
  | attachNone | attached | listed | killNone => exact hl
  | attachClosed | killed => exact (Table.lookup_erase_iff.mp hl).2
  | duplicate | created | shutdown => cases hreaps
  | unexpected hn => cases hreaps <;> exact absurd trivial hn

/-- **Finished sessions are hidden** from every `Attach`, `ListSessions` and `KillSession`, in every
reachable state. -/
theorem finishedHidden (h : lts.Reachable .init s) (hc : s.control = .reading framed) :
    FinishedHidden s framed := by
  have hd := (TableInv.of_reachable h).distinct
  have hd' : NamesDistinct s.reap.sessions :=
    ((TableInv.of_reachable h).of_shrinks shrinks_reap).distinct
  constructor
  case listed =>
    intro s' hst
    rw [listed_step hst hc]
    exact ⟨_, rfl, buildSessionEntries_perm⟩
  case unknown =>
    intro target frame s' ht hst hno
    exact unknown_step ht hc hst (resolveSession_reap_eq_none hd' hno)
  case shared =>
    intro target frame s' id state id' state' ht hst hlive hp hl' hf hn
    exact actsOn_step ht hc hst (resolveSession_reap_shared hd hd' hlive hp hl' hf hn)
      (live_reap hlive)
  case attach => exact fun target s' next hst hok => attached_step hc hst hok
  case reaped => exact fun frame s' id state hreaps hst hl => reaped_step hreaps hc hst hl

/-- The session with the id 0 has the name `1`, and finishes after a connection is accepted. -/
def sharedEvents : List Event :=
  newSessionEvents "1" ++ newSessionEvents "" ++
    [.connect, .reap, .accept true, .task 0 (.openpty none), .finish 0]

/-- The target `1` is the id of session 1 only. -/
theorem finishedHidden_shared :
    ∃ s, LTS.exec step .init sharedEvents = some s ∧ (s.tasks 0).isFinished = true ∧
      s.sessions.lookup 0 = some ⟨0, some "1"⟩ ∧ Live s 1 ⟨1, none⟩ ∧ FinishedHidden s 2 := by
  have h : ∃ s, LTS.exec step .init sharedEvents = some s ∧ s.control = .reading 2 ∧
      (s.tasks 0).isFinished = true ∧ s.sessions.lookup 0 = some ⟨0, some "1"⟩ ∧
      Live s 1 ⟨1, none⟩ := ⟨_, rfl, rfl, rfl, rfl, rfl, rfl⟩
  obtain ⟨s, h, hc, hf, hl, hlive⟩ := h
  exact ⟨s, h, hf, hl, hlive, finishedHidden (LTS.run_of_exec h).reachable hc⟩

end Daemon

end Gritty
