import Gritty.Daemon.Connections
import Gritty.Server.Conversation

/-!
# The daemon's tasks run the session task

The moves of the daemon that concern one task, its own steps and the hand-offs to it, are a run of
the session task, so that the laws of the session task hold of every task of the daemon.  A hand-off
is never made to a channel without senders, since the loop still holds one.

## Main definitions

* `serverRun` : the moves of one task in a run of the daemon.
* `TasksInv` : a task that was not given out yet has not begun, and the senders of a channel are
  dropped only when nothing holds one.

## Main results

* `TasksInv.of_reachable` : the invariant holds in every reachable state.
* `server_step` : what one move of the daemon is to a task.
* `run_serverRun` : every task runs the session task.
* `handOffs_eq` : the hand-offs logged are those of the moves.
* `handed_serverRun` : what is pushed onto the channel of a task is what was handed to it.
-/

namespace Gritty

namespace Daemon

/-- The hand-off that a move makes. -/
def handOffsOf (m : Move State Event) : List (Conn × TaskId) :=
  match m.lbl, m.src.control with
  | .replied _, .replying framed _ next => next.handOffs framed
  | _, _ => []

/-- The moves of the task `k` in a move of the daemon. -/
def serverMovesOf (k : TaskId) (m : Move State Event) : List (Move Server.State Server.Event) :=
  match m.lbl with
  | .task handle e =>
    if handle = k then [⟨(m.src.tasks k).server, e, (m.dst.tasks k).server⟩] else []
  | _ => (handOffsOf m).flatMap fun p =>
    if p.2 = k then [⟨(m.src.tasks k).server, .handOff p.1, (m.dst.tasks k).server⟩] else []

/-- The run of the task `k` in a run of the daemon. -/
def serverRun (k : TaskId) (tr : List (Move State Event)) :
    List (Move Server.State Server.Event) := tr.flatMap (serverMovesOf k)

/-- The table or the control loop holds the sender of the channel of the task `k`. -/
def Holds (s : State) (k : TaskId) : Prop :=
  (∃ id state, s.sessions.lookup id = some state ∧ state.handle = k) ∨
    ∃ framed reply, s.control = .replying framed reply (.handOff k)

/-- What holds of the tasks and of the senders to them, in every reachable state. -/
structure TasksInv (s : State) : Prop where
  /-- tasks that are not spawned yet have not run -/
  unissued : ∀ k, s.issued.length ≤ k → (s.tasks k).server = .init
  senders : ∀ k, Holds s k → (s.tasks k).server.sendersDropped = false
  handOff : ∀ framed reply k, s.control = .replying framed reply (.handOff k) → k < s.issued.length

variable {s s' : State} {e : Event} {tr : List (Move State Event)} {k : TaskId} {framed : Conn}

theorem holdsSender_iff : s.holdsSender k = true ↔ Holds s k := by
  unfold State.holdsSender Holds
  rw [Bool.or_eq_true, List.any_eq_true]
  refine or_congr ⟨?_, ?_⟩ ⟨fun h => ?_, ?_⟩
  · rintro ⟨⟨id, state⟩, he, hk⟩
    exact ⟨id, state, Table.lookup_eq_some_iff.2 he, by simpa using hk⟩
  · rintro ⟨id, state, hl, hk⟩
    exact ⟨⟨id, state⟩, Table.lookup_eq_some_iff.1 hl, by simpa using hk⟩
  · split at h
    · next framed reply k' hc =>
      obtain rfl : k' = k := by simpa using h
      exact ⟨framed, reply, hc⟩
    · cases h
  · rintro ⟨framed, reply, hc⟩
    rw [hc]
    simp

theorem sendersDropped_onNext {s : Server.State} {r : Server.NextFrame} :
    (s.onNext framed r).sendersDropped = s.sendersDropped := by
  unfold Server.State.onNext
  split <;> rfl

theorem sendersDropped_step {s s' : Server.State} {e : Server.Event} (h : Server.Step s e s')
    (he : e ≠ .dropSenders) : s'.sendersDropped = s.sendersDropped := by
  cases h with
  | dropSenders => exact absurd rfl he
  | next => exact sendersDropped_onNext
  | _ => rfl

/-- The task that a request hands its connection to is a new one or that of a session in the
table. -/
theorem handOff_of_serve {frame : Frame} {c : Conn} {reply : Frame} (h : Serve s framed frame s')
    (hc : s'.control = .replying c reply (.handOff k)) :
    (k = s.issued.length ∧ ∃ name, s' = s.create framed name) ∨
      ∃ id state, s.sessions.lookup id = some state ∧ state.handle = k := by
  cases h with
  | created =>
    cases hc
    exact .inl ⟨rfl, _, rfl⟩
  | attached _ hl =>
    cases hc
    exact .inr ⟨_, _, (lookup_reap.1 hl).1, rfl⟩
  | _ => cases hc

/-- **What one move does to a task.**  Nothing, or it makes a step of the task, or it hands a
connection to it; the moves `serverMovesOf` say which. -/
inductive TaskStep (s : State) (e : Event) (s' : State) (k : TaskId) : Prop
  | same : serverMovesOf k ⟨s, e, s'⟩ = [] → (s'.tasks k).server = (s.tasks k).server →
      TaskStep s e s' k
  | spawned {framed name} : serverMovesOf k ⟨s, e, s'⟩ = [] → k = s.issued.length →
      s' = s.create framed name → TaskStep s e s' k
  | step {e'} : e = .task k e' →
      serverMovesOf k ⟨s, e, s'⟩ = [⟨(s.tasks k).server, e', (s'.tasks k).server⟩] →
      k < s.issued.length → s.allows k e' = true →
      Server.lts.step (s.tasks k).server e' (s'.tasks k).server → TaskStep s e s' k
  | handOff {framed reply ok} : e = .replied ok →
      serverMovesOf k ⟨s, e, s'⟩ = [⟨(s.tasks k).server, .handOff framed, (s'.tasks k).server⟩] →
      s.control = .replying framed reply (.handOff k) → s'.tasks k = (s.tasks k).send framed →
      TaskStep s e s' k

theorem serverMovesOf_request {r : Server.NextFrame} :
    serverMovesOf k ⟨s, .request r, s'⟩ = [] := by
  simp [serverMovesOf, handOffsOf]

theorem shutdown_server : (s.shutdown.tasks k).server = (s.tasks k).server := by
  unfold State.shutdown
  dsimp only
  split <;> rfl

theorem abort_server {handle : TaskId} :
    ((s.abort handle).tasks k).server = (s.tasks k).server := by
  unfold State.abort
  by_cases hk : k = handle
  · subst hk
    simp
  · simp [Function.update_of_ne hk]

theorem taskStep_serve {frame : Frame} (h : Serve s framed frame s') :
    TaskStep s (.request (some (.ok frame))) s' k := by
  cases h with
  | @created name =>
    by_cases hk : k = s.issued.length
    · exact .spawned serverMovesOf_request hk rfl
    · refine .same serverMovesOf_request ?_
      show (Function.update s.tasks s.issued.length .spawned k).server = _
      rw [Function.update_of_ne hk]
  | killed => exact .same serverMovesOf_request abort_server
  | shutdown => exact .same serverMovesOf_request shutdown_server
  | _ => exact .same serverMovesOf_request rfl

theorem taskStep (h : Step s e s') (k : TaskId) : TaskStep s e s' k := by
  cases h with
  | @task handle e server hk ha hst =>
    by_cases hkk : handle = k
    · subst hkk
      refine .step rfl (by simp [serverMovesOf]) hk ha ?_
      simpa using hst
    · refine .same (by simp [serverMovesOf, hkk]) ?_
      simp [Function.update_of_ne (Ne.symm hkk)]
  | @finish handle =>
    refine .same (by simp [serverMovesOf, handOffsOf]) ?_
    by_cases hk : k = handle
    · subst hk
      simp
    · simp [Function.update_of_ne hk]
  | signal => exact .same (by simp [serverMovesOf, handOffsOf]) shutdown_server
  | rehash | connect | reap | accept | refuse | acceptErr | noRequest =>
    exact .same (by simp [serverMovesOf, handOffsOf]) rfl
  | request hc hs => exact taskStep_serve hs
  | @replied framed reply next ok hc =>
    cases next with
    | again | quit => exact .same (by simp [serverMovesOf, handOffsOf, hc, Next.handOffs]) rfl
    | handOff handle =>
      by_cases hk : handle = k
      · subst hk
        refine .handOff rfl (by simp [serverMovesOf, handOffsOf, hc, Next.handOffs]) hc ?_
        simp [State.proceed]
      · refine .same (by simp [serverMovesOf, handOffsOf, hc, Next.handOffs, hk]) ?_
        simp [State.proceed, Function.update_of_ne (Ne.symm hk)]

/-! ### The channels stay open -/

theorem holds_back (h : Step s e s') (hk : Holds s' k) :
    Holds s k ∨ ∃ framed name, k = s.issued.length ∧ s' = s.create framed name := by
  rcases hk with ⟨id, state, hl, rfl⟩ | ⟨framed, reply, hc⟩
  -- the sender in the table
  · rcases table_step h with hsh | ⟨framed, name, -, -, -, rfl⟩
    · exact .inl (.inl ⟨id, state, hsh.lookup id state hl, rfl⟩)
    · rcases lookup_create.1 hl with ⟨-, rfl⟩ | ⟨-, hl⟩
      · exact .inr ⟨_, _, rfl, rfl⟩
      · exact .inl (.inl ⟨id, state, hl, rfl⟩)
  -- the sender that the control loop works with
  · rcases logs_step h with ⟨-, -, -, -, -, -, -, -, hno⟩ | ⟨-, -, hdue⟩
    · exact absurd hc (hno _ _ _)
    · rcases hdue _ _ _ hc with hc | ⟨frame, hc', rfl⟩
      · exact .inl (.inr ⟨_, _, hc⟩)
      · cases h with
        | noRequest _ hno => exact absurd rfl (hno frame)
        | request hc' hs =>
          rcases handOff_of_serve hs hc with ⟨hk, name, rfl⟩ | ⟨id, state, hl, hk⟩
          · exact .inr ⟨_, _, hk, rfl⟩
          · exact .inl (.inl ⟨id, state, hl, hk⟩)

theorem send_sendersDropped {t : Task} : (t.send framed).server.sendersDropped =
    t.server.sendersDropped := by
  unfold Task.send
  cases hs : Server.step t.server (.handOff framed) with
  | none => rfl
  | some s => exact sendersDropped_step (Server.step_cases hs) (by simp)

theorem TasksInv.init : TasksInv .init := by
  constructor <;> simp [State.init, Holds, Task.spawned, Server.State.init]

theorem issued_length_le (h : Step s e s') : s.issued.length ≤ s'.issued.length := by
  rcases table_step h with hsh | ⟨framed, name, -, -, -, rfl⟩
  · rw [hsh.issued]
  · simp [State.create]

theorem TasksInv.lt_issued (hi : TasksInv s) (ht : TableInv s) (hk : Holds s k) :
    k < s.issued.length := by
  rcases hk with ⟨id, state, hl, rfl⟩ | ⟨framed, reply, hc⟩
  · exact (List.getElem?_eq_some_iff.1 (ht.handle id state hl)).1
  · exact hi.handOff _ _ _ hc

theorem TasksInv.step (hi : TasksInv s) (ht : TableInv s) (h : Step s e s') : TasksInv s' where
  unissued k hk := by
    have hk' : s.issued.length ≤ k := (issued_length_le h).trans hk
    cases taskStep h k with
    | same _ hs => rw [hs, hi.unissued k hk']
    | spawned _ hkk hs =>
      subst hs
      have hlt : s.issued.length + 1 ≤ k := by simpa [State.create] using hk
      exact absurd hkk (Nat.ne_of_gt hlt)
    | step _ _ hlt => exact absurd hlt (Nat.not_lt.2 hk')
    | handOff _ _ hc => exact absurd (hi.handOff _ _ _ hc) (Nat.not_lt.2 hk')
  senders k hk := by
    rcases holds_back h hk with hk' | ⟨framed, name, rfl, rfl⟩
    · have hd := hi.senders k hk'
      cases taskStep h k with
      | same _ hs => rw [hs, hd]
      | spawned _ hlt => exact absurd (hi.lt_issued ht hk') hlt.not_lt
      | @step e' _ _ _ ha hst =>
        rw [sendersDropped_step (Server.step_cases hst) ?_, hd]
        rintro rfl
        -- the last sender is still held
        have ha' : (!s.holdsSender k) = true := ha
        rw [holdsSender_iff.2 hk'] at ha'
        cases ha'
      | handOff _ _ _ hs => rw [hs, send_sendersDropped, hd]
    · simp [State.create, Task.spawned, Server.State.init]
  handOff framed reply k hc := by
    rcases holds_back h (.inr ⟨framed, reply, hc⟩) with hk | ⟨framed, name, rfl, rfl⟩
    · exact (hi.lt_issued ht hk).trans_le (issued_length_le h)
    · simp [State.create]

theorem TasksInv.of_reachable (h : lts.Reachable .init s) : TasksInv s := by
  have hi : TableInv s ∧ TasksInv s :=
    h.invariant (I := fun s => TableInv s ∧ TasksInv s) ⟨.init, .init⟩ fun _ _ _ hi hst =>
      ⟨hi.1.step (step_cases hst), hi.2.step hi.1 (step_cases hst)⟩
  exact hi.2

/-! ### The run of a task -/

/-- A push to a channel that has senders is a step of the task, also when the task ended. -/
theorem send_step {t : Task} (hd : t.server.sendersDropped = false) :
    Server.lts.step t.server (.handOff framed) (t.send framed).server := by
  have hs : ∃ s, Server.step t.server (.handOff framed) = some s := by
    simp only [Server.step, hd]
    cases t.server.phase <;> simp
  obtain ⟨s, hs⟩ := hs
  show Server.step t.server (.handOff framed) = some (t.send framed).server
  rw [Task.send, hs]
  rfl

theorem server_step (hi : TasksInv s) (h : Step s e s') (k : TaskId) :
    Server.lts.Run (s.tasks k).server (serverMovesOf k ⟨s, e, s'⟩) (s'.tasks k).server := by
  cases taskStep h k with
  | same hm hs =>
    rw [hm, hs]
    exact .refl
  | @spawned framed name hm hk hs =>
    have hnew : (s'.tasks k).server = .init := by subst hs hk; simp [State.create, Task.spawned]
    rw [hm, hnew, hi.unissued k hk.ge]
    exact .refl
  | step _ hm _ _ hst =>
    rw [hm]
    exact .single hst
  | handOff _ hm hc hs =>
    rw [hm, hs]
    exact .single (send_step (hi.senders k (.inr ⟨_, _, hc⟩)))

/-- **Every task runs the session task.** -/
theorem run_serverRun (hr : lts.Run .init tr s) (k : TaskId) :
    Server.lts.Run .init (serverRun k tr) (s.tasks k).server := by
  have h := hr.project (B := Server.lts) (f := fun s => (s.tasks k).server) (g := serverMovesOf k)
    (I := fun s => TableInv s ∧ TasksInv s) ⟨.init, .init⟩
    (fun _ _ _ hi hst => ⟨hi.1.step (step_cases hst), hi.2.step hi.1 (step_cases hst)⟩)
    (fun _ _ _ hi hst => server_step hi.2 (step_cases hst) k)
  exact h

/-- What one move adds to the hand-offs. -/
theorem handOffs_step (h : Step s e s') : s'.handOffs = s.handOffs ++ handOffsOf ⟨s, e, s'⟩ := by
  cases h with
  | request hc hs =>
    obtain ⟨-, -, hho, -, -⟩ := serve_logs hs
    simp [hho, handOffsOf]
  | @replied framed reply next ok hc =>
    obtain ⟨-, hho, -, -, -⟩ := @proceed_logs
      { s with replies := if ok then s.replies ++ [(framed, reply)] else s.replies } framed next
    rw [hho]
    simp [handOffsOf, hc]
  | signal => simp [handOffsOf, State.shutdown]
  | _ => simp [handOffsOf, State.reap]

/-- The hand-offs logged are those of the moves. -/
theorem handOffs_eq (hr : lts.Run .init tr s) : s.handOffs = tr.flatMap handOffsOf :=
  hr.log fun _ _ _ hst => handOffs_step (step_cases hst)

/-- The connections handed to a task. -/
def State.handedTo (s : State) (k : TaskId) : List Conn :=
  (s.handOffs.filter fun p => p.2 = k).map Prod.fst

theorem handed_serverMovesOf (h : Step s e s') (k : TaskId) :
    Server.handed (serverMovesOf k ⟨s, e, s'⟩) =
      ((handOffsOf ⟨s, e, s'⟩).filter fun p => p.2 = k).map Prod.fst := by
  cases h with
  | @task handle e server hk ha hst =>
    by_cases hkk : handle = k
    · cases e with
      | handOff => simp [State.allows] at ha
      | _ => simp [serverMovesOf, handOffsOf, hkk, Server.handed, Server.handedOf]
    · simp [serverMovesOf, handOffsOf, hkk, Server.handed]
  | @replied framed reply next ok hc =>
    cases next with
    | handOff handle =>
      by_cases hk : handle = k <;>
        simp [serverMovesOf, handOffsOf, hc, Next.handOffs, Server.handed, Server.handedOf, hk]
    | again | quit => simp [serverMovesOf, handOffsOf, hc, Next.handOffs, Server.handed]
  | _ => simp [serverMovesOf, handOffsOf, Server.handed]

/-- The connections pushed onto the channel of a task are those that were handed to it. -/
theorem handed_serverRun (hr : lts.Run .init tr s) (k : TaskId) :
    Server.handed (serverRun k tr) = s.handedTo k := by
  rw [State.handedTo, handOffs_eq hr]
  induction hr with
  | refl => rfl
  | @tail tr s s' e _ hst ih =>
    have htr : Server.handed (serverRun k (tr ++ [⟨s, e, s'⟩])) =
        Server.handed (serverRun k tr) ++ Server.handed (serverMovesOf k ⟨s, e, s'⟩) := by
      simp [serverRun, Server.handed]
    rw [htr, ih, handed_serverMovesOf (step_cases hst)]
    simp

end Daemon

end Gritty
