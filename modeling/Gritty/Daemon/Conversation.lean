import Gritty.Daemon.Tasks

/-!
# What is done on one connection

The control loop reads one request on a connection and answers it; a session task that the
connection is handed to does the rest.  `Stage` says how far a connection has come, with all that
was done on it so far, and every move keeps it within the stages.

The laws of the session task are brought to the connection by the tasks that the daemon runs: what
is written after the reply is the conversation of one task, as a connection is handed to one task
only.

## Main definitions

* `Stage` : early, due, closed or handed over.
* `FailuresStick` : after a failed send all later sends on the connection fail.
* `Protocol` : the protocol of the connections, as the server writes it.

## Main results

* `stage_step`, `stage` : every connection is in a stage, in every run.
* `handOff_unique`, `handOffs_nodup` : a connection is handed over once.
* `conversation` : the laws of the session task hold of the connections handed to it.
* `detached_by` : a client is detached by the next one that was handed to the same task.
* `protocol` : every run in which failures stick keeps the protocol.
-/

namespace Gritty

namespace Daemon

open Server (Act)

/-- What a move does on connections. -/
def actsOf (m : Move State Event) : List (Conn × Act) :=
  match m.lbl with
  | .request (some (.ok frame)) => m.src.control.conn?.toList.map fun c => (c, .read frame)
  | .replied ok =>
    match m.src.control with
    | .replying framed reply _ => [(framed, .sent reply ok)]
    | _ => []
  | .task handle e => Server.actsOf ⟨(m.src.tasks handle).server, e, (m.dst.tasks handle).server⟩
  | _ => []

/-- What was done on a connection, in order. -/
def actsOn (c : Conn) (tr : List (Move State Event)) : List Act := entriesOf c (tr.flatMap actsOf)

/-- What a session task did on a connection, in order. -/
def taskActsOn (k : TaskId) (c : Conn) (tr : List (Move State Event)) : List Act :=
  entriesOf c (Server.acts (serverRun k tr))

/-- The request `frame` was read on the connection `c`, and is answered with `reply`. -/
def RepliesWith (tr : List (Move State Event)) (c : Conn) (frame reply : Frame) (next : Next) :
    Prop :=
  ∃ m ∈ tr, m.src.control = .reading c ∧ m.lbl = .request (some (.ok frame)) ∧
    m.dst.control = .replying c reply next

/-- How far a connection has come. -/
inductive Stage (c : Conn) (tr : List (Move State Event)) (s : State) : Prop
  /-- no request was read -/
  | early : c ∉ answered tr → (∀ reply next, s.control ≠ .replying c reply next) →
      actsOn c tr = [] → Stage c tr s
  /-- the reply is due -/
  | due {frame reply next} : c ∉ answered tr → s.control = .replying c reply next →
      RepliesWith tr c frame reply next → actsOn c tr = [.read frame] → Stage c tr s
  /-- answered and dropped -/
  | closed {frame reply next ok} : c ∈ answered tr → c ∉ s.handOffs.map Prod.fst →
      RepliesWith tr c frame reply next → (∀ k, next ≠ .handOff k) →
      actsOn c tr = [.read frame, .sent reply ok] → Stage c tr s
  /-- answered and handed to a task -/
  | handed {frame reply k ok} : c ∈ answered tr → (c, k) ∈ s.handOffs →
      RepliesWith tr c frame reply (.handOff k) →
      actsOn c tr = .read frame :: .sent reply ok :: taskActsOn k c tr → Stage c tr s

variable {s s' : State} {e : Event} {tr : List (Move State Event)} {c : Conn} {k : TaskId}

theorem handOffsOf_sublist (m : Move State Event) :
    ((handOffsOf m).map Prod.fst).Sublist (answeredOf m) := by
  unfold handOffsOf answeredOf
  split
  · next framed reply next hl hc =>
    rw [hl, hc]
    cases next <;> simp [Next.handOffs, Control.conn?]
  · exact List.nil_sublist _

/-- Only answered connections are handed to tasks. -/
theorem handOffs_sublist_answered (hr : lts.Run .init tr s) :
    (s.handOffs.map Prod.fst).Sublist (answered tr) := by
  rw [handOffs_eq hr, answered, List.map_flatMap]
  clear hr
  induction tr with
  | nil => exact .refl _
  | cons m tr ih => exact (handOffsOf_sublist m).append ih

theorem handOffs_nodup (hr : lts.Run .init tr s) : (s.handOffs.map Prod.fst).Nodup :=
  (List.nodup_append.1 (answered_nodup hr).1).2.1.sublist (handOffs_sublist_answered hr)

/-- A connection is handed to one task at most. -/
theorem handOff_unique (hr : lts.Run .init tr s) {k' : TaskId} (h : (c, k) ∈ s.handOffs)
    (h' : (c, k') ∈ s.handOffs) : k = k' := by
  have hp := List.inj_on_of_nodup_map (handOffs_nodup hr) h h' rfl
  exact (Prod.mk.inj hp).2

theorem mem_handedTo : c ∈ s.handedTo k ↔ (c, k) ∈ s.handOffs := by
  simp [State.handedTo]

theorem mem_handOffs_of_taskActs (hr : lts.Run .init tr s) (h : taskActsOn k c tr ≠ []) :
    (c, k) ∈ s.handOffs := by
  obtain ⟨a, ha⟩ := List.exists_mem_of_ne_nil _ h
  have hc := Server.mem_handed_of_acts (run_serverRun hr k) (mem_entriesOf.1 ha)
  rw [handed_serverRun hr k] at hc
  exact mem_handedTo.1 hc

theorem taskActsOn_append_single (m : Move State Event) : taskActsOn k c (tr ++ [m]) =
    taskActsOn k c tr ++ entriesOf c (Server.acts (serverMovesOf k m)) := by
  simp [taskActsOn, serverRun, Server.acts]

theorem actsOn_append_single (m : Move State Event) :
    actsOn c (tr ++ [m]) = actsOn c tr ++ entriesOf c (actsOf m) := by
  simp [actsOn]

theorem answered_append_single (m : Move State Event) :
    answered (tr ++ [m]) = answered tr ++ answeredOf m := by
  simp [answered]

theorem RepliesWith.mono {frame reply : Frame} {next : Next} (h : RepliesWith tr c frame reply next)
    (m : Move State Event) : RepliesWith (tr ++ [m]) c frame reply next := by
  obtain ⟨m', hm, h⟩ := h
  exact ⟨m', List.mem_append_left _ hm, h⟩

/-- A move does not concern the connection `c`. -/
structure Quiet (c : Conn) (m : Move State Event) : Prop where
  acts : entriesOf c (actsOf m) = []
  tasks : ∀ k, entriesOf c (Server.acts (serverMovesOf k m)) = []
  answered : c ∉ answeredOf m
  handOffs : ∀ k, (c, k) ∈ m.dst.handOffs ↔ (c, k) ∈ m.src.handOffs
  control : ∀ reply next, m.dst.control = .replying c reply next ↔
    m.src.control = .replying c reply next

theorem Stage.quiet (h : Stage c tr s) (hq : Quiet c ⟨s, e, s'⟩) :
    Stage c (tr ++ [⟨s, e, s'⟩]) s' := by
  have hacts : actsOn c (tr ++ [⟨s, e, s'⟩]) = actsOn c tr := by
    rw [actsOn_append_single, hq.acts, List.append_nil]
  have hans : c ∈ answered (tr ++ [⟨s, e, s'⟩]) ↔ c ∈ answered tr := by
    rw [answered_append_single, List.mem_append, or_iff_left hq.answered]
  cases h with
  | early ha hc h₀ =>
    refine .early (hans.not.2 ha) (fun reply next hc' => ?_) (hacts.trans h₀)
    exact hc reply next ((hq.control reply next).1 hc')
  | due ha hc hrep h₁ =>
    exact .due (hans.not.2 ha) ((hq.control _ _).2 hc) (hrep.mono _) (hacts.trans h₁)
  | closed ha hno hrep hn h₂ =>
    refine .closed (hans.2 ha) (fun hm => ?_) (hrep.mono _) hn (hacts.trans h₂)
    obtain ⟨⟨d, k⟩, hp, hd⟩ := List.mem_map.1 hm
    obtain rfl : d = c := hd
    exact hno (List.mem_map.2 ⟨_, (hq.handOffs k).1 hp, rfl⟩)
  | @handed frame reply k ok ha hh hrep h₂ =>
    have h₃ : actsOn c (tr ++ [⟨s, e, s'⟩]) =
        .read frame :: .sent reply ok :: taskActsOn k c (tr ++ [⟨s, e, s'⟩]) := by
      rw [hacts, h₂, taskActsOn_append_single, hq.tasks, List.append_nil]
    exact .handed (hans.2 ha) ((hq.handOffs k).2 hh) (hrep.mono _) h₃

/-- A connection that the daemon still has to answer is in an early stage. -/
theorem not_answered_of_owned (hr : lts.Run .init tr s) (hc : c ∈ s.owned) : c ∉ answered tr :=
  fun ha => (List.nodup_append.1 (answered_nodup hr).1).2.2 c hc c ha rfl

theorem mem_owned_of_conn? (hc : s.control.conn? = some c) : c ∈ s.owned :=
  List.mem_append_right _ (by simp [hc])

theorem not_handed_of_not_answered (hr : lts.Run .init tr s) (hc : c ∉ answered tr) :
    (c, k) ∉ s.handOffs :=
  fun hh => hc ((handOffs_sublist_answered hr).subset (List.mem_map.2 ⟨_, hh, rfl⟩))

theorem acts_serverMovesOf (he : ∀ handle e', e ≠ .task handle e') :
    Server.acts (serverMovesOf k ⟨s, e, s'⟩) = [] := by
  have hno : ∀ l : List (Conn × TaskId), Server.acts (l.flatMap fun p =>
      if p.2 = k then [⟨(s.tasks k).server, .handOff p.1, (s'.tasks k).server⟩] else []) = [] := by
    intro l
    rw [Server.acts, List.flatMap_assoc, List.flatMap_eq_nil_iff]
    intro p _
    by_cases hk : p.2 = k <;> simp [hk, Server.actsOf_handOff]
  cases e with
  | task handle e => exact absurd rfl (he handle e)
  | _ => exact hno _

theorem stage_task (hr : lts.Run .init tr s) {e : Server.Event}
    (hst : lts.step s (.task k e) s') (h : Stage c tr s) :
    Stage c (tr ++ [⟨s, .task k e, s'⟩]) s' := by
  obtain ⟨hho, hctl⟩ : s'.handOffs = s.handOffs ∧ s'.control = s.control := by
    cases step_cases hst
    exact ⟨rfl, rfl⟩
  have hmoves : ∀ k', Server.acts (serverMovesOf k' ⟨s, .task k e, s'⟩) =
      if k = k' then actsOf ⟨s, .task k e, s'⟩ else [] := by
    intro k'
    by_cases hk : k = k' <;> simp [serverMovesOf, Server.acts, actsOf, hk]
  have hans : answeredOf ⟨s, .task k e, s'⟩ = [] := rfl
  by_cases hc : entriesOf c (actsOf ⟨s, .task k e, s'⟩) = []
  · refine h.quiet ⟨hc, fun k' => ?_, by simp [hans], by simp [hho], by simp [hctl]⟩
    rw [hmoves]
    split
    · exact hc
    · rfl
  -- the connection is one that was handed to the task
  · have hk : (c, k) ∈ s.handOffs := by
      rw [← hho]
      refine mem_handOffs_of_taskActs (hr.tail hst) ?_
      rw [taskActsOn_append_single, hmoves, if_pos rfl]
      exact List.append_ne_nil_of_right_ne_nil _ hc
    cases h with
    | early ha | due ha => exact absurd hk (not_handed_of_not_answered hr ha)
    | closed _ hno => exact absurd (List.mem_map.2 ⟨_, hk, rfl⟩) hno
    | @handed frame reply k' ok ha hh hrep h₂ =>
      obtain rfl := handOff_unique hr hk hh
      have ha' : c ∈ answered (tr ++ [⟨s, .task k e, s'⟩]) := by
        rw [answered_append_single]
        exact List.mem_append_left _ ha
      have h₃ : actsOn c (tr ++ [⟨s, .task k e, s'⟩]) =
          .read frame :: .sent reply ok :: taskActsOn k c (tr ++ [⟨s, .task k e, s'⟩]) := by
        rw [actsOn_append_single, h₂, taskActsOn_append_single, hmoves, if_pos rfl]
        rfl
      exact .handed ha' (hho ▸ hh) (hrep.mono _) h₃

theorem stage_request (hr : lts.Run .init tr s) {frame : Frame} (hc : s.control = .reading c)
    (hst : lts.step s (.request (some (.ok frame))) s') (h : Stage c tr s) :
    Stage c (tr ++ [⟨s, .request (some (.ok frame)), s'⟩]) s' := by
  have ha := not_answered_of_owned hr (mem_owned_of_conn? (c := c) (by rw [hc]; rfl))
  obtain ⟨⟨reply, next, hrep⟩, -⟩ := serve_logs (serve_of_step hc hst)
  cases h with
  | early _ _ h₀ =>
    refine .due ?_ hrep ⟨_, List.mem_append_right _ (List.mem_singleton.2 rfl), hc, rfl, hrep⟩ ?_
    · rw [answered_append_single]
      simpa [answeredOf] using ha
    · rw [actsOn_append_single, h₀]
      simp [actsOf, hc, Control.conn?]
  | due _ hc' => exact absurd (hc.symm.trans hc') (by simp)
  | closed ha' | handed ha' => exact absurd ha' ha

theorem stage_replied (hr : lts.Run .init tr s) {reply : Frame} {next : Next} {ok : Bool}
    (hc : s.control = .replying c reply next) (hst : lts.step s (.replied ok) s')
    (h : Stage c tr s) : Stage c (tr ++ [⟨s, .replied ok, s'⟩]) s' := by
  have ha := not_answered_of_owned hr (mem_owned_of_conn? (c := c) (by rw [hc]; rfl))
  have hans : c ∈ answered (tr ++ [⟨s, .replied ok, s'⟩]) := by
    rw [answered_append_single]
    exact List.mem_append_right _ (by simp [answeredOf, hc, Control.conn?])
  have hacts : actsOf ⟨s, .replied ok, s'⟩ = [(c, .sent reply ok)] := by simp [actsOf, hc]
  have hho := handOffs_step (step_cases hst)
  cases h with
  | early _ hno => exact absurd hc (hno _ _)
  | closed ha' | handed ha' => exact absurd ha' ha
  | @due frame reply' next' _ hc' hrep h₁ =>
    obtain ⟨-, rfl, rfl⟩ := Control.replying.inj (hc.symm.trans hc')
    have h₂ : actsOn c (tr ++ [⟨s, .replied ok, s'⟩]) = [.read frame, .sent reply ok] := by
      rw [actsOn_append_single, h₁, hacts, entriesOf_self]
      rfl
    cases next with
    | handOff k =>
      -- the task has not seen the connection before
      have hnew : taskActsOn k c tr = [] := by
        by_contra hne
        exact not_handed_of_not_answered hr ha (mem_handOffs_of_taskActs hr hne)
      have h₃ : actsOn c (tr ++ [⟨s, .replied ok, s'⟩]) =
          .read frame :: .sent reply ok :: taskActsOn k c (tr ++ [⟨s, .replied ok, s'⟩]) := by
        rw [h₂, taskActsOn_append_single, hnew, acts_serverMovesOf (by simp)]
        rfl
      refine .handed hans ?_ (hrep.mono _) h₃
      rw [hho]
      exact List.mem_append_right _ (by simp [handOffsOf, hc, Next.handOffs])
    | again | quit =>
      refine .closed hans (fun hm => ?_) (hrep.mono _) (by simp) h₂
      have hsame : s'.handOffs = s.handOffs := by simp [hho, handOffsOf, hc, Next.handOffs]
      rw [hsame] at hm
      exact ha ((handOffs_sublist_answered hr).subset hm)

/-- **Every move keeps a connection within the stages.** -/
theorem stage_step (hr : lts.Run .init tr s) (hst : lts.step s e s') (h : Stage c tr s) :
    Stage c (tr ++ [⟨s, e, s'⟩]) s' := by
  have hstep := step_cases hst
  have htasks : (∀ handle e', e ≠ .task handle e') →
      ∀ k, entriesOf c (Server.acts (serverMovesOf k ⟨s, e, s'⟩)) = [] := by
    intro he k
    rw [acts_serverMovesOf he]
    rfl
  cases hstep with
  | task => exact stage_task hr hst h
  | finish | rehash | connect =>
    exact h.quiet ⟨rfl, htasks (by simp), by simp [answeredOf], by simp, by simp⟩
  | reap hc | accept hc | refuse hc | acceptErr hc | signal hc =>
    exact h.quiet ⟨rfl, htasks (by simp), by simp [answeredOf],
      by simp [State.reap, State.shutdown], by simp [hc]⟩
  | @noRequest framed r hc hno =>
    have hacts : actsOf ⟨s, .request r, { s with control := .top }⟩ = [] := by
      rcases r with _ | _ | frame
      · rfl
      · rfl
      · exact absurd rfl (hno frame)
    exact h.quiet ⟨by rw [hacts]; rfl, htasks (by simp), by simp [answeredOf], by simp,
      by simp [hc]⟩
  | @request framed frame _ hc hs =>
    by_cases hf : framed = c
    · subst hf
      exact stage_request hr hc hst h
    · obtain ⟨⟨reply, next, hrep⟩, -, hho, -, -⟩ := serve_logs hs
      refine h.quiet ⟨?_, htasks (by simp), by simp [answeredOf], by simp [hho],
        by simp [hc, hrep, hf]⟩
      simp [actsOf, hc, Control.conn?, entriesOf_of_ne hf]
  | @replied framed reply next ok hc =>
    by_cases hf : framed = c
    · subst hf
      exact stage_replied hr hc hst h
    · obtain ⟨-, hho, -, -, hn⟩ := @proceed_logs
        { s with replies := if ok then s.replies ++ [(framed, reply)] else s.replies } framed next
      refine h.quiet ⟨?_, htasks (by simp), ?_, fun k => ?_, fun reply' next' => ?_⟩
      · simp [actsOf, hc, entriesOf_of_ne hf]
      · simpa [answeredOf, hc, Control.conn?] using Ne.symm hf
      · rw [hho, List.mem_append, mem_handOffs]
        exact or_iff_left fun hk => hf hk.1.symm
      · exact iff_of_false (hn c reply' next') (by simp [hc, hf])

/-- Every connection is in a stage. -/
theorem stage (hr : lts.Run .init tr s) (c : Conn) : Stage c tr s := by
  induction hr with
  | refl => exact .early (by simp [answered]) (by simp [State.init]) rfl
  | tail hr hst ih => exact stage_step hr hst ih

/-! ### The protocol of a connection -/

/-- The frames written on a connection, in order. -/
def framesWritten (c : Conn) (tr : List (Move State Event)) : List Frame :=
  (actsOn c tr).filterMap Act.written?

/-- The frames read on a connection, in order. -/
def framesRead (c : Conn) (tr : List (Move State Event)) : List Frame :=
  (actsOn c tr).filterMap Act.read?

/-- Once a send on a connection failed, no later send on it succeeds. -/
def FailuresStick (tr : List (Move State Event)) : Prop :=
  ∀ c, (actsOn c tr).Pairwise fun a b => ∀ f, a = .sent f false → b.written? = none

/-- The frames that answer a request. -/
def IsReply : Frame → Prop
  | .sessionCreated _ | .sessionInfo _ | .ok | .error _ => True
  | .data _ | .resize _ _ | .exit _ | .detached | .ping | .pong | .env _ | .newSession _
  | .attach _ | .listSessions | .killSession _ | .killServer => False

/-- The request opens a session, and the reply says so. -/
def Opens (frame reply : Frame) : Prop :=
  (∃ name id, frame = .newSession name ∧ reply = .sessionCreated id) ∨
    ∃ session, frame = .attach session ∧ reply = .ok

/-- What a connection is sent: nothing, or the reply to its first frame, and after a reply that
opens a session what a client is sent. -/
def Spoken (c : Conn) (tr : List (Move State Event)) : Prop :=
  framesWritten c tr = [] ∨
    ∃ frame reply next rest, framesWritten c tr = reply :: rest ∧
      (framesRead c tr).head? = some frame ∧ RepliesWith tr c frame reply next ∧ IsReply reply ∧
      Server.Talk rest ∧ (rest ≠ [] → Opens frame reply)

/-- The protocol of the connections. -/
structure Protocol (tr : List (Move State Event)) (s : State) : Prop where
  spoken : ∀ c, Spoken c tr
  pongs : ∀ c, (framesWritten c tr).count .pong ≤ (framesRead c tr).count .ping
  /-- a client is detached by the next one that was handed to the same task -/
  detached : ∀ m ∈ tr, ∀ c ok, (c, .sent .detached ok) ∈ actsOf m →
    ∃ k newFramed, m.lbl = .task k (.sent ok) ∧
      (m.src.tasks k).server.phase = .sendDetached c newFramed ∧
      (m.dst.tasks k).server.phase = .relay newFramed ∧
      [c, newFramed].Sublist (m.src.handedTo k)
  /-- no connection is handed to two tasks, or twice -/
  handOffs : (s.handOffs.map Prod.fst).Nodup
  /-- a task takes the connections in the order of the hand-offs -/
  adopted : ∀ k, Server.adopted (serverRun k tr) <+: s.handedTo k
  /-- a task works on one connection at a time, that of its current client, in that order -/
  turns : ∀ k, ∃ clients, clients <+: s.handedTo k ∧
    InTurn clients (Server.acts (serverRun k tr)) ∧
    ∀ c, (s.tasks k).server.phase.holds.head? = some c → clients.getLast? = some c

theorem reply_of_serve {frame reply : Frame} {next : Next} (h : Serve s c frame s')
    (hc : s'.control = .replying c reply next) :
    IsReply reply ∧ ((∃ k, next = .handOff k) ↔ Opens frame reply) := by
  cases h with
  | created =>
    cases hc
    exact ⟨trivial, iff_of_true ⟨_, rfl⟩ (.inl ⟨_, _, rfl, rfl⟩)⟩
  | attached =>
    cases hc
    exact ⟨trivial, iff_of_true ⟨_, rfl⟩ (.inr ⟨_, rfl, rfl⟩)⟩
  | _ =>
    cases hc
    exact ⟨trivial, by simp [Opens, noSuchSession]⟩

/-- The reply to a request opens a session if and only if the connection is handed to a task. -/
theorem RepliesWith.spec {frame reply : Frame} {next : Next} (hr : lts.Run .init tr s)
    (h : RepliesWith tr c frame reply next) :
    IsReply reply ∧ ((∃ k, next = .handOff k) ↔ Opens frame reply) := by
  obtain ⟨m, hm, hc, hl, hrep⟩ := h
  obtain ⟨hst, -⟩ := hr.move hm
  rw [hl] at hst
  exact reply_of_serve (serve_of_step hc hst) hrep

theorem handed_serverRun_nodup (hr : lts.Run .init tr s) (k : TaskId) :
    (Server.handed (serverRun k tr)).Nodup := by
  rw [handed_serverRun hr k]
  exact (handOffs_nodup hr).sublist (List.filter_sublist.map _)

/-- The laws of the session task hold of the connections handed to a task. -/
theorem conversation (hr : lts.Run .init tr s) (k : TaskId) (c : Conn) :
    Server.Conversation c (serverRun k tr) (s.tasks k).server :=
  Server.conversation (run_serverRun hr k) (handed_serverRun_nodup hr k) c

/-- The frames that a task writes on a connection. -/
theorem written_taskActsOn (hr : lts.Run .init tr s) (k : TaskId) (c : Conn) :
    (taskActsOn k c tr).filterMap Act.written? = (s.tasks k).server.sentTo c :=
  (Server.sentTo_eq_acts (run_serverRun hr k) c).symm

/-- What was written and read on a connection: the reply comes first, also when it got lost. -/
theorem written_cases (hr : lts.Run .init tr s) (hf : FailuresStick tr) (c : Conn) :
    framesWritten c tr = [] ∨
      ∃ frame reply next more, RepliesWith tr c frame reply next ∧
        framesRead c tr = frame :: more.filterMap Act.read? ∧
        framesWritten c tr = reply :: more.filterMap Act.written? ∧
        (more = [] ∨ ∃ k, next = .handOff k ∧ more = taskActsOn k c tr) := by
  cases stage hr c with
  | early _ _ h => exact .inl (by rw [framesWritten, h]; rfl)
  | due _ _ _ h => exact .inl (by rw [framesWritten, h]; rfl)
  | @closed frame reply next ok _ _ hrep _ h =>
    cases ok
    · exact .inl (by rw [framesWritten, h]; rfl)
    · exact .inr ⟨frame, reply, next, [], hrep, by rw [framesRead, h]; rfl,
        by rw [framesWritten, h]; rfl, .inl rfl⟩
  | @handed frame reply k ok _ _ hrep h =>
    cases ok
    -- after the reply got lost every send fails
    · have hlost := hf c
      rw [h] at hlost
      refine .inl ?_
      rw [framesWritten, h, List.filterMap_eq_nil_iff]
      intro a ha
      rcases List.mem_cons.1 ha with rfl | ha
      · rfl
      rcases List.mem_cons.1 ha with rfl | ha
      · rfl
      · exact (List.pairwise_cons.1 (List.pairwise_cons.1 hlost).2).1 a ha reply rfl
    · exact .inr ⟨frame, reply, _, taskActsOn k c tr, hrep, by rw [framesRead, h]; rfl,
        by rw [framesWritten, h]; rfl, .inr ⟨k, rfl, rfl⟩⟩

theorem spoken (hr : lts.Run .init tr s) (hf : FailuresStick tr) (c : Conn) : Spoken c tr := by
  rcases written_cases hr hf c with h | ⟨frame, reply, next, more, hrep, hread, hwrit, hmore⟩
  · exact .inl h
  · obtain ⟨hreply, hopens⟩ := hrep.spec hr
    have htalk : Server.Talk (more.filterMap Act.written?) ∧
        (more = [] ∨ ∃ k, next = .handOff k) := by
      rcases hmore with rfl | ⟨k, hk, rfl⟩
      · exact ⟨.served (by simp), .inl rfl⟩
      · rw [written_taskActsOn hr]
        exact ⟨(conversation hr k c).talk, .inr ⟨k, hk⟩⟩
    refine .inr ⟨frame, reply, next, _, hwrit, by rw [hread]; rfl, hrep, hreply, htalk.1, ?_⟩
    intro hne
    rcases htalk.2 with rfl | hk
    · exact absurd rfl hne
    · exact hopens.1 hk

theorem pongs_le (hr : lts.Run .init tr s) (hf : FailuresStick tr) (c : Conn) :
    (framesWritten c tr).count .pong ≤ (framesRead c tr).count .ping := by
  rcases written_cases hr hf c with h | ⟨frame, reply, next, more, hrep, hread, hwrit, hmore⟩
  · rw [h]
    exact Nat.zero_le _
  · have hreply : reply ≠ .pong := by
      rintro rfl
      exact (hrep.spec hr).1
    have hle : (more.filterMap Act.written?).count .pong ≤
        (more.filterMap Act.read?).count .ping := by
      rcases hmore with rfl | ⟨k, -, rfl⟩
      · exact Nat.le_refl _
      · rw [written_taskActsOn hr]
        have hp := (conversation hr k c).pongs
        exact ((Nat.le_add_right _ _).trans hp).trans (Server.pings_le_acts c _)
    rw [hwrit, hread, List.count_cons_of_ne hreply]
    exact hle.trans (List.count_le_count_cons)

/-- A client is detached by the next one that was handed to the same task. -/
theorem detached_by (hr : lts.Run .init tr s) {m : Move State Event} (hm : m ∈ tr) {ok : Bool}
    (ha : (c, .sent .detached ok) ∈ actsOf m) :
    ∃ k newFramed, m.lbl = .task k (.sent ok) ∧
      (m.src.tasks k).server.phase = .sendDetached c newFramed ∧
      (m.dst.tasks k).server.phase = .relay newFramed ∧
      [c, newFramed].Sublist (m.src.handedTo k) := by
  obtain ⟨hst, tr₁, -, -, hr₁⟩ := hr.move hm
  obtain ⟨s₁, e, s₂⟩ := m
  change lts.step s₁ e s₂ at hst
  change lts.Run .init tr₁ s₁ at hr₁
  cases e with
  | task k e =>
    obtain ⟨hl, hsend⟩ := Server.send_of_act ha
    obtain ⟨newFramed, hp⟩ := Server.phase_of_detached hsend
    change e = .sent ok at hl
    change (s₁.tasks k).server.phase = _ at hp
    subst hl
    refine ⟨k, newFramed, rfl, hp, ?_, ?_⟩
    · cases step_cases hst with
      | task _ _ hserver =>
        simpa using Server.relay_of_detached (Server.step_cases hserver) hp
    · have hheld := Server.held_sublist_handed (run_serverRun hr₁ k)
      rw [handed_serverRun hr₁ k] at hheld
      have hholds : (s₁.tasks k).server.phase.holds = [c, newFramed] := by rw [hp]; rfl
      exact hholds ▸ Server.holds_sublist_held.trans hheld
  | replied ok' =>
    -- a reply is not a `Detached`
    cases hc : s₁.control with
    | replying framed reply next =>
      obtain ⟨rfl, rfl, -⟩ : c = framed ∧ .detached = reply ∧ ok = ok' := by
        simpa [actsOf, hc] using ha
      cases stage hr₁ c with
      | early _ hno => exact absurd hc (hno _ _)
      | due _ hc' hrep =>
        obtain ⟨-, rfl, -⟩ := Control.replying.inj (hc.symm.trans hc')
        exact absurd (hrep.spec hr₁).1 not_false
      | closed ha' | handed ha' =>
        exact absurd ha' (not_answered_of_owned hr₁ (mem_owned_of_conn? (by rw [hc]; rfl)))
    | _ => simp [actsOf, hc] at ha
  | request r =>
    rcases r with _ | _ | frame <;> simp [actsOf] at ha
  | _ => simp [actsOf] at ha

/-- **The protocol of a connection, seen from the server side.**  In every run in which a failed
send makes the later sends on its connection fail: what is written on a connection is the reply to
its first frame, and after a reply that opens a session `Data` and `Pong` frames, with at most one
`Pong` for a `Ping`, and then at most one `Detached` or `Exit`; a `Detached` is written when the
next connection handed to the same task takes over; and a task works on one connection at a time, in
the order of the hand-offs. -/
theorem protocol (hr : lts.Run .init tr s) (hf : FailuresStick tr) : Protocol tr s where
  spoken := spoken hr hf
  pongs := pongs_le hr hf
  detached _ hm _ _ ha := detached_by hr hm ha
  handOffs := handOffs_nodup hr
  adopted k := by
    rw [← handed_serverRun hr k]
    exact (List.prefix_append _ _).trans
      (Server.adopted_append_queue_le (run_serverRun hr k)).1
  turns k := by
    obtain ⟨clients, ha, ht, hc⟩ := Server.inTurn_acts (run_serverRun hr k)
    refine ⟨clients, ?_, ht, hc⟩
    rw [← handed_serverRun hr k]
    exact (ha ▸ (List.prefix_append _ _).trans (List.prefix_append _ _)).trans
      (Server.adopted_append_queue_le (run_serverRun hr k)).1

theorem failuresStick_of_forall (h : ∀ p ∈ tr.flatMap actsOf, ∀ f, p.2 ≠ .sent f false) :
    FailuresStick tr := by
  refine fun c => List.Pairwise.imp_of_mem ?_ (List.pairwise_of_forall fun _ _ => trivial)
  intro a b ha _ _ f hf
  exact absurd hf (h _ (mem_entriesOf.1 ha) f)

/-- A session is created, and its client sends a `Ping`. -/
def pingEvents : List Event :=
  [.connect, .reap, .accept true, .request (some (.ok (.newSession "work"))), .replied true,
    .task 0 (.openpty (some "/dev/pts/1")), .task 0 .recv, .task 0 (.firstFrame none),
    .task 0 (.spawn (some 7)), .task 0 (.next (some (.ok .ping))), .task 0 (.sent true)]

/-- The client is answered twice. -/
theorem protocol_ping :
    ∃ s, LTS.exec step .init pingEvents = some s ∧
      Protocol (LTS.trace step .init pingEvents) s ∧
      framesWritten 0 (LTS.trace step .init pingEvents) = [.sessionCreated "0", .pong] := by
  have h : ∃ s, LTS.exec step .init pingEvents = some s := ⟨_, rfl⟩
  have hacts : (LTS.trace step .init pingEvents).flatMap actsOf =
      [(0, .read (.newSession "work")), (0, .sent (.sessionCreated "0") true), (0, .read .ping),
        (0, .sent .pong true)] := by rfl
  obtain ⟨s, h⟩ := h
  refine ⟨s, h, protocol (LTS.run_of_exec h) (failuresStick_of_forall ?_), ?_⟩
  · rw [hacts]
    simp
  · rw [framesWritten, actsOn, hacts]
    rfl

end Daemon

end Gritty
