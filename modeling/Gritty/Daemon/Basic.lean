import Gritty.Server.Basic
import Gritty.Table.Basic
import Gritty.Text.Decimal
import Mathlib.Data.List.Sort
import Mathlib.Logic.Function.Basic

/-!
# The daemon

`daemon::run` accepts one connection at a time, serves one control request on it and keeps the
table of sessions.  Each session is a spawned task, so `State` holds the daemon's control point and
table together with the tasks that run beside it: between any two steps of the daemon any task may
step, end, and be seen finished.

The table maps ids to `SessionState`.  A session's `JoinHandle`, metadata slot and channel all lead
to one task, whose number `SessionState.handle` keeps.  The sender of a channel is dropped when the
table and the control loop no longer hold it (`State.holdsSender`).

## Main definitions

* `reapSessions`, `resolveSession`, `buildSessionEntries` : the functions on the table.
* `Control` : the points of the control loop, from its head to the hand-off.
* `State.newSession`, `State.attach`, `State.kill`, `State.list` : the arms of the request.
* `State.serve` : a request, up to the reply that is due.
* `step` : the daemon with its tasks, one move at a time.
-/

namespace Gritty

namespace Daemon

/-- A spawned task, numbered in the order of `tokio::spawn`. -/
abbrev TaskId := ℕ

/-! ### Tasks and the table -/

/-- A spawned session task. -/
structure Task where
  server : Server.State
  /-- `JoinHandle::is_finished` -/
  isFinished : Bool
  /-- `JoinHandle::abort` was called -/
  aborted : Bool

/-- A task that is just spawned. -/
def Task.spawned : Task := ⟨.init, false, false⟩

/-- `client_tx.is_closed()` : the task has dropped the receiver. -/
def Task.isClosed (t : Task) : Bool :=
  match t.server.phase with
  | .ended _ => true
  | _ => false

/-- `client_tx.send(framed)`, whose result is ignored. -/
def Task.send (t : Task) (framed : Conn) : Task :=
  { t with server := (Server.step t.server (.handOff framed)).getD t.server }

/-- An entry of the table: the task of the session, and its name. -/
structure SessionState where
  handle : TaskId
  name : Option String
  deriving DecidableEq

/-- The table; the order of its entries is the iteration order of the `HashMap`. -/
abbrev Sessions := AList fun _ : UInt32 => SessionState

/-- `reap_sessions` : drop the sessions whose tasks have finished. -/
def reapSessions (tasks : TaskId → Task) (sessions : Sessions) : Sessions :=
  Table.retain (fun e => !(tasks e.2.handle).isFinished) sessions

/-- Resolve a session identifier (name or id string) to a session id. -/
def resolveSession (sessions : Sessions) (target : String) : Option UInt32 :=
  match sessions.entries.find? fun e => e.2.name == some target with
  | some e => some e.1
  | none =>
    match Text.parseU32 target with
    | some id => if id ∈ sessions then some id else none
    | none => none

/-- The row of one session: before the metadata is published all its fields are blank. -/
def sessionEntry (tasks : TaskId → Task) (id : UInt32) (state : SessionState) : SessionEntry :=
  match (tasks state.handle).server.metadata with
  | some m =>
    { id := toString id
      name := state.name.getD ""
      ptyPath := m.ptyPath
      shellPid := m.shellPid
      createdAt := m.createdAt
      attached := m.attached
      lastHeartbeat := m.lastHeartbeat }
  | none =>
    { id := toString id
      name := state.name.getD ""
      ptyPath := ""
      shellPid := 0
      createdAt := 0
      attached := false
      lastHeartbeat := 0 }

/-- The key that the rows are sorted by. -/
def sortKey (e : SessionEntry) : UInt32 := (Text.parseU32 e.id).getD 4294967295

/-- `build_session_entries` : a row for each session, sorted by the id that it shows. -/
def buildSessionEntries (tasks : TaskId → Task) (sessions : Sessions) : List SessionEntry :=
  (sessions.entries.map fun e => sessionEntry tasks e.1 e.2).insertionSort
    fun a b => sortKey a ≤ sortKey b

/-! ### The control loop -/

/-- What follows a reply. -/
inductive Next where
  /-- hand the connection to a task, then go on -/
  | handOff (handle : TaskId)
  | again
  | quit
  deriving DecidableEq

/-- Where the control loop waits. -/
inductive Control where
  /-- the loop head, before `reap_sessions` -/
  | top
  /-- the `select!` over the listener and the signals -/
  | accepting
  /-- `framed.next()` -/
  | reading (framed : Conn)
  /-- `framed.send(reply)`, whose result is ignored -/
  | replying (framed : Conn) (reply : Frame) (next : Next)
  | returned (ok : Bool)
  | panicked
  deriving DecidableEq

/-- What can happen. -/
inductive Event where
  /-- a session task steps, or the world around it does -/
  | task (handle : TaskId) (e : Server.Event)
  /-- a task that ended is seen finished -/
  | finish (handle : TaskId)
  /-- the `HashMap` changes its iteration order -/
  | rehash (sessions : Sessions)
  /-- someone connects to the control socket -/
  | connect
  /-- the loop head -/
  | reap
  /-- the listener accepts; `verify_peer_uid` says whether the peer is the same user -/
  | accept (sameUid : Bool)
  | acceptErr
  /-- SIGTERM or SIGINT -/
  | signal
  /-- `framed.next()` resolves, and the frame is served up to the reply -/
  | request (r : Server.NextFrame)
  /-- the reply was sent, or the send failed -/
  | replied (ok : Bool)

/-- The daemon and its session tasks. -/
structure State where
  control : Control
  sessions : Sessions
  nextId : UInt32
  tasks : TaskId → Task
  /-- the ids given out: the `k`-th is the id of the session that task `k` runs -/
  issued : List UInt32
  /-- connections not accepted yet, first in front -/
  backlog : List Conn
  /-- the number of connections made; each gets the next number -/
  connected : ℕ
  /-- replies sent, first in front -/
  replies : List (Conn × Frame)
  /-- connections handed to tasks, first in front -/
  handOffs : List (Conn × TaskId)

/-- The daemon when it starts to listen. -/
def State.init : State where
  control := .top
  sessions := ∅
  nextId := 0
  tasks := fun _ => .spawned
  issued := []
  backlog := []
  connected := 0
  replies := []
  handOffs := []

/-- `reap_sessions`, as the loop calls it. -/
def State.reap (s : State) : State := { s with sessions := reapSessions s.tasks s.sessions }

/-- Send a reply. -/
def State.reply (s : State) (framed : Conn) (reply : Frame) (next : Next) : State :=
  { s with control := .replying framed reply next }

/-- `shutdown` -/
def State.shutdown (s : State) : State :=
  { s with
    sessions := ∅
    tasks := fun k =>
      if s.sessions.entries.any fun e => e.2.handle == k then { s.tasks k with aborted := true }
      else s.tasks k }

/-- Spawn a session task and enter the session in the table. -/
def State.create (s : State) (framed : Conn) (name : Option String) : State :=
  let id := s.nextId
  let handle := s.issued.length
  { s with
    nextId := s.nextId + 1
    tasks := Function.update s.tasks handle .spawned
    issued := s.issued ++ [id]
    sessions := s.sessions.insert id ⟨handle, name⟩
    control := .replying framed (.sessionCreated (toString id)) (.handOff handle) }

/-- `name_opt` : an empty name is no name. -/
def nameOpt (name : String) : Option String := if name = "" then none else some name

/-- `Frame::NewSession` -/
def State.newSession (s : State) (framed : Conn) (name : String) : State :=
  match nameOpt name with
  | some n =>
    if s.sessions.entries.any fun e => e.2.name == some n then
      s.reply framed (.error ("session name already exists: " ++ n)) .again
    else s.create framed (some n)
  | none => s.create framed none

/-- The refusal of a target that does not resolve. -/
def noSuchSession (session : String) : Frame := .error ("no such session: " ++ session)

/-- `Frame::Attach`, once the finished sessions are reaped -/
def State.attach (s : State) (framed : Conn) (session : String) : State :=
  match resolveSession s.sessions session with
  | some id =>
    match s.sessions.lookup id with
    | some state =>
      if (s.tasks state.handle).isClosed then
        { s with sessions := s.sessions.erase id }.reply framed (noSuchSession session) .again
      else s.reply framed .ok (.handOff state.handle)
    | none => { s with control := .panicked }
  | none => s.reply framed (noSuchSession session) .again

/-- `JoinHandle::abort` -/
def State.abort (s : State) (handle : TaskId) : State :=
  { s with tasks := Function.update s.tasks handle { s.tasks handle with aborted := true } }

/-- `Frame::KillSession`, once the finished sessions are reaped -/
def State.kill (s : State) (framed : Conn) (session : String) : State :=
  match resolveSession s.sessions session with
  | some id =>
    match s.sessions.lookup id with
    | some state =>
      ({ s with sessions := s.sessions.erase id }.abort state.handle).reply framed .ok .again
    | none => { s with control := .panicked }
  | none => s.reply framed (noSuchSession session) .again

/-- `Frame::ListSessions`, once the finished sessions are reaped -/
def State.list (s : State) (framed : Conn) : State :=
  s.reply framed (.sessionInfo (buildSessionEntries s.tasks s.sessions)) .again

/-- Serve a control request.  `NewSession` is the only one of the requests about sessions that
does not reap first. -/
def State.serve (s : State) (framed : Conn) : Frame → State
  | .newSession name => s.newSession framed name
  | .attach session => s.reap.attach framed session
  | .listSessions => s.reap.list framed
  | .killSession session => s.reap.kill framed session
  | .killServer => s.shutdown.reply framed .ok .quit
  | _ => s.reply framed (.error "unexpected frame type") .again

/-- After the reply. -/
def State.proceed (s : State) (framed : Conn) : Next → State
  | .handOff handle =>
    { s with
      tasks := Function.update s.tasks handle ((s.tasks handle).send framed)
      handOffs := s.handOffs ++ [(framed, handle)]
      control := .top }
  | .again => { s with control := .top }
  | .quit => { s with control := .returned true }

/-- The table or the control loop holds the sender of a task's channel. -/
def State.holdsSender (s : State) (handle : TaskId) : Bool :=
  (s.sessions.entries.any fun e => e.2.handle == handle) ||
    match s.control with
    | .replying _ _ (.handOff k) => k == handle
    | _ => false

/-- What may happen to a task by itself: its channel and its abortion are the daemon's business. -/
def State.allows (s : State) (handle : TaskId) : Server.Event → Bool
  | .handOff _ => false
  | .dropSenders => !s.holdsSender handle
  | .abort => (s.tasks handle).aborted
  | _ => true

/-- One step of a task. -/
def State.stepTask (s : State) (handle : TaskId) (e : Server.Event) : Option State :=
  if handle < s.issued.length ∧ s.allows handle e = true then
    (Server.step (s.tasks handle).server e).map fun server =>
      { s with tasks := Function.update s.tasks handle { s.tasks handle with server := server } }
  else none

/-- One step of the daemon or of what runs beside it. -/
def step (s : State) : Event → Option State
  | .task handle e => s.stepTask handle e
  | .finish handle =>
    if handle < s.issued.length ∧ (s.tasks handle).isClosed = true then
      some { s with
        tasks := Function.update s.tasks handle { s.tasks handle with isFinished := true } }
    else none
  | .rehash sessions =>
    if sessions.entries.Perm s.sessions.entries then some { s with sessions := sessions } else none
  | .connect =>
    some { s with backlog := s.backlog ++ [s.connected], connected := s.connected + 1 }
  | .reap =>
    match s.control with
    | .top => some { s.reap with control := .accepting }
    | _ => none
  | .accept sameUid =>
    match s.control, s.backlog with
    | .accepting, framed :: backlog =>
      some { s with backlog := backlog, control := if sameUid then .reading framed else .top }
    | _, _ => none
  | .acceptErr =>
    match s.control with
    | .accepting => some { s with sessions := ∅, control := .returned false }
    | _ => none
  | .signal =>
    match s.control with
    | .accepting => some { s.shutdown with control := .returned true }
    | _ => none
  | .request r =>
    match s.control with
    | .reading framed =>
      match r with
      | some (.ok frame) => some (s.serve framed frame)
      | _ => some { s with control := .top }
    | _ => none
  | .replied ok =>
    match s.control with
    | .replying framed reply next =>
      let replies := if ok then s.replies ++ [(framed, reply)] else s.replies
      some ({ s with replies := replies }.proceed framed next)
    | _ => none

/-- The daemon as a transition system. -/
def lts : LTS State Event := .ofFun step

end Daemon

end Gritty
