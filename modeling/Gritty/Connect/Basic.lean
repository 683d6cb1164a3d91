import Gritty.LTS.Basic

/-!
# The tunnel of `gritty connect`

`connect::run` spawns an `ssh`, waits for its socket, hands the child to the task `tunnel_monitor`
and waits for a signal or for the end of that task.  The two tasks run side by side from the moment
`spawn_tunnel` has succeeded.  Beside them there are the `ssh` processes, which bind the local
socket and exit when they like, and the clock, in milliseconds.

Nothing that comes before `spawn_tunnel` is modelled.  In particular the `ssh` that `remote_exec`
runs to ask the remote host for its socket has come and gone, and is not counted as a tunnel.

## Main definitions

* `Ssh`, `Monitor`, `Phase` : a process, and the control points of the two tasks.
* `recent`, `onExit` : the pruned list of exits, and what the monitor does about one more.
* `runStep`, `monitorStep` : the steps of the two tasks.
* `step` : the system, where the clock and the processes move as well.
-/

namespace Gritty

namespace Connect

/-- A process, by its place in the order of spawning. -/
abbrev Pid := ℕ

/-- A process of `spawn_tunnel`. -/
structure Ssh where
  /-- the exit status once there is one: a code, or `none` for the death by a signal -/
  exit : Option (Option Int32)
  /-- SIGTERM or SIGKILL was sent to it -/
  signalled : Bool

/-- Why `tunnel_monitor` returned. -/
inductive End where
  /-- cancelled in the `select!`, after the kill -/
  | killed
  /-- found the token cancelled -/
  | cancelled
  | waitFailed (child : Pid)
  | notRetrying (code : Int32)
  | tooFast
  | spawnFailed

/-- Where `tunnel_monitor` is. -/
inductive Monitor where
  | unborn
  /-- in the `select!` with its child -/
  | select (child : Pid)
  /-- `child.kill().await` -/
  | killing (child : Pid)
  /-- behind `child.wait()` -/
  | exited (status : Option Int32)
  | sleeping (deadline : ℕ)
  /-- in front of `spawn_tunnel` -/
  | spawning
  | ended (why : End)

/-- Where `run` is. -/
inductive Phase where
  | waitSocket (deadline : ℕ)
  /-- the monitor is spawned, the handler of SIGTERM not yet installed -/
  | handedOff
  | select
  /-- the guard is dropped: in front of `stop.cancel()`, of `libc::kill` and of `remove_file` -/
  | cancelling
  | killing
  | removing
  | removed
  | returned

/-- The two tasks, what they share, the processes and the clock. -/
structure State where
  run : Phase
  /-- the child in the `ConnectGuard` -/
  guard : Option Pid
  /-- the cancellation token -/
  stop : Bool
  monitor : Monitor
  exitTimes : List ℕ
  /-- every `ssh` spawned so far -/
  children : List Ssh
  /-- there is a file at the path of the local socket -/
  socket : Bool
  now : ℕ

/-- What the task of `run` does next. -/
inductive RunEvent where
  /-- the socket is connectable -/
  | ready
  | timeout
  /-- the handler of SIGTERM -/
  | listen (ok : Bool)
  | interrupt
  | terminate
  /-- the monitor has returned -/
  | lost
  | cancel
  | kill
  | remove (ok : Bool)
  | finish
  deriving DecidableEq

/-- What the task `tunnel_monitor` does next. -/
inductive MonitorEvent where
  /-- the `select!` takes the branch of the token -/
  | notice
  | killed
  /-- the `select!` takes the branch of the child -/
  | reap
  | waitFailed
  /-- the code between `child.wait()` and the sleep -/
  | check
  | wake
  | spawn (ok : Bool)
  deriving DecidableEq

/-- Time passes, a process exits or binds the socket, or a task steps. -/
inductive Event where
  | elapse (ms : ℕ)
  | exit (child : Pid) (status : Option Int32) (unlinks : Bool)
  | bind (child : Pid)
  | run (e : RunEvent)
  | monitor (e : MonitorEvent)
  deriving DecidableEq

/-- The state behind `spawn_tunnel`: the first tunnel runs, and a stale socket file may be left.
The `ssh` of `remote_exec` was run to its end before. -/
def State.init (now : ℕ) (socket : Bool) : State :=
  { run := .waitSocket (now + 15000), guard := some 0, stop := false, monitor := .unborn,
    exitTimes := [], children := [⟨none, false⟩], socket := socket, now := now }

/-- The process is sent a signal. -/
def Ssh.signal (c : Ssh) : Ssh := { c with signalled := true }

/-- `libc::kill` and `Child::kill` -/
def State.signal (s : State) (child : Pid) : State :=
  { s with children := s.children.modify child Ssh.signal }

/-- A code that the monitor does not retry. -/
def permanent : Option Int32 → Option Int32
  | some c => if c ≠ 255 then some c else none
  | none => none

/-- The instants less than ten seconds ago. -/
def recent (now : ℕ) (times : List ℕ) : List ℕ :=
  times.filter fun t => now - t < 10000

/-- What `tunnel_monitor` makes of an exit: its `exit_times`, and where it goes. -/
def onExit (exitTimes : List ℕ) (now : ℕ) (status : Option Int32) : List ℕ × Monitor :=
  match permanent status with
  | some c => (exitTimes, .ended (.notRetrying c))
  | none =>
    let exitTimes := recent now (exitTimes ++ [now])
    if 5 ≤ exitTimes.length then (exitTimes, .ended .tooFast)
    else (exitTimes, .sleeping (now + 1000))

/-- A running `ssh`. -/
def State.running (s : State) (child : Pid) : Bool :=
  (s.children[child]?.map fun c => c.exit.isNone).getD false

/-- The code of `run`, from `wait_for_socket` to its return. -/
def runStep (s : State) : RunEvent → Option State
  | .ready =>
    match s.run, s.guard with
    | .waitSocket _, some child =>
      if s.socket then
        some { s with run := .handedOff, guard := none, monitor := .select child }
      else none
    | _, _ => none
  | .timeout =>
    match s.run with
    | .waitSocket deadline => if deadline ≤ s.now then some { s with run := .cancelling } else none
    | _ => none
  | .listen ok =>
    match s.run with
    | .handedOff => some { s with run := if ok then .select else .cancelling }
    | _ => none
  | .interrupt | .terminate =>
    match s.run with
    | .select => some { s with run := .cancelling }
    | _ => none
  | .lost =>
    match s.run, s.monitor with
    | .select, .ended _ => some { s with run := .cancelling }
    | _, _ => none
  | .cancel =>
    match s.run with
    | .cancelling => some { s with run := .killing, stop := true }
    | _ => none
  | .kill =>
    match s.run with
    | .killing =>
      match s.guard with
      | some child => some { s.signal child with run := .removing }
      | none => some { s with run := .removing }
    | _ => none
  | .remove ok =>
    match s.run with
    | .removing => some { s with run := .removed, socket := s.socket && !ok }
    | _ => none
  | .finish =>
    match s.run with
    | .removed => some { s with run := .returned }
    | _ => none

/-- The code of `tunnel_monitor`. -/
def monitorStep (s : State) : MonitorEvent → Option State
  | .notice =>
    match s.monitor with
    | .select child =>
      if s.stop then some { s.signal child with monitor := .killing child } else none
    | _ => none
  | .killed =>
    match s.monitor with
    | .killing child =>
      if s.running child then none else some { s with monitor := .ended .killed }
    | _ => none
  | .reap =>
    match s.monitor with
    | .select child =>
      (s.children[child]?.bind Ssh.exit).map fun status => { s with monitor := .exited status }
    | _ => none
  | .waitFailed =>
    match s.monitor with
    | .select child => some { s with monitor := .ended (.waitFailed child) }
    | _ => none
  | .check =>
    match s.monitor with
    | .exited status =>
      if s.stop then some { s with monitor := .ended .cancelled }
      else
        let (exitTimes, monitor) := onExit s.exitTimes s.now status
        some { s with exitTimes := exitTimes, monitor := monitor }
    | _ => none
  | .wake =>
    match s.monitor with
    | .sleeping deadline =>
      if s.now < deadline then none
      else if s.stop then some { s with monitor := .ended .cancelled }
      else some { s with monitor := .spawning }
    | _ => none
  | .spawn ok =>
    match s.monitor with
    | .spawning =>
      if ok then
        some { s with children := s.children ++ [⟨none, false⟩],
                      monitor := .select s.children.length }
      else some { s with monitor := .ended .spawnFailed }
    | _ => none

/-- What an event does, when it can happen. -/
def step (s : State) : Event → Option State
  | .elapse ms => some { s with now := s.now + ms }
  | .exit child status unlinks =>
    if s.running child then
      some { s with children := s.children.modify child fun c => { c with exit := some status },
                    socket := s.socket && !unlinks }
    else none
  | .bind child => if s.running child then some { s with socket := true } else none
  | .run e => runStep s e
  | .monitor e => monitorStep s e

/-- `run` and `tunnel_monitor` side by side. -/
def lts : LTS State Event := .ofFun step

end Connect

end Gritty
