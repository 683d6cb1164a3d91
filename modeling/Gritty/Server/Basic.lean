import Gritty.LTS.Basic
import Gritty.Protocol.Codec

/-!
# The session task

`server::run` owns one PTY with a login shell and serves one client at a time.  `Phase` lists the
points where the task waits, `Event` what it can find there and what the world around it does
(the daemon, the shell, the clock), and `step` what the code does then.  The environment is
free: any event may come at any time, in any order, when it can come at all.

Each connection is named by a number.  What the task writes to connections is logged in `sent`,
what the PTY master accepts in `input`, and what is readable on the master waits in `output`.  Who
has the terminal side of the PTY open is counted, the duplicates in the task's own `cmd` included,
since the master reports the end only when nobody is left.

## Main definitions

* `State.onNext`, `State.onRead`, `State.onWrite`, `State.onWait` : the branches of the relay loop.
* `State.onSpawn` : the shell is spawned, and the metadata is published.
* `stepTask` : the task, at each point where it waits.
* `step` : the task among its clients, the daemon, the shell and the clock.
-/

namespace Gritty

/-- A connection: the server side of a framed Unix stream. -/
abbrev Conn := ℕ

/-- What a listing shows of a session. -/
structure SessionMetadata where
  ptyPath : String
  shellPid : UInt32
  createdAt : UInt64
  attached : Bool
  lastHeartbeat : UInt64
  deriving DecidableEq

/-- The variables that are forwarded. -/
def forwardedKeys : List String := ["TERM", "LANG", "COLORTERM"]

/-- Collect TERM/LANG/COLORTERM from the environment for forwarding to remote sessions.  A variable
that is not set, or whose value is not valid Unicode, is left out. -/
def collectEnvVars (env : String → Option String) : List (String × String) :=
  forwardedKeys.filterMap fun k => (env k).map fun v => (k, v)

namespace Server

/-! ### What the task waits for -/

/-- The exit status of the shell. -/
inductive ExitStatus where
  | code (code : Int32)
  | signal (signal : ℕ)
  deriving DecidableEq

/-- `ExitStatus::code` -/
def ExitStatus.code? : ExitStatus → Option Int32
  | .code c => some c
  | .signal _ => none

/-- The shell, before and after `spawn`. -/
inductive Child where
  | unborn
  | running
  | exited (status : ExitStatus)
  deriving DecidableEq

/-- Why `framed.next()` fails: the connection, an undecodable frame, or an end inside a frame. -/
inductive ReadError where
  | io
  | decode (e : DecodeError)
  | bytesRemaining
  deriving DecidableEq

/-- What `framed.next()` resolves to. -/
abbrev NextFrame := Option (Except ReadError Frame)

/-- A non-blocking read of the PTY master. -/
inductive PtyRead where
  | bytes (n : ℕ)
  | eof
  | eio
  | wouldBlock
  | err
  deriving DecidableEq

/-- A non-blocking write to the PTY master: it reports how many bytes it accepted. -/
inductive PtyWrite where
  | accepted (n : ℕ)
  | wouldBlock
  | err
  deriving DecidableEq

/-- The errors that `run` returns. -/
inductive RunError where
  | openpty
  | spawn
  | clientRead (e : ReadError)
  | clientSend
  | pty
  | wait
  deriving DecidableEq

/-- How the task ends. -/
inductive Outcome where
  | ok
  | err (e : RunError)
  | aborted
  deriving DecidableEq

/-- Where the task waits. -/
inductive Phase where
  /-- the PTY is being allocated -/
  | openpty
  /-- `client_rx.recv()`, before the shell is spawned -/
  | recvFirst
  /-- the optional `Env` frame of the first client -/
  | readEnv (framed : Conn)
  /-- about to spawn the shell -/
  | spawning (framed : Conn) (envVars : List (String × String))
  /-- the outer `select!` : no client -/
  | waiting
  /-- the inner `select!` -/
  | relay (framed : Conn)
  /-- `async_master.writable()` with the payload of a `Data` frame -/
  | writable (framed : Conn) (data : List UInt8)
  | sendPong (framed : Conn)
  | sendData (framed : Conn) (chunk : List UInt8)
  | sendDetached (framed newFramed : Conn)
  | sendExit (framed : Conn) (code : Int32)
  | ended (outcome : Outcome)
  deriving DecidableEq

/-- What can happen. -/
inductive Event where
  /-- the daemon pushes a client onto the channel; a push to a task that ended is lost -/
  | handOff (framed : Conn)
  /-- the last sender of the channel is dropped -/
  | dropSenders
  | abort
  | tick (now : UInt64)
  /-- the shell writes to its terminal -/
  | output (bytes : List UInt8)
  /-- the last of the other processes closes the terminal -/
  | hangup
  | exit (status : ExitStatus)
  /-- the PTY is set up, with the path of its terminal, or a system call failed -/
  | openpty (r : Option String)
  /-- `client_rx.recv()` -/
  | recv
  /-- the first frame, or `none` after 100 ms -/
  | firstFrame (r : Option NextFrame)
  /-- the process id of the spawned shell -/
  | spawn (r : Option UInt32)
  /-- `framed.next()` -/
  | next (r : NextFrame)
  | read (r : PtyRead)
  | write (r : PtyWrite)
  /-- `child.wait()`; `false` for a system error -/
  | wait (ok : Bool)
  /-- a pending `framed.send` ends; `false` when it fails -/
  | sent (ok : Bool)
  deriving DecidableEq

/-- The state of the task and of what it owns. -/
structure State where
  phase : Phase
  /-- clients on the channel, first in front -/
  queue : List Conn
  /-- what is in `framed` : in the outer `select!` it is still the connection of the last client -/
  framed : Option Conn
  sendersDropped : Bool
  ptyPath : String
  /-- `metadata_slot` -/
  metadata : Option SessionMetadata
  child : Child
  /-- the variables the shell was started with -/
  shellEnv : List (String × String)
  /-- the duplicates of the terminal side of the PTY for the shell, which `cmd` owns until `run`
  returns -/
  slaveFds : ℕ
  /-- another process holds the terminal side of the PTY open -/
  slaveOpen : Bool
  /-- bytes the PTY master accepted -/
  input : List UInt8
  /-- bytes readable on the PTY master -/
  output : List UInt8
  /-- window sizes applied, first in front -/
  winsizes : List (UInt16 × UInt16)
  /-- frames written, first in front -/
  sent : List (Conn × Frame)
  /-- `ManagedChild::drop` ran: the process group of the shell was sent SIGHUP -/
  hup : Bool
  now : UInt64
  deriving DecidableEq

/-- The task when `run` starts. -/
def State.init : State where
  phase := .openpty
  queue := []
  framed := none
  sendersDropped := false
  ptyPath := ""
  metadata := none
  child := .unborn
  shellEnv := []
  slaveFds := 0
  slaveOpen := false
  input := []
  output := []
  winsizes := []
  sent := []
  hup := false
  now := 0

/-! ### What the code does -/

/-- `SessionMetadata.attached.store` -/
def State.setAttached (s : State) (b : Bool) : State :=
  { s with metadata := s.metadata.map fun m => { m with attached := b } }

/-- Return from `run`; dropping `managed` hangs up the shell's process group. -/
def State.finish (s : State) (outcome : Outcome) : State :=
  { s with
    phase := .ended outcome
    framed := none
    slaveFds := 0
    hup := decide (s.child ≠ .unborn) }

/-- Nobody has the terminal side of the PTY open, neither the task nor another process: only then
does a read of the PTY master report EOF or EIO. -/
def State.slaveClosed (s : State) : Bool := s.slaveFds == 0 && !s.slaveOpen

/-- `RelayExit::ClientGone` -/
def State.clientGone (s : State) : State := { s.setAttached false with phase := .waiting }

/-- `RelayExit::ShellExited(code)` : a status that `try_wait` already has takes precedence. -/
def State.shellExited (s : State) (framed : Conn) (code : Int32) : State :=
  let code := match s.child with
    | .exited status => status.code?.getD code
    | _ => code
  { s with phase := .sendExit framed code }

/-- A send ends: the frame was written unless it failed. -/
def State.write (s : State) (framed : Conn) (f : Frame) (ok : Bool) : State :=
  { s with sent := if ok then s.sent ++ [(framed, f)] else s.sent }

/-- `MAX_WINSIZE` -/
def maxWinsize : UInt16 := 10000

/-- `u16::clamp(1, MAX_WINSIZE)` -/
def clamp (x : UInt16) : UInt16 := if x < 1 then 1 else if x > maxWinsize then maxWinsize else x

/-- The size that the PTY is set to. -/
def clampWinsize (cols rows : UInt16) : UInt16 × UInt16 := (clamp cols, clamp rows)

/-- The variables taken from the first frame: an `Env` frame in time, or nothing. -/
def envVars : Option NextFrame → List (String × String)
  | some (some (.ok (.env vars))) => vars
  | _ => []

/-- The socket branch of the relay loop. -/
def State.onNext (s : State) (framed : Conn) : NextFrame → State
  | some (.ok (.data data)) => { s with phase := .writable framed data }
  | some (.ok (.resize cols rows)) => { s with winsizes := s.winsizes ++ [clampWinsize cols rows] }
  | some (.ok .ping) =>
    { s with
      metadata := s.metadata.map fun m => { m with lastHeartbeat := s.now }
      phase := .sendPong framed }
  | some (.ok (.exit _)) | none => s.clientGone
  | some (.error e) => s.finish (.err (.clientRead e))
  -- `Some(Ok(_))` : a control frame on a session connection is ignored
  | some (.ok .detached) | some (.ok .pong) | some (.ok (.env _)) | some (.ok (.newSession _))
  | some (.ok (.attach _)) | some (.ok .listSessions) | some (.ok (.killSession _))
  | some (.ok .killServer) | some (.ok (.sessionCreated _)) | some (.ok (.sessionInfo _))
  | some (.ok .ok) | some (.ok (.error _)) => s

/-- The PTY branch of the relay loop. -/
def State.onRead (s : State) (framed : Conn) : PtyRead → Option State
  | .bytes n =>
    if 0 < n ∧ n ≤ 4096 ∧ n ≤ s.output.length then
      some { s with phase := .sendData framed (s.output.take n), output := s.output.drop n }
    else none
  | .eof => if s.slaveClosed then some (s.shellExited framed 0) else none
  | .eio => if s.slaveClosed then some (s.shellExited framed 0) else none
  | .wouldBlock => some s
  | .err => some (s.finish (.err .pty))

/-- The non-blocking write of a payload: a short count is ignored, and on `WouldBlock` the loop
goes on with the next frame. -/
def State.onWrite (s : State) (framed : Conn) (data : List UInt8) : PtyWrite → Option State
  | .accepted n =>
    if n ≤ data.length ∧ (data ≠ [] → 0 < n) then
      some { s with input := s.input ++ data.take n, phase := .relay framed }
    else none
  | .wouldBlock => some { s with phase := .relay framed }
  | .err => some (s.finish (.err .pty))

/-- The shell was spawned: the metadata is published and the first client is relayed. -/
def State.onSpawn (s : State) (framed : Conn) (vars : List (String × String)) (pid : UInt32) :
    State :=
  { s with
    child := .running
    slaveOpen := true
    shellEnv := vars
    metadata := some
      { ptyPath := s.ptyPath, shellPid := pid, createdAt := s.now, attached := true
        lastHeartbeat := 0 }
    phase := .relay framed }

/-- `child.wait()` resolves: only once the shell exited. -/
def State.onWait (s : State) (k : ExitStatus → State) (ok : Bool) : Option State :=
  if ok then
    match s.child with
    | .exited status => some (k status)
    | _ => none
  else some (s.finish (.err .wait))

/-- What happens at a point where the task waits. -/
def stepTask (s : State) : Phase → Event → Option State
  | .openpty, .openpty (some path) =>
    some { s with ptyPath := path, slaveFds := 3, phase := .recvFirst }
  | .openpty, .openpty none => some (s.finish (.err .openpty))
  | .recvFirst, .recv =>
    match s.queue with
    | framed :: queue =>
      some { s with queue := queue, framed := some framed, phase := .readEnv framed }
    | [] => if s.sendersDropped then some (s.finish .ok) else none
  | .readEnv framed, .firstFrame r => some { s with phase := .spawning framed (envVars r) }
  | .spawning framed vars, .spawn (some pid) => some (s.onSpawn framed vars pid)
  | .spawning _ _, .spawn none => some (s.finish (.err .spawn))
  | .waiting, .recv =>
    match s.queue with
    | framed :: queue =>
      some { s.setAttached true with
        queue := queue, framed := some framed, phase := .relay framed }
    | [] => if s.sendersDropped then some (s.finish .ok) else none
  | .waiting, .wait ok => s.onWait (fun _ => s.finish .ok) ok
  | .relay framed, .next r => some (s.onNext framed r)
  | .relay framed, .read r => s.onRead framed r
  | .relay framed, .recv =>
    match s.queue with
    | newFramed :: queue => some { s with queue := queue, phase := .sendDetached framed newFramed }
    | [] => if s.sendersDropped then some s else none
  | .relay framed, .wait ok =>
    s.onWait (fun status => s.shellExited framed (status.code?.getD 1)) ok
  | .writable framed data, .write r => s.onWrite framed data r
  | .sendPong framed, .sent ok => some { s.write framed .pong ok with phase := .relay framed }
  | .sendData framed chunk, .sent ok =>
    if ok then some { s.write framed (.data chunk) ok with phase := .relay framed }
    else some (s.finish (.err .clientSend))
  | .sendDetached framed newFramed, .sent ok =>
    some { s.write framed .detached ok with framed := some newFramed, phase := .relay newFramed }
  | .sendExit framed code, .sent ok => some ((s.write framed (.exit code) ok).finish .ok)
  | _, _ => none

/-- One step: the world around the task, or the task itself. -/
def step (s : State) (e : Event) : Option State :=
  match e with
  | .handOff framed =>
    if s.sendersDropped then none
    else
      match s.phase with
      | .ended _ => some s
      | _ => some { s with queue := s.queue ++ [framed] }
  | .dropSenders => some { s with sendersDropped := true }
  | .abort =>
    match s.phase with
    | .ended _ => none
    | _ => some (s.finish .aborted)
  | .tick now => some { s with now := now }
  | .output bytes =>
    if s.child = .running ∧ s.slaveOpen then some { s with output := s.output ++ bytes } else none
  | .hangup => if s.slaveOpen then some { s with slaveOpen := false } else none
  | .exit status => if s.child = .running then some { s with child := .exited status } else none
  | .openpty _ | .recv | .firstFrame _ | .spawn _ | .next _ | .read _ | .write _ | .wait _
  | .sent _ => stepTask s s.phase e

/-- The session task as a transition system. -/
def lts : LTS State Event := .ofFun step

end Server

end Gritty
