import Gritty.Security.Socket
import Gritty.LTS.History

/-!
# Starting the daemon

`gritty daemon` forks.  The child detaches, binds the control socket and writes a byte to a pipe;
the parent waits at the pipe and reports what it read.  Any number of processes are started on the
same path, in the background or in the foreground, and the calls of their binds are those of
`Gritty.Security.Socket`.  The PID file is one file for all of them.

Both ends of a start may fail at each of their calls, and a process may be killed at any time.

## Main definitions

* `Parent`, `Child` : the points where the two processes of a start are.
* `Invocation` : one start, with the ends of its pipe.
* `parentStep`, `childStep` : the steps of the two processes.
* `step` : all starts on one path.
* `socketRun` : what a run does at the path of the socket.
-/

namespace Gritty

namespace Startup

open Security (Pid Call)

/-- Where the process is that was started in the background. -/
inductive Parent where
  /-- there is none: the daemon runs in the foreground -/
  | foreground
  | piping
  | forking
  /-- `drop(write_fd)` -/
  | closing
  | reading
  | exited (code : Int32)
  | killed
  deriving DecidableEq

/-- Where the process is that becomes the daemon. -/
inductive Child where
  | unborn
  /-- `setsid` and the redirections -/
  | detaching
  /-- the `Runtime` is created -/
  | starting
  /-- `secure_create_dir_all` -/
  | preparing
  /-- `bind_unix_listener` -/
  | binding
  /-- `f.write_all(&[1])` -/
  | announcing
  /-- `f` drops -/
  | releasing
  /-- `std::fs::write` creates the PID file -/
  | recording
  | writing
  /-- the signal handlers -/
  | handling
  /-- the loop -/
  | serving
  /-- `shutdown` has removed the socket -/
  | removing
  | closing
  | exited
  deriving DecidableEq

/-- What is in the PID file. -/
inductive PidFile where
  | absent
  | empty
  | pid (p : Pid)
  deriving DecidableEq

/-- One `gritty daemon`. -/
structure Invocation where
  parent : Parent
  child : Child
  /-- the byte of the child is in the pipe -/
  byte : Bool

/-- The socket, the two processes of each invocation, and the PID file. -/
structure State where
  socket : Security.State
  invocations : Pid → Invocation
  pidFile : PidFile

/-- How the next call of the parent ends. -/
inductive ParentEvent where
  | pipe (ok : Bool)
  | fork (ok : Bool)
  | close
  | read (ok : Bool)
  | kill
  deriving DecidableEq

/-- How the next call of the child ends. -/
inductive ChildEvent where
  | detach (ok : Bool)
  | start (ok : Bool)
  | createDir (ok : Bool)
  | call (call : Call)
  | announce
  | release
  | create (ok : Bool)
  | write (ok : Bool)
  | handle (ok : Bool)
  /-- a signal or `KillServer` : the first half of `shutdown` -/
  | stop
  | removePid (ok : Bool)
  | finish
  /-- `accept` fails -/
  | fail
  | kill
  deriving DecidableEq

/-- One of the processes makes its next call. -/
inductive Event where
  | parent (p : Pid) (e : ParentEvent)
  | child (p : Pid) (e : ChildEvent)
  deriving DecidableEq

/-- The pipe has a reader. -/
def Parent.reads : Parent → Bool
  | .closing | .reading => true
  | .foreground | .piping | .forking | .exited _ | .killed => false

/-- The child has the write end of the pipe. -/
def Child.writes : Child → Bool
  | .detaching | .starting | .preparing | .binding | .announcing | .releasing => true
  | .unborn | .recording | .writing | .handling | .serving | .removing | .closing | .exited => false

/-- The processes are started with nothing at the path or a socket that was left behind. -/
def State.init (path : Option Security.File) (pidFile : PidFile) (foreground : Pid → Bool) :
    State where
  socket := .start path
  invocations p :=
    if foreground p then ⟨.foreground, .starting, false⟩ else ⟨.piping, .unborn, false⟩
  pidFile := pidFile

/-- Replace an invocation. -/
def State.set (s : State) (p : Pid) (i : Invocation) : State :=
  { s with invocations := Function.update s.invocations p i }

/-- The child goes on. -/
def State.enter (s : State) (p : Pid) (c : Child) : State :=
  s.set p { s.invocations p with child := c }

/-- The process ends, and its listener with it. -/
def State.exit (s : State) (p : Pid) : State :=
  { s.enter p .exited with socket := s.socket.enter p .exited }

/-- The child goes on, unless an error ends it. -/
def State.attempt (s : State) (p : Pid) (ok : Bool) (c : Child) : State :=
  if ok then s.enter p c else s.exit p

/-- `daemonize` in the parent. -/
def parentStep (i : Invocation) : ParentEvent → Option Invocation
  | .pipe ok =>
    match i.parent with
    | .piping => some { i with parent := if ok then .forking else .exited 1 }
    | _ => none
  | .fork ok =>
    match i.parent with
    | .forking =>
      some (if ok then { i with parent := .closing, child := .detaching }
      else { i with parent := .exited 1 })
    | _ => none
  | .close =>
    match i.parent with
    | .closing => some { i with parent := .reading }
    | _ => none
  | .read ok =>
    match i.parent with
    | .reading =>
      if ok then
        if i.byte then some { i with parent := .exited 0 }
        -- the read blocks as long as somebody has the write end
        else if i.child.writes then none
        else some { i with parent := .exited 1 }
      else some { i with parent := .exited 1 }
    | _ => none
  | .kill =>
    match i.parent with
    | .foreground | .exited _ | .killed => none
    | _ => some { i with parent := .killed }

/-- The calls of `bind_unix_listener`. -/
def binds : Call → Bool
  | .bind | .connect | .removeFile | .setPermissions => true
  | .shutdown | .drop | .die => false

/-- Where a call of `bind_unix_listener` leads: `run` has a pipe to write to in the background
only. -/
def afterCall (parent : Parent) : Security.Phase → Child
  | .serving => if parent = .foreground then .recording else .announcing
  | .failed => .exited
  | _ => .binding

/-- `daemonize` in the child, and `run`. -/
def childStep (s : State) (p : Pid) : ChildEvent → Option State
  | .detach ok =>
    match (s.invocations p).child with
    | .detaching => some (s.attempt p ok .starting)
    | _ => none
  | .start ok =>
    match (s.invocations p).child with
    | .starting => some (s.attempt p ok .preparing)
    | _ => none
  | .createDir ok =>
    match (s.invocations p).child with
    | .preparing => some (s.attempt p ok .binding)
    | _ => none
  | .call call =>
    match (s.invocations p).child with
    | .binding =>
      if binds call then
        (Security.step s.socket (p, call)).map fun socket =>
          { s.enter p (afterCall (s.invocations p).parent (socket.phase p)) with socket := socket }
      else none
    | _ => none
  | .announce =>
    match (s.invocations p).child with
    | .announcing =>
      some (s.set p { s.invocations p with child := .releasing,
                                           byte := (s.invocations p).parent.reads })
    | _ => none
  | .release =>
    match (s.invocations p).child with
    | .releasing => some (s.enter p .recording)
    | _ => none
  | .create ok =>
    match (s.invocations p).child with
    | .recording =>
      some { s.attempt p ok .writing with pidFile := if ok then .empty else s.pidFile }
    | _ => none
  | .write ok =>
    match (s.invocations p).child with
    | .writing =>
      some { s.attempt p ok .handling with pidFile := if ok then .pid p else s.pidFile }
    | _ => none
  | .handle ok =>
    match (s.invocations p).child with
    | .handling => some (s.attempt p ok .serving)
    | _ => none
  | .stop =>
    match (s.invocations p).child with
    | .serving =>
      (Security.step s.socket (p, .shutdown)).map fun socket =>
        { s.enter p .removing with socket := socket }
    | _ => none
  | .removePid ok =>
    match (s.invocations p).child with
    | .removing =>
      some { s.enter p .closing with pidFile := if ok then .absent else s.pidFile }
    | _ => none
  | .finish =>
    match (s.invocations p).child with
    | .closing =>
      (Security.step s.socket (p, .drop)).map fun socket =>
        { s.enter p .exited with socket := socket }
    | _ => none
  | .fail =>
    match (s.invocations p).child with
    | .serving => some (s.exit p)
    | _ => none
  | .kill =>
    match (s.invocations p).child with
    | .unborn | .exited => none
    | _ => some (s.exit p)

/-- One move of one process. -/
def step (s : State) : Event → Option State
  | .parent p e => (parentStep (s.invocations p) e).map (s.set p)
  | .child p e => childStep s p e

/-- The processes as a transition system. -/
def lts : LTS State Event := .ofFun step

/-- The system call at the path of the socket. -/
def ChildEvent.call? : ChildEvent → Option Call
  | .call c => some c
  | .stop => some .shutdown
  | .finish => some .drop
  | .detach ok | .start ok | .createDir ok | .create ok | .write ok | .handle ok =>
    if ok then none else some .die
  | .fail | .kill => some .die
  | .announce | .release | .removePid _ => none

end Startup

end Gritty
