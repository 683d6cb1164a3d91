import Gritty.Daemon.Basic

/-!
# A client beside the daemon

`new_session` and `attach` open a connection with one request and then call `client::run`, which
relays until the connection is lost and then keeps asking for its session on new connections.  The
client runs beside one daemon, which serves any number of other clients: `Event.daemon` is any step
of the daemon and of what runs beside it, except that on a connection of this client the daemon
reads what the client sent.

The relay itself is not modelled here: it ends with an exit code, or with the connection lost.

## Main definitions

* `Phase` : where the client is, with the connection that it uses and the request that is due on it.
* `State.permits` : a request that the daemon reads on a connection of the client is the one that
  the client sent there.
* `opened`, `reattached` : what a reply makes of the client, the first time and when it comes back.
* `step` : the client and the daemon, one move at a time.
-/

namespace Gritty

namespace Client

open Daemon (TaskId)

/-- Where the client waits.  It keeps `session`, the string it reconnects with.  `home` is not known
to the client: it is the task that its first connection was handed to. -/
inductive Phase where
  | start
  /-- the reply to the first request -/
  | opening (framed : Conn) (request : Frame)
  /-- `relay` -/
  | relaying (framed : Conn) (session : String) (home : TaskId)
  /-- the reconnect loop, between two attempts -/
  | reconnecting (session : String) (home : TaskId)
  /-- the reply to `Attach` in the reconnect loop -/
  | attaching (framed : Conn) (session : String) (home : TaskId)
  | exited (code : Int32)

/-- A client and its daemon. -/
structure State where
  daemon : Daemon.State
  client : Phase

/-- What can happen: a step of the daemon, or one of the client. -/
inductive Event where
  | daemon (e : Daemon.Event)
  /-- `new_session` or `attach` connects and sends its request -/
  | start (request : Frame)
  /-- the reply that the client waits for, the end of the connection, or an error on it -/
  | reply (r : Server.NextFrame)
  /-- `relay` returns: an exit code, or `none` when the connection is lost -/
  | relayed (r : Option Int32)
  /-- Ctrl-C in the reconnect loop -/
  | interrupt
  /-- the reconnect loop connects and sends `Attach` -/
  | connect

/-- The daemon listens, and the client is about to start. -/
def State.init : State := ⟨.init, .start⟩

/-- The request sent on the connection whose reply is awaited. -/
def Phase.pending : Phase → Option (Conn × Frame)
  | .opening framed request => some (framed, request)
  | .attaching framed session _ => some (framed, .attach session)
  | _ => none

/-- A request that the daemon reads on the client's connection is the one that the client sent. -/
def State.permits (s : State) : Daemon.Event → Bool
  | .request (some (.ok frame)) =>
    match s.daemon.control, s.client.pending with
    | .reading framed, some (framed', request) => framed ≠ framed' || frame == request
    | _, _ => true
  | _ => true

/-- A frame that the client reads while it waits for a reply is the reply that was sent. -/
def State.delivers (s : State) (framed : Conn) : Server.NextFrame → Bool
  | some (.ok frame) => s.daemon.replies.contains (framed, frame)
  | _ => true

/-- The requests that open a session connection. -/
def opens : Frame → Bool
  | .newSession _ | .attach _ => true
  | _ => false

/-- The string to reconnect with: `new_session` keeps the id of the reply, `attach` its target. -/
def sessionOf : Frame → Frame → Option String
  | .newSession _, .sessionCreated id => some id
  | .attach target, .ok => some target
  | _, _ => none

/-- The task that a connection was handed to. -/
def handedTo (d : Daemon.State) (framed : Conn) : Option TaskId :=
  (d.handOffs.find? fun p => p.1 == framed).map Prod.snd

/-- `new_session` and `attach` after the reply: relay, or fail.  A good reply is followed by the
hand-off at once. -/
def opened (d : Daemon.State) (framed : Conn) (request : Frame) : Server.NextFrame → Option Phase
  | some (.ok reply) =>
    match sessionOf request reply with
    | some session => (handedTo d framed).map fun home => .relaying framed session home
    | none => some (.exited 1)
  | _ => some (.exited 1)

/-- The reconnect loop of `run` after the reply: relay again on `Ok`, return 1 on `Error`, and try
again on anything else. -/
def reattached (framed : Conn) (session : String) (home : TaskId) : Server.NextFrame → Phase
  | some (.ok .ok) => .relaying framed session home
  | some (.ok (.error _)) => .exited 1
  | _ => .reconnecting session home

/-- What an event does, when it can happen. -/
def step (s : State) : Event → Option State
  | .daemon e =>
    if s.permits e then (Daemon.step s.daemon e).map fun d => { s with daemon := d } else none
  | .start request =>
    match s.client with
    | .start =>
      if opens request then
        (Daemon.step s.daemon .connect).map fun d => ⟨d, .opening s.daemon.connected request⟩
      else none
    | _ => none
  | .reply r =>
    match s.client with
    | .opening framed request =>
      if s.delivers framed r then
        (opened s.daemon framed request r).map fun client => { s with client := client }
      else none
    | .attaching framed session home =>
      if s.delivers framed r then some { s with client := reattached framed session home r }
      else none
    | _ => none
  | .relayed r =>
    match s.client with
    | .relaying _ session home =>
      match r with
      | some code => some { s with client := .exited code }
      | none => some { s with client := .reconnecting session home }
    | _ => none
  | .interrupt =>
    match s.client with
    | .reconnecting _ _ => some { s with client := .exited 1 }
    | _ => none
  | .connect =>
    match s.client with
    | .reconnecting session home =>
      (Daemon.step s.daemon .connect).map fun d =>
        ⟨d, .attaching s.daemon.connected session home⟩
    | _ => none

/-- The client and the daemon as one transition system. -/
def lts : LTS State Event := .ofFun step

end Client

end Gritty
