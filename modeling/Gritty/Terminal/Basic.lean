import Gritty.Server.Basic
import Gritty.Terminal.Escape

/-!
# The client at its terminal

`new_session` and `attach` open a connection and call `client::run`, which relays between the
terminal and the connection and, when the connection is lost, attaches to its session again on a new
one.  `Phase` lists the points where the client waits, `Event` what it can find there and what the
world around it does (the user, the terminal, the clock, the server), and `step` what the code does
then.

The connections of the client are numbered in the order in which they are made.  `stdin` is the
input that the client can read, in the terminal or in the buffer of `io::stdin`.  The clock counts
milliseconds.

## Main definitions

* `Options` : what the client is started with.
* `State.onReply`, `State.onReattached` : what it makes of the reply to a request.
* `State.onRead`, `State.onFrame`, `State.onTick`, `State.onSent` : the branches of `relay`.
* `State.onWake`, `State.onReconnected` : the reconnect loop.
* `step` : the client, one event at a time.
-/

namespace Gritty

namespace Terminal

open Server (NextFrame)

/-! ### How the client is started -/

/-- `new_session` or `attach` -/
inductive Command where
  | newSession (name : Option String)
  | attach (target : String) (redraw : Bool)

/-- What the client is started with. -/
structure Options where
  command : Command
  noEscape : Bool
  /-- the environment of the client -/
  var : String → Option String

/-- The request that opens the first connection. -/
def Command.request : Command → Frame
  | .newSession name => .newSession (name.getD "")
  | .attach target _ => .attach target

/-- The string to reconnect with, when the reply to the request is good. -/
def Command.session? : Command → Frame → Option String
  | .newSession _, .sessionCreated id => some id
  | .attach target _, .ok => some target
  | _, _ => none

/-- The argument `redraw` of `run`. -/
def Command.redraw : Command → Bool
  | .newSession _ => false
  | .attach _ redraw => redraw

/-- The argument `env_vars` of `run`. -/
def Options.envVars (o : Options) : List (String × String) :=
  match o.command with
  | .newSession _ => collectEnvVars o.var
  | .attach _ _ => []

/-- The escape processor of `run`. -/
def Options.escape (o : Options) : Option EscapeState := if o.noEscape then none else some .new

/-! ### What the client waits for -/

/-- Columns and rows. -/
abbrev Size := UInt16 × UInt16

/-- The points where the client waits. -/
inductive Phase where
  /-- `new_session` and `attach` connect -/
  | opening
  /-- their request is sent -/
  | requesting (framed : Conn)
  /-- their reply -/
  | awaiting (framed : Conn)
  /-- `relay` sends the variables -/
  | sendEnv (framed : Conn)
  /-- `relay` sends the size -/
  | sendResize (framed : Conn) (size : Size)
  /-- `relay` sends a Ctrl-L -/
  | sendRedraw (framed : Conn)
  /-- the loop of `relay` -/
  | relay (framed : Conn)
  /-- the loop sends a frame, and then performs the actions -/
  | sending (framed : Conn) (frame : Frame) (actions : List EscapeAction)
  /-- `suspend` -/
  | suspended (framed : Conn) (actions : List EscapeAction)
  /-- the reconnect loop sleeps -/
  | sleeping (deadline : ℕ)
  /-- the reconnect loop connects -/
  | connecting
  /-- the reconnect loop sends `Attach` -/
  | attaching (framed : Conn)
  /-- the reconnect loop waits for the reply -/
  | reattaching (framed : Conn)
  /-- the process ended, with an exit code or an error -/
  | exited (code : Option Int32)

/-- The variables of `run` and `relay`, the terminal, and the clock. -/
structure State where
  options : Options
  phase : Phase
  /-- how many connections were made -/
  connections : ℕ
  session : String
  /-- `current_redraw` -/
  redraw : Bool
  /-- `current_env` -/
  env : List (String × String)
  escape : Option EscapeState
  stdin : List UInt8
  /-- nothing follows `stdin` -/
  eof : Bool
  size : Size
  now : ℕ
  /-- `last_pong` -/
  lastPong : ℕ
  /-- the next tick of `heartbeat_interval` -/
  nextTick : ℕ

/-- What the client can find where it waits, and what the world around it does. -/
inductive Event where
  /-- the user types -/
  | typed (bytes : List UInt8)
  | eof
  /-- the window gets another size -/
  | resized (size : Size)
  | elapse (ms : ℕ)
  /-- `UnixStream::connect` -/
  | connect (ok : Bool)
  /-- a frame is sent, or cannot be sent in time -/
  | sent (ok : Bool)
  /-- `framed.next()` -/
  | next (r : NextFrame)
  /-- `relay` reads `n` bytes of input; none at its end -/
  | read (n : ℕ)
  /-- `SIGWINCH` -/
  | winch
  /-- a tick of `heartbeat_interval` -/
  | tick
  /-- the client is continued after `suspend` -/
  | resume
  /-- the reconnect loop wakes up and reads one byte of input, if it gets one -/
  | wake (r : Option UInt8)
  /-- a system call on the terminal fails -/
  | fail

/-- The client is started. -/
def State.init (o : Options) : State where
  options := o
  phase := .opening
  connections := 0
  session := ""
  redraw := false
  env := []
  escape := none
  stdin := []
  eof := false
  size := (0, 0)
  now := 0
  lastPong := 0
  nextTick := 0

/-! ### What the client does -/

/-- `HEARTBEAT_INTERVAL` -/
def heartbeatInterval : ℕ := 5000
/-- `HEARTBEAT_TIMEOUT` -/
def heartbeatTimeout : ℕ := 15000
/-- The pause of the reconnect loop. -/
def reconnectPause : ℕ := 1000
/-- The length of `buf`. -/
def bufLen : ℕ := 4096
/-- The byte that a Ctrl-C sends in raw mode. -/
def ctrlC : UInt8 := 0x03
/-- The byte that makes the shell redraw. -/
def ctrlL : UInt8 := 0x0c

namespace State

variable (s : State)

/-- The frame that is being sent. -/
def send? : Option (Conn × Frame) :=
  match s.phase with
  | .requesting framed => some (framed, s.options.command.request)
  | .sendEnv framed => some (framed, .env s.env)
  | .sendResize framed size => some (framed, .resize size.1 size.2)
  | .sendRedraw framed => some (framed, .data [ctrlL])
  | .sending framed frame _ => some (framed, frame)
  | .attaching framed => some (framed, .attach s.session)
  | _ => none

/-- The process ends. -/
def exit (code : Option Int32) : State := { s with phase := .exited code }

/-- `get_terminal_size` and `Frame::Resize` -/
def resizeFrame : Frame := .resize s.size.1 s.size.2

/-- The reconnect loop sleeps before its next attempt. -/
def pause : State := { s with phase := .sleeping (s.now + reconnectPause) }

/-- `relay` returned `None`. -/
def lost : State := { s.pause with env := [] }

/-- The variables are sent or there are none: the size is next. -/
def startResize (framed : Conn) : State := { s with phase := .sendResize framed s.size }

/-- `relay` begins. -/
def startRelay (framed : Conn) : State :=
  if s.env.isEmpty then s.startResize framed else { s with phase := .sendEnv framed }

/-- The loop of `relay` begins. -/
def enterLoop (framed : Conn) : State :=
  { s with
    phase := .relay framed
    lastPong := s.now
    nextTick := s.now + heartbeatInterval }

/-- `run` begins: the terminal is put into raw mode, which drops the input that was not read. -/
def setUp (session : String) : State :=
  { s with
    session := session
    redraw := s.options.command.redraw
    env := s.options.envVars
    escape := s.options.escape
    stdin := [] }

/-- `run` begins to relay. -/
def enterRun (session : String) (framed : Conn) : State := (s.setUp session).startRelay framed

/-- `new_session` and `attach`, after `connect`. -/
def onOpened : Bool → State
  | true =>
    { s with
      phase := .requesting s.connections
      connections := s.connections + 1 }
  | false =>
    match s.options.command with
    | .newSession _ => s.exit none
    | .attach _ _ => s

/-- `new_session` and `attach`, after the reply. -/
def onReply (framed : Conn) : NextFrame → State
  | some (.ok reply) =>
    match s.options.command.session? reply with
    | some session => s.enterRun session framed
    | none => s.exit none
  | _ => s.exit none

/-- The actions of one read. -/
def perform (framed : Conn) : List EscapeAction → State
  | [] => { s with phase := .relay framed }
  | .data bytes :: actions => { s with phase := .sending framed (.data bytes) actions }
  | .detach :: _ => s.exit (some 0)
  | .suspend :: actions => { s with phase := .suspended framed actions }
  | .help :: actions => perform framed actions

/-- The input branch of `relay`, after a read. -/
def onInput (framed : Conn) (input : List UInt8) : State :=
  match s.escape with
  | some esc =>
    { s with escape := some (esc.process input).2 }.perform framed (esc.process input).1
  | none => { s with phase := .sending framed (.data input) [] }

/-- The input branch of `relay` : a read of `n` bytes, or the end of the input. -/
def onRead (framed : Conn) (n : ℕ) : Option State :=
  if n = 0 then
    if s.stdin = [] ∧ s.eof then some (s.exit (some 0)) else none
  else if n ≤ bufLen ∧ n ≤ s.stdin.length then
    some ({ s with stdin := s.stdin.drop n }.onInput framed (s.stdin.take n))
  else none

/-- The socket branch of `relay`. -/
def onFrame : NextFrame → State
  | some (.ok .pong) => { s with lastPong := s.now }
  | some (.ok (.exit code)) => s.exit (some code)
  | some (.ok .detached) => s.exit (some 0)
  | some (.ok _) => s
  | _ => s.lost

/-- The heartbeat branch of `relay`. -/
def onTick (framed : Conn) : State :=
  let s := { s with nextTick := s.nextTick + heartbeatInterval }
  if heartbeatTimeout < s.now - s.lastPong then s.lost
  else { s with phase := .sending framed .ping [] }

/-- A send is over. -/
def onSent (ok : Bool) : Option State :=
  match s.phase with
  | .requesting framed => some (if ok then { s with phase := .awaiting framed } else s.exit none)
  | .sendEnv framed => some (if ok then s.startResize framed else s.lost)
  | .sendResize framed _ =>
    some (if ok then
      if s.redraw then { s with phase := .sendRedraw framed } else s.enterLoop framed
    else s.lost)
  | .sendRedraw framed => some (if ok then s.enterLoop framed else s.lost)
  | .sending framed _ actions => some (if ok then s.perform framed actions else s.lost)
  | .attaching framed => some (if ok then { s with phase := .reattaching framed } else s.pause)
  | _ => none

/-- The reconnect loop looks for a Ctrl-C: the byte that it reads is gone. -/
def onWake : Option UInt8 → State
  | some b =>
    if b = ctrlC then { s with stdin := s.stdin.tail }.exit (some 1)
    else { s with stdin := s.stdin.tail, phase := .connecting }
  | none => { s with phase := .connecting }

/-- The reconnect loop, after `connect`. -/
def onReconnected : Bool → State
  | true =>
    { s with
      phase := .attaching s.connections
      connections := s.connections + 1 }
  | false => s.pause

/-- The reconnect loop, after the reply. -/
def onReattached (framed : Conn) : NextFrame → State
  | some (.ok .ok) => { s with redraw := true }.startRelay framed
  | some (.ok (.error _)) => s.exit (some 1)
  | _ => s.pause

end State

/-- What the client does then. -/
def step (s : State) : Event → Option State
  | .typed bytes => if s.eof then none else some { s with stdin := s.stdin ++ bytes }
  | .eof => some { s with eof := true }
  | .resized size => some { s with size := size }
  | .elapse ms => some { s with now := s.now + ms }
  | .connect ok =>
    match s.phase with
    | .opening => some (s.onOpened ok)
    | .connecting => some (s.onReconnected ok)
    | _ => none
  | .sent ok => s.onSent ok
  | .next r =>
    match s.phase with
    | .awaiting framed => some (s.onReply framed r)
    | .relay _ => some (s.onFrame r)
    | .reattaching framed => some (s.onReattached framed r)
    | _ => none
  | .read n =>
    match s.phase with
    | .relay framed => s.onRead framed n
    | _ => none
  | .winch =>
    match s.phase with
    | .relay framed => some { s with phase := .sending framed s.resizeFrame [] }
    | _ => none
  | .tick =>
    match s.phase with
    | .relay framed => if s.nextTick ≤ s.now then some (s.onTick framed) else none
    | _ => none
  | .resume =>
    match s.phase with
    | .suspended framed actions => some { s with phase := .sending framed s.resizeFrame actions }
    | _ => none
  | .wake r =>
    match s.phase with
    | .sleeping deadline =>
      if deadline ≤ s.now ∧ (r = none ∨ r = s.stdin.head?) then some (s.onWake r) else none
    | _ => none
  | .fail =>
    match s.phase with
    | .exited _ => none
    | _ => some (s.exit none)

/-- The client as a transition system. -/
def lts : LTS State Event := .ofFun step

end Terminal

end Gritty
