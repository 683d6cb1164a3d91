import Gritty.Daemon.Conversation
import Gritty.Protocol.Wire
import Gritty.System.Peer

/-!
# The whole system

One daemon with its session tasks, any number of peers, and strangers.  Each connection that the
daemon has is a pair of wires, and bytes are all that passes between the daemon and its peers: what
one side sends is encoded onto a wire, and what the other side reads is decoded from what is on it.
A stranger puts any bytes on the wires of its connections.

The parties take their steps in any order.  A peer numbers its connections by itself, and
`State.dial` says which connection of the daemon one of them is; a connection through a tunnel may
lead nowhere.  A connection can be lost at any time: each side may then see its end, or an error of
the connection.  An error of the decoder is read only where the decoder answers it on what is on the
wire.

## Main definitions

* `State`, `Event` : the parties with their wires, and what can happen.
* `State.daemonAct`, `State.peerAct` : a read or a write of a party, on its wire.
* `State.answers` : an error of the decoder that a party reads is one that the decoder answers.
* `State.perform` : what an event does to the parties and the wires.
* `step` : the system.
-/

namespace Gritty

namespace System

open FrameCodec (frameCodec)
open Server (Act)

/-- The daemon, its peers, and the wires between them. -/
structure State where
  daemon : Daemon.State
  peers : ℕ → Peer
  /-- the connection of the daemon that a connection of a peer leads to -/
  dial : ℕ → Conn → Option Conn
  /-- the connections made by strangers -/
  strangers : List Conn
  /-- from the peers to the daemon -/
  up : Conn → Wire UInt8
  /-- from the daemon to the peers -/
  down : Conn → Wire UInt8

/-- What can happen.  When a send fails, `cut` bytes of its frame are on the wire. -/
inductive Event where
  /-- the daemon or one of its tasks steps -/
  | daemon (e : Daemon.Event) (cut : ℕ)
  /-- a peer steps by itself -/
  | peer (i : ℕ) (e : Peer.Event) (cut : ℕ)
  /-- a peer connects to the daemon -/
  | connect (i : ℕ)
  /-- a stranger connects to the daemon -/
  | stranger
  /-- a stranger writes -/
  | inject (d : Conn) (bytes : List UInt8)

/-- The peers are started, and the daemon listens. -/
def State.init (starts : ℕ → Peer.Start) : State where
  daemon := .init
  peers i := .init (starts i)
  dial _ _ := none
  strangers := []
  up _ := .empty
  down _ := .empty

/-- Replace a wire to the daemon. -/
def State.setUp (s : State) (d : Conn) (w : Wire UInt8) : State :=
  { s with up := Function.update s.up d w }

/-- Replace a wire from the daemon. -/
def State.setDown (s : State) (d : Conn) (w : Wire UInt8) : State :=
  { s with down := Function.update s.down d w }

/-- What the daemon does on a connection. -/
def State.daemonAct (s : State) (cut : ℕ) : Conn × Act → Option State
  | (d, .read f) => ((s.up d).read frameCodec f).map (s.setUp d)
  | (d, .sent f ok) => ((s.down d).write frameCodec f ok cut).map (s.setDown d)

/-- What a peer does on a connection: if that leads nowhere, nothing can be read. -/
def State.peerAct (s : State) (i cut : ℕ) : Conn × Act → Option State
  | (c, .read f) =>
    (s.dial i c).bind fun d => ((s.down d).read frameCodec f).map (s.setDown d)
  | (c, .sent f ok) =>
    match s.dial i c with
    | some d => ((s.up d).write frameCodec f ok cut).map (s.setUp d)
    | none => some s

/-- The connection that the peer `i` makes next leads to the next one of the daemon. -/
def State.dialed (s : State) (i : ℕ) : State :=
  { s with
    dial := Function.update s.dial i
      (Function.update (s.dial i) (s.peers i).connections (some s.daemon.connected)) }

/-- Replace a peer. -/
def State.setPeer (s : State) (i : ℕ) (p : Peer) : State :=
  { s with peers := Function.update s.peers i p }

@[simp] theorem setPeer_peers_self (s : State) (i : ℕ) (p : Peer) : (s.setPeer i p).peers i = p :=
  Function.update_self _ _ _

theorem setPeer_peers_of_ne (s : State) {i j : ℕ} (p : Peer) (h : j ≠ i) :
    (s.setPeer i p).peers j = s.peers j := Function.update_of_ne h _ _

/-- The step of the daemon that belongs to a peer or a stranger: a connection comes in. -/
def isConnect : Daemon.Event → Bool
  | .connect => true
  | _ => false

/-- The error of the decoder that `framed.next()` resolves to, with the connection. -/
def errorOn (framed : Option Conn) : Server.NextFrame → Option (Conn × DecodeError)
  | some (.error (.decode err)) => framed.map fun d => (d, err)
  | some (.error .io) | some (.error .bytesRemaining) | some (.ok _) | none => none

/-- The error of the decoder that the daemon reads. -/
def daemonError? (s : Daemon.State) : Daemon.Event → Option (Conn × DecodeError)
  | .request r => errorOn s.control.conn? r
  | .task k (.firstFrame (some r)) | .task k (.next r) =>
    errorOn (s.tasks k).server.phase.holds.head? r
  | _ => none

/-- The error of the decoder that a peer reads. -/
def peerError? : Peer → Peer.Event → Option (Conn × DecodeError)
  | .terminal s, .terminal (.next r) => errorOn s.phase.reads? r
  | .oneshot ⟨_, .awaiting c, _⟩, .oneshot (.next r) => errorOn (some c) r
  | _, _ => none

/-- The decoder answers the error on what is on the wire. -/
def errs (w : Wire UInt8) (err : DecodeError) : Bool :=
  match FrameCodec.decode w.elems with
  | (.error e, _) => e = err
  | (.ok _, _) => false

/-- The errors of the decoder that are read are its answers. -/
def State.answers (s : State) : Event → Bool
  | .daemon e _ =>
    match daemonError? s.daemon e with
    | some (d, err) => errs (s.up d) err
    | none => true
  | .peer i e _ =>
    match peerError? (s.peers i) e with
    | some (c, err) => ((s.dial i c).map fun d => errs (s.down d) err).getD false
    | none => true
  | .connect _ | .stranger | .inject _ _ => true

/-- What an event does, whatever errors are read. -/
def State.perform (s : State) : Event → Option State
  | .daemon e cut =>
    if isConnect e then none
    else (Daemon.step s.daemon e).bind fun daemon =>
      (Daemon.actsOf ⟨s.daemon, e, daemon⟩).foldlM (fun s a => s.daemonAct cut a)
        { s with daemon := daemon }
  | .peer i e cut =>
    (Peer.step (s.peers i) e).bind fun p =>
      (Peer.actsOf ⟨s.peers i, e, p⟩).foldlM (fun s a => s.peerAct i cut a) (s.setPeer i p)
  | .connect i =>
    (Peer.step (s.peers i) (s.peers i).connect).bind fun p =>
      (Daemon.step s.daemon .connect).map fun daemon =>
        { (s.dialed i).setPeer i p with daemon := daemon }
  | .stranger =>
    (Daemon.step s.daemon .connect).map fun daemon =>
      { s with daemon := daemon, strangers := s.strangers ++ [s.daemon.connected] }
  | .inject d bytes =>
    if d ∈ s.strangers then some (s.setUp d ((s.up d).inject bytes)) else none

/-- What an event does, when it can happen. -/
def step (s : State) (e : Event) : Option State := if s.answers e then s.perform e else none

/-- The system as a transition system. -/
def lts : LTS State Event := .ofFun step

end System

end Gritty
