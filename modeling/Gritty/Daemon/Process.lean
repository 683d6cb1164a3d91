import Gritty.Daemon.Conversation

/-!
# The daemon process and its clients

The connections of the daemon have another end.  A client may close it at any time, and may just as
well keep it; what `framed.next()` resolves to on the side of the daemon depends on that.  `Framed`
yields `None` when the client has closed the connection, and once more right after an error, whether
the client has closed it or not: whoever swallows an error reads `None` next.

`Process` is the daemon with its tasks, the ends of the clients, and the process itself: when `run`
has returned, be it after a failed `accept`, `main` ends the process, and all connections are closed
with it.

## Main definitions

* `Process`, `Event` : the daemon, the connections that their clients have closed, and the end.
* `yields` : what `framed.next()` may resolve to.
* `daemonRun` : the moves of the daemon in a run.

## Main results

* `step_cases` : the moves of the process.
* `daemon_run` : a run of the process is a run of the daemon.
-/

namespace Gritty

namespace Daemon

/-- The daemon, the clients' ends of its connections, and the process. -/
structure Process where
  daemon : State
  /-- the connections that their clients have closed -/
  closed : List Conn
  /-- the connections of which `Framed` has yielded an error -/
  errored : List Conn
  /-- the process has ended -/
  exited : Bool

namespace Process

/-- What can happen. -/
inductive Event where
  | daemon (e : Daemon.Event)
  /-- a client closes its connection -/
  | close (c : Conn)
  /-- `main` returns, or exits -/
  | exit

/-- The process when the daemon starts to listen. -/
def init : Process := ⟨.init, [], [], false⟩

/-- The `framed.next()` that resolves in an event, and its connection. -/
def nextOf (s : State) : Daemon.Event → Option (Conn × Server.NextFrame)
  | .request r => s.control.conn?.map fun c => (c, r)
  | .task k (.firstFrame (some r)) => (s.tasks k).server.phase.holds.head?.map fun c => (c, r)
  | .task k (.next r) => (s.tasks k).server.phase.holds.head?.map fun c => (c, r)
  | _ => none

/-- What `framed.next()` may resolve to on a connection. -/
def yields (p : Process) (c : Conn) : Server.NextFrame → Bool
  | none => decide (c ∈ p.closed ∨ c ∈ p.errored)
  | some (.error .bytesRemaining) => decide (c ∈ p.closed ∧ c ∉ p.errored)
  | some (.ok _) | some (.error .io) | some (.error (.decode _)) => decide (c ∉ p.errored)

/-- The ends of the clients allow an event. -/
def permits (p : Process) (e : Daemon.Event) : Bool :=
  match nextOf p.daemon e with
  | some (c, r) => p.yields c r
  | none => true

/-- The connections with an error after an event. -/
def noteError (p : Process) (e : Daemon.Event) : List Conn :=
  match nextOf p.daemon e with
  | some (c, some (.error _)) => c :: p.errored
  | _ => p.errored

/-- One step of the daemon, of a client, or the end of the process. -/
def step (p : Process) : Event → Option Process
  | .daemon e =>
    if p.exited = false ∧ p.permits e = true then
      (Daemon.step p.daemon e).map fun daemon =>
        { p with daemon := daemon, errored := p.noteError e }
    else none
  | .close c => some { p with closed := c :: p.closed }
  | .exit =>
    match p.daemon.control with
    | .returned _ | .panicked => if p.exited then none else some { p with exited := true }
    | .top | .accepting | .reading _ | .replying _ _ _ => none

/-- The process as a transition system. -/
def lts : LTS Process Event := .ofFun step

/-- The moves of the process. -/
inductive Step (p : Process) : Event → Process → Prop
  | daemon {e daemon} : p.exited = false → p.permits e = true →
      Daemon.lts.step p.daemon e daemon →
      Step p (.daemon e) { p with daemon := daemon, errored := p.noteError e }
  | close {c} : Step p (.close c) { p with closed := c :: p.closed }
  | exit : p.exited = false → Step p .exit { p with exited := true }

/-- The move of the daemon in a move of the process. -/
def daemonMovesOf (m : Move Process Event) : List (Move State Daemon.Event) :=
  match m.lbl with
  | .daemon e => [⟨m.src.daemon, e, m.dst.daemon⟩]
  | .close _ | .exit => []

/-- The run of the daemon in a run of the process. -/
def daemonRun (tr : List (Move Process Event)) : List (Move State Daemon.Event) :=
  tr.flatMap daemonMovesOf

variable {p p' : Process} {e : Event} {tr : List (Move Process Event)}

theorem step_cases (h : lts.step p e p') : Step p e p' := by
  change step p e = some p' at h
  cases e with
  | daemon e =>
    by_cases hp : p.exited = false ∧ p.permits e = true
    · rw [step, if_pos hp] at h
      obtain ⟨daemon, hd, rfl⟩ := Option.map_eq_some_iff.1 h
      exact .daemon hp.1 hp.2 hd
    · rw [step, if_neg hp] at h
      cases h
  | close c =>
    obtain rfl := Option.some.inj h
    exact .close
  | exit =>
    cases hx : p.exited with
    | true => cases hc : p.daemon.control <;> simp [step, hx, hc] at h
    | false =>
      obtain rfl : { p with exited := true } = p' := by
        cases hc : p.daemon.control <;> simp_all [step]
      exact .exit hx

/-- A run of the process is a run of the daemon. -/
theorem daemon_run (hr : lts.Run init tr p) : Daemon.lts.Run .init (daemonRun tr) p.daemon := by
  refine hr.project (B := Daemon.lts) (f := Process.daemon) (g := daemonMovesOf)
    (I := fun _ => True) trivial (fun _ _ _ _ _ => trivial) fun p e p' _ hst => ?_
  cases step_cases hst with
  | daemon _ _ hd => exact .single hd
  | close | exit => exact .refl

end Process

end Daemon

end Gritty
