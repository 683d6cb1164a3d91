import Gritty.Server.Environment

/-!
# The exit code of the session

The relay loop has three ways out with a code: `child.wait()` gives the status of the shell, EOF and
EIO on the PTY give 0, and then `try_wait` may still correct the code.  Only the first is ever
taken: the duplicates of the terminal side that the shell was given belong to `cmd`, which lives
until `run` returns, so the PTY master reports neither EOF nor EIO while the loop runs, whoever else
has closed the terminal.

## Main definitions

* `ExitStatus.exitCode` : the code of a status, 1 for the death by a signal.
* `ExitCodeKept` : the `Exit` frames of a run carry the code of the status of the shell.

## Main results

* `slaveFds_of_relay` : the task itself has the terminal open while the relay loop runs.
* `announces_step` : a code is announced only by `child.wait()`.
* `exitCode_kept` : every `Exit` frame of a run carries the code of the status with which the shell
  has exited.
-/

namespace Gritty

namespace Server

/-- The code of a status: 1 for the death by a signal. -/
def ExitStatus.exitCode (status : ExitStatus) : Int32 :=
  status.code?.getD 1

/-- An `Exit` frame with the code is being sent, or was sent. -/
def State.Announces (s : State) (code : Int32) : Prop :=
  (∃ framed, s.phase = .sendExit framed code) ∨ ∃ framed, (framed, .exit code) ∈ s.sent

/-- Every `Exit` frame of the run is sent behind the exit of the shell, with the code of its
status. -/
def ExitCodeKept (tr : List (Move State Event)) : Prop :=
  ∀ m ∈ tr, ∀ code, m.dst.Announces code →
    ∃ status, m.dst.child = .exited status ∧ code = status.exitCode

/-- The phases in which `cmd` owns its duplicates. -/
def Phase.ownsSlave : Phase → Bool
  | .openpty | .ended _ => false
  | .recvFirst | .readEnv _ | .spawning _ _ | .waiting | .relay _ | .writable _ _ | .sendPong _
  | .sendData _ _ | .sendDetached _ _ | .sendExit _ _ => true

variable {s s' : State} {e : Event} {tr : List (Move State Event)}

/-! ### The terminal side of the PTY -/

theorem ownsSlave_onNext {framed : Conn} {r : NextFrame} (hp : s.phase = .relay framed) :
    (s.onNext framed r).slaveFds = s.slaveFds ∧ (s.onNext framed r).phase.ownsSlave = true ∨
      (s.onNext framed r).phase.ownsSlave = false := by
  rcases r with _ | e | f
  · exact .inl ⟨rfl, rfl⟩
  · exact .inr rfl
  · cases f <;> simp [State.onNext, State.clientGone, State.setAttached, Phase.ownsSlave, hp]

theorem slaveFds_step (h : Step s e s') (hi : s.phase.ownsSlave = true → s.slaveFds = 3)
    (hs' : s'.phase.ownsSlave = true) : s'.slaveFds = 3 := by
  cases h with
  | openpty => rfl
  | next hp =>
    rcases ownsSlave_onNext hp with ⟨hfds, -⟩ | hno
    · rw [hfds]
      exact hi (by rw [hp]; rfl)
    · rw [hno] at hs'
      cases hs'
  | handOff | dropSenders | tick | output | hangup | exit | handOffLost | readBlock | noTakeover =>
    exact hi hs'
  | abort | openptyErr | closedFirst | spawnErr | closed | exitIdle | waitErr | readErr | writeErr
  | dataFailed | exitSent => cases hs'
  | recvFirst hp | firstFrame hp | spawn hp | adopt hp | read hp | eof hp | takeover hp
  | exitRelay hp | write hp | writeBlock hp | pongSent hp | dataSent hp | detachedSent hp =>
    exact hi (by rw [hp]; rfl)

/-- While the relay loop runs, the task has the terminal side of the PTY open. -/
theorem slaveFds_of_relay (hr : lts.Reachable .init s) {framed : Conn}
    (hp : s.phase = .relay framed) : s.slaveFds = 3 := by
  refine hr.invariant (I := fun s => s.phase.ownsSlave = true → s.slaveFds = 3)
    (fun h => by cases h) (fun s e s' hi hst => slaveFds_step (step_cases hst) hi) ?_
  rw [hp]
  rfl

theorem slaveClosed_of_relay (hr : lts.Reachable .init s) {framed : Conn}
    (hp : s.phase = .relay framed) : s.slaveClosed = false := by
  simp [State.slaveClosed, slaveFds_of_relay hr hp]

/-! ### The code -/

theorem shellExited_phase {status : ExitStatus} (hc : s.child = .exited status) (framed : Conn) :
    (s.shellExited framed status.exitCode).phase = .sendExit framed status.exitCode := by
  unfold State.shellExited ExitStatus.exitCode
  rw [hc]
  cases status <;> rfl

theorem onNext_announces {framed : Conn} {r : NextFrame} {code : Int32}
    (hp : s.phase = .relay framed) (ha : (s.onNext framed r).Announces code) :
    s.Announces code := by
  obtain ⟨framed', hs⟩ | hsent := ha
  · rcases r with _ | e | f
    · simp [State.onNext, State.clientGone] at hs
    · simp [State.onNext, State.finish] at hs
    · cases f <;> simp [State.onNext, State.clientGone, hp] at hs
  · refine .inr ?_
    rcases r with _ | e | f
    · exact hsent
    · exact hsent
    · cases f <;> exact hsent

theorem mem_write {framed framed' : Conn} {f f' : Frame} {ok : Bool}
    (h : (framed', f') ∈ (s.write framed f ok).sent) :
    (framed', f') ∈ s.sent ∨ f' = f := by
  unfold State.write at h
  split_ifs at h
  · obtain h | h := List.mem_append.mp h
    · exact .inl h
    · exact .inr (Prod.ext_iff.mp (List.mem_singleton.mp h)).2
  · exact .inl h

/-- **A code is announced only when `child.wait()` resolves**, with the status of the shell. -/
theorem announces_step (hr : lts.Reachable .init s) (h : Step s e s') {code : Int32}
    (ha : s'.Announces code) : s.Announces code ∨
      ∃ status, s'.child = .exited status ∧ code = status.exitCode := by
  cases h with
  | handOff | handOffLost | dropSenders | tick | output | hangup | exit | readBlock | noTakeover =>
    exact .inl ha
  | next hp => exact .inl (onNext_announces hp ha)
  | eof hp _ hcl =>
    rw [slaveClosed_of_relay hr hp] at hcl
    cases hcl
  | @exitRelay _ status hp hc =>
    obtain ⟨framed, hs⟩ | hsent := ha
    · change (s.shellExited _ status.exitCode).phase = _ at hs
      rw [shellExited_phase hc] at hs
      obtain ⟨-, rfl⟩ := Phase.sendExit.inj hs
      exact .inr ⟨status, hc, rfl⟩
    · exact .inl (.inr hsent)
  | exitSent hp =>
    obtain ⟨framed, hs⟩ | ⟨framed, hsent⟩ := ha
    · cases hs
    · obtain hsent | hf := mem_write hsent
      · exact .inl (.inr ⟨framed, hsent⟩)
      · obtain rfl := Frame.exit.inj hf
        exact .inl (.inl ⟨_, hp⟩)
  | pongSent | dataSent | detachedSent =>
    obtain ⟨framed, hs⟩ | ⟨framed, hsent⟩ := ha
    · cases hs
    · dsimp only at hsent
      obtain hsent | hf := mem_write hsent
      · exact .inl (.inr ⟨framed, hsent⟩)
      · cases hf
  | _ =>
    obtain ⟨framed, hs⟩ | hsent := ha
    · cases hs
    · exact .inl (.inr hsent)

/-- A shell that has exited keeps its status. -/
theorem exited_step {status : ExitStatus} (hr : lts.Reachable .init s) (h : Step s e s')
    (hc : s.child = .exited status) : s'.child = .exited status := by
  cases h with
  | exit hrun => simp [hc] at hrun
  | spawn hp =>
    obtain ⟨tr, hr⟩ := hr
    have hborn := ((forwarding hr).spawning _ _ hp).1
    simp [hc] at hborn
  | next hp => rw [(spawning_onNext hp).1, hc]
  | _ => exact hc

/-- A code that is announced is that of the status with which the shell has exited. -/
theorem status_of_announces (hr : lts.Reachable .init s) {code : Int32} (ha : s.Announces code) :
    ∃ status, s.child = .exited status ∧ code = status.exitCode := by
  have h : lts.Reachable .init s ∧ ∀ code, s.Announces code →
      ∃ status, s.child = .exited status ∧ code = status.exitCode := by
    refine hr.invariant (I := fun s => lts.Reachable .init s ∧ ∀ code, s.Announces code →
      ∃ status, s.child = .exited status ∧ code = status.exitCode) ⟨.refl _, ?_⟩ ?_
    · rintro code (⟨framed, h⟩ | ⟨framed, h⟩) <;> cases h
    · rintro s e s' ⟨hr, hi⟩ hst
      refine ⟨hr.tail hst, fun code ha => ?_⟩
      rcases announces_step hr (step_cases hst) ha with ha | ⟨status, hc, hcode⟩
      · obtain ⟨status, hc, hcode⟩ := hi code ha
        exact ⟨status, exited_step hr (step_cases hst) hc, hcode⟩
      · exact ⟨status, hc, hcode⟩
  exact h.2 code ha

/-- **The exit code does not depend on scheduling.**  In every run of the session task, whatever the
status of the shell and whatever is noticed first, the `Exit` frames carry the code of the status
with which the shell has exited. -/
theorem exitCode_kept (hr : lts.Run .init tr s) : ExitCodeKept tr := by
  intro m hm code ha
  obtain ⟨hst, tr₁, -, -, hr₁⟩ := hr.move hm
  exact status_of_announces (hr₁.tail hst).reachable ha

/-- The shell closes its terminal, then it dies by SIGKILL and is reaped. -/
def killedLabels : List Event :=
  [.openpty (some "/dev/pts/1"), .handOff 0, .recv, .firstFrame none, .spawn (some 7), .hangup,
    .exit (.signal 9), .wait true, .sent true]

/-- The client is told 1. -/
theorem exitCode_kept_killed :
    ∃ tr s, lts.Run .init tr s ∧ s.child = .exited (.signal 9) ∧ s.sent = [(0, .exit 1)] ∧
      ExitCodeKept tr := by
  have h : ∃ s, LTS.exec step .init killedLabels = some s ∧ s.child = .exited (.signal 9) ∧
      s.sent = [(0, .exit 1)] := ⟨_, rfl, rfl, rfl⟩
  obtain ⟨s, h, hc, hsent⟩ := h
  exact ⟨_, s, LTS.run_of_exec h, hc, hsent, exitCode_kept (LTS.run_of_exec h)⟩

end Server

end Gritty
