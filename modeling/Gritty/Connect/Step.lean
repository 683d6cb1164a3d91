import Gritty.Connect.Basic

/-!
# The moves of the tunnel

`RunStep`, `MonitorStep` and `Step` list the moves of `connect::run`, of `tunnel_monitor` and of the
whole system, one constructor for each branch of the code.  The invariants of the tunnel are shown
by cases on them.

The two tasks share the processes, the token and the local socket, so that the moves of either are
moves on the whole state; the lists say what each of them leaves alone.

## Main results

* `runStep_cases`, `monitorStep_cases` : the lists of the two tasks are complete.
* `step_cases` : so is the list of the system.
-/

namespace Gritty

namespace Connect

/-- The moves of `run`. -/
inductive RunStep (s : State) : RunEvent → State → Prop
  | ready {deadline child} : s.run = .waitSocket deadline → s.guard = some child →
      RunStep s .ready { s with run := .handedOff, guard := none, monitor := .select child }
  | timeout {deadline} : s.run = .waitSocket deadline →
      RunStep s .timeout { s with run := .cancelling }
  | listen {ok} : s.run = .handedOff →
      RunStep s (.listen ok) { s with run := if ok then .select else .cancelling }
  | signalled {e} : s.run = .select → e = .interrupt ∨ e = .terminate →
      RunStep s e { s with run := .cancelling }
  | lost {why} : s.run = .select → s.monitor = .ended why →
      RunStep s .lost { s with run := .cancelling }
  | cancel : s.run = .cancelling → RunStep s .cancel { s with run := .killing, stop := true }
  | kill {child} : s.run = .killing → s.guard = some child →
      RunStep s .kill { s.signal child with run := .removing }
  | nothingToKill : s.run = .killing → s.guard = none →
      RunStep s .kill { s with run := .removing }
  | remove {ok} : s.run = .removing →
      RunStep s (.remove ok) { s with run := .removed, socket := s.socket && !ok }
  | finish : s.run = .removed → RunStep s .finish { s with run := .returned }

/-- The moves of `tunnel_monitor`. -/
inductive MonitorStep (s : State) : MonitorEvent → State → Prop
  | notice {child} : s.monitor = .select child → s.stop = true →
      MonitorStep s .notice { s.signal child with monitor := .killing child }
  | killed {child} : s.monitor = .killing child →
      MonitorStep s .killed { s with monitor := .ended .killed }
  | reap {child c status} : s.monitor = .select child → s.children[child]? = some c →
      c.exit = some status → MonitorStep s .reap { s with monitor := .exited status }
  | waitFailed {child} : s.monitor = .select child →
      MonitorStep s .waitFailed { s with monitor := .ended (.waitFailed child) }
  | cancelled {status} : s.monitor = .exited status → s.stop = true →
      MonitorStep s .check { s with monitor := .ended .cancelled }
  | check {status} : s.monitor = .exited status → s.stop = false →
      MonitorStep s .check { s with exitTimes := (onExit s.exitTimes s.now status).1,
                                    monitor := (onExit s.exitTimes s.now status).2 }
  | wokeCancelled {deadline} : s.monitor = .sleeping deadline → s.stop = true →
      MonitorStep s .wake { s with monitor := .ended .cancelled }
  | wake {deadline} : s.monitor = .sleeping deadline → deadline ≤ s.now → s.stop = false →
      MonitorStep s .wake { s with monitor := .spawning }
  | spawn : s.monitor = .spawning →
      MonitorStep s (.spawn true) { s with children := s.children ++ [⟨none, false⟩],
                                           monitor := .select s.children.length }
  | spawnFailed : s.monitor = .spawning →
      MonitorStep s (.spawn false) { s with monitor := .ended .spawnFailed }

/-- The moves of the tunnel. -/
inductive Step (s : State) : Event → State → Prop
  | elapse {ms} : Step s (.elapse ms) { s with now := s.now + ms }
  | exit {child status unlinks} : Step s (.exit child status unlinks)
      { s with children := s.children.modify child fun c => { c with exit := some status },
               socket := s.socket && !unlinks }
  | bind {child} : Step s (.bind child) { s with socket := true }
  | run {e s'} : RunStep s e s' → Step s (.run e) s'
  | monitor {e s'} : MonitorStep s e s' → Step s (.monitor e) s'

variable {s s' : State}

theorem runStep_cases {e : RunEvent} (h : runStep s e = some s') : RunStep s e s' := by
  unfold runStep at h
  split at h
  case h_1 =>
    split at h
    · next hr hg =>
      by_cases hs : s.socket = true
      · rw [if_pos hs] at h
        obtain rfl := Option.some.inj h
        exact .ready hr hg
      · rw [if_neg hs] at h
        cases h
    · cases h
  case h_2 =>
    split at h
    · next deadline hr =>
      by_cases hd : deadline ≤ s.now
      · rw [if_pos hd] at h
        obtain rfl := Option.some.inj h
        exact .timeout hr
      · rw [if_neg hd] at h
        cases h
    · cases h
  case h_3 =>
    split at h
    · next hr =>
      obtain rfl := Option.some.inj h
      exact .listen hr
    · cases h
  case h_4 =>
    split at h
    · next hr =>
      obtain rfl := Option.some.inj h
      exact .signalled hr (.inl rfl)
    · cases h
  case h_5 =>
    split at h
    · next hr =>
      obtain rfl := Option.some.inj h
      exact .signalled hr (.inr rfl)
    · cases h
  case h_6 =>
    split at h
    · next hr hm =>
      obtain rfl := Option.some.inj h
      exact .lost hr hm
    · cases h
  case h_7 =>
    split at h
    · next hr =>
      obtain rfl := Option.some.inj h
      exact .cancel hr
    · cases h
  case h_8 =>
    split at h
    · next hr =>
      split at h
      · next hg =>
        obtain rfl := Option.some.inj h
        exact .kill hr hg
      · next hg =>
        obtain rfl := Option.some.inj h
        exact .nothingToKill hr hg
    · cases h
  case h_9 =>
    split at h
    · next hr =>
      obtain rfl := Option.some.inj h
      exact .remove hr
    · cases h
  case h_10 =>
    split at h
    · next hr =>
      obtain rfl := Option.some.inj h
      exact .finish hr
    · cases h

theorem monitorStep_cases {e : MonitorEvent} (h : monitorStep s e = some s') :
    MonitorStep s e s' := by
  unfold monitorStep at h
  split at h
  case h_1 =>
    split at h
    · next hm =>
      by_cases hs : s.stop = true
      · rw [if_pos hs] at h
        obtain rfl := Option.some.inj h
        exact .notice hm hs
      · rw [if_neg hs] at h
        cases h
    · cases h
  case h_2 =>
    split at h
    · next child hm =>
      by_cases hc : s.running child = true
      · rw [if_pos hc] at h
        cases h
      · rw [if_neg hc] at h
        obtain rfl := Option.some.inj h
        exact .killed hm
    · cases h
  case h_3 =>
    split at h
    · next hm =>
      obtain ⟨status, hstatus, rfl⟩ := Option.map_eq_some_iff.1 h
      obtain ⟨c, hc, hexit⟩ := Option.bind_eq_some_iff.1 hstatus
      exact .reap hm hc hexit
    · cases h
  case h_4 =>
    split at h
    · next hm =>
      obtain rfl := Option.some.inj h
      exact .waitFailed hm
    · cases h
  case h_5 =>
    split at h
    · next hm =>
      by_cases hs : s.stop = true
      · rw [if_pos hs] at h
        obtain rfl := Option.some.inj h
        exact .cancelled hm hs
      · rw [if_neg hs] at h
        obtain rfl := Option.some.inj h
        exact .check hm (by simpa using hs)
    · cases h
  case h_6 =>
    split at h
    · next deadline hm =>
      by_cases hd : s.now < deadline
      · rw [if_pos hd] at h
        cases h
      · rw [if_neg hd] at h
        by_cases hs : s.stop = true
        · rw [if_pos hs] at h
          obtain rfl := Option.some.inj h
          exact .wokeCancelled hm hs
        · rw [if_neg hs] at h
          obtain rfl := Option.some.inj h
          exact .wake hm (by omega) (by simpa using hs)
    · cases h
  case h_7 ok =>
    split at h
    · next hm =>
      cases ok with
      | true =>
        obtain rfl := Option.some.inj h
        exact .spawn hm
      | false =>
        obtain rfl := Option.some.inj h
        exact .spawnFailed hm
    · cases h

/-- **Every step is one of the listed moves.** -/
theorem step_cases {e : Event} (h : lts.step s e s') : Step s e s' := by
  change step s e = some s' at h
  cases e with
  | elapse ms =>
    obtain rfl := Option.some.inj h
    exact .elapse
  | exit child status unlinks =>
    obtain ⟨-, rfl⟩ : s.running child = true ∧ _ := by simpa [step] using h
    exact .exit
  | bind child =>
    obtain ⟨-, rfl⟩ : s.running child = true ∧ _ := by simpa [step] using h
    exact .bind
  | run e => exact .run (runStep_cases h)
  | monitor e => exact .monitor (monitorStep_cases h)

end Connect

end Gritty
