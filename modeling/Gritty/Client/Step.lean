import Gritty.Client.Basic

/-!
# The moves of a client beside its daemon

`Step` lists the moves, one constructor for each branch of the code.  Whatever is said about the
moves of the client and its daemon is shown by cases on them, without looking at `step` again.

A run of the two is also a run of the daemon, as the client only decides which requests are read on
its connections, so that all laws of the daemon hold beside a client.

## Main results

* `step_cases` : the list is complete.
* `daemon_step` : the daemon makes a step, or stands still while the client moves.
* `daemon_reachable` : the daemon of a reachable state is reachable.
-/

namespace Gritty

namespace Client

/-- The moves of a client beside its daemon. -/
inductive Step (s : State) : Event → State → Prop
  | daemon {e d} : s.permits e = true → Daemon.lts.step s.daemon e d →
      Step s (.daemon e) { s with daemon := d }
  | start {request d} : s.client = .start → opens request = true →
      Daemon.lts.step s.daemon .connect d →
      Step s (.start request) ⟨d, .opening s.daemon.connected request⟩
  | opened {framed request r client} : s.client = .opening framed request →
      s.delivers framed r = true → opened s.daemon framed request r = some client →
      Step s (.reply r) { s with client := client }
  | reattached {framed session home r} : s.client = .attaching framed session home →
      s.delivers framed r = true →
      Step s (.reply r) { s with client := reattached framed session home r }
  | finished {framed session home code} : s.client = .relaying framed session home →
      Step s (.relayed (some code)) { s with client := .exited code }
  | lost {framed session home} : s.client = .relaying framed session home →
      Step s (.relayed none) { s with client := .reconnecting session home }
  | interrupt {session home} : s.client = .reconnecting session home →
      Step s .interrupt { s with client := .exited 1 }
  | connect {session home d} : s.client = .reconnecting session home →
      Daemon.lts.step s.daemon .connect d →
      Step s .connect ⟨d, .attaching s.daemon.connected session home⟩

variable {s s' : State} {e : Event}

/-- **Every step is one of the listed moves.** -/
theorem step_cases (h : lts.step s e s') : Step s e s' := by
  change step s e = some s' at h
  unfold step at h
  split at h
  · next e =>
    by_cases hp : s.permits e = true
    · rw [if_pos hp] at h
      obtain ⟨d, hd, rfl⟩ := Option.map_eq_some_iff.1 h
      exact .daemon hp hd
    · rw [if_neg hp] at h
      cases h
  -- `new_session` and `attach`
  · next request =>
    split at h
    · next hc =>
      by_cases ho : opens request = true
      · rw [if_pos ho] at h
        obtain ⟨d, hd, rfl⟩ := Option.map_eq_some_iff.1 h
        exact .start hc ho hd
      · rw [if_neg ho] at h
        cases h
    · cases h
  -- a reply, to the first request or in the reconnect loop
  · next r =>
    split at h
    · next framed request hc =>
      by_cases hr : s.delivers framed r = true
      · rw [if_pos hr] at h
        obtain ⟨client, ho, rfl⟩ := Option.map_eq_some_iff.1 h
        exact .opened hc hr ho
      · rw [if_neg hr] at h
        cases h
    · next framed session home hc =>
      by_cases hr : s.delivers framed r = true
      · rw [if_pos hr] at h
        obtain rfl := Option.some.inj h
        exact .reattached hc hr
      · rw [if_neg hr] at h
        cases h
    · cases h
  · split at h
    · next hc =>
      split at h
      · obtain rfl := Option.some.inj h
        exact .finished hc
      · obtain rfl := Option.some.inj h
        exact .lost hc
    · cases h
  -- the reconnect loop
  · split at h
    · next hc =>
      obtain rfl := Option.some.inj h
      exact .interrupt hc
    · cases h
  · split at h
    · next hc =>
      obtain ⟨d, hd, rfl⟩ := Option.map_eq_some_iff.1 h
      exact .connect hc hd
    · cases h

/-- The daemon of a step makes a step or stands still. -/
theorem daemon_step (h : Step s e s') :
    (∃ e', Daemon.lts.step s.daemon e' s'.daemon) ∨ s'.daemon = s.daemon := by
  cases h with
  | daemon _ hd | start _ _ hd | connect _ hd => exact .inl ⟨_, hd⟩
  | opened | reattached | finished | lost | interrupt => exact .inr rfl

theorem daemon_reachable (h : lts.Reachable .init s) :
    Daemon.lts.Reachable .init s.daemon := by
  refine h.invariant (I := fun s => Daemon.lts.Reachable .init s.daemon) (.refl _) ?_
  intro s e s' hi hst
  rcases daemon_step (step_cases hst) with ⟨e', hd⟩ | hd
  · exact hi.tail hd
  · exact hd ▸ hi

end Client

end Gritty
