import Gritty.System.Basic

/-!
# The moves of the system

`Step` lists the moves of the system: a party does nothing on its connections, or one thing on one
of them, and the wires follow.  The laws of the system are proved by cases on this list; what the
party does beside is of interest only to the laws of the party.

The list does not say which errors of the decoder can be read.  What it leaves open is what the
decoder has answered, and this is a fact about the wires before the move.

## Main results

* `actsOf_cases` : a move of the daemon does one thing at most.
* `step_daemon`, `step_peer` : the moves of the parties, with what they do to the wires.
* `step_cases` : every step is one of the listed moves.
* `answers_of_step` : an error of the decoder that is read is one that the decoder has answered.
-/

namespace Gritty

namespace Daemon

/-- A move does one thing at most. -/
theorem actsOf_cases (m : Move State Event) : actsOf m = [] ∨ ∃ c a, actsOf m = [(c, a)] := by
  obtain ⟨s, e, s'⟩ := m
  cases e with
  | task handle e =>
    rcases Server.actsOf_cases ⟨(s.tasks handle).server, e, (s'.tasks handle).server⟩ with
      ⟨ha, -⟩ | ⟨c, a, ha, -⟩
    · exact .inl ha
    · exact .inr ⟨c, a, ha⟩
  | request r =>
    rcases r with _ | _ | frame
    · exact .inl rfl
    · exact .inl rfl
    · cases hc : s.control.conn? with
      | none => exact .inl (by simp [actsOf, hc])
      | some c => exact .inr ⟨c, .read frame, by simp [actsOf, hc]⟩
  | replied ok =>
    cases hc : s.control with
    | replying framed reply next => exact .inr ⟨framed, .sent reply ok, by simp [actsOf, hc]⟩
    | _ => exact .inl (by simp [actsOf, hc])
  | _ => exact .inl rfl

end Daemon

namespace System

open FrameCodec (frameCodec)
open Server (Act)

/-- The moves, by what a party does on its connections. -/
inductive Step (s : State) : Event → State → Prop
  | daemonQuiet {e cut daemon} : e ≠ .connect → Daemon.lts.step s.daemon e daemon →
      Daemon.actsOf ⟨s.daemon, e, daemon⟩ = [] → Step s (.daemon e cut) { s with daemon := daemon }
  | daemonRead {e cut daemon d f w} : e ≠ .connect → Daemon.lts.step s.daemon e daemon →
      Daemon.actsOf ⟨s.daemon, e, daemon⟩ = [(d, .read f)] →
      (s.up d).read frameCodec f = some w →
      Step s (.daemon e cut) { s with daemon := daemon, up := Function.update s.up d w }
  | daemonSent {e cut daemon d f ok w} : e ≠ .connect → Daemon.lts.step s.daemon e daemon →
      Daemon.actsOf ⟨s.daemon, e, daemon⟩ = [(d, .sent f ok)] →
      (s.down d).write frameCodec f ok cut = some w →
      Step s (.daemon e cut) { s with daemon := daemon, down := Function.update s.down d w }
  | peerQuiet {i e cut p} : Peer.Step (s.peers i) e p → Peer.actsOf ⟨s.peers i, e, p⟩ = [] →
      Step s (.peer i e cut) (s.setPeer i p)
  | peerRead {i e cut p c d f w} : Peer.Step (s.peers i) e p →
      Peer.actsOf ⟨s.peers i, e, p⟩ = [(c, .read f)] → s.dial i c = some d →
      (s.down d).read frameCodec f = some w →
      Step s (.peer i e cut) { s.setPeer i p with down := Function.update s.down d w }
  | peerSent {i e cut p c d f ok w} : Peer.Step (s.peers i) e p →
      Peer.actsOf ⟨s.peers i, e, p⟩ = [(c, .sent f ok)] → s.dial i c = some d →
      (s.up d).write frameCodec f ok cut = some w →
      Step s (.peer i e cut) { s.setPeer i p with up := Function.update s.up d w }
  | peerAstray {i e cut p c f ok} : Peer.Step (s.peers i) e p →
      Peer.actsOf ⟨s.peers i, e, p⟩ = [(c, .sent f ok)] → s.dial i c = none →
      Step s (.peer i e cut) (s.setPeer i p)
  | connect {i p daemon} : Peer.Step (s.peers i) (s.peers i).connect p →
      Daemon.lts.step s.daemon .connect daemon →
      Step s (.connect i) { (s.dialed i).setPeer i p with daemon := daemon }
  | stranger {daemon} : Daemon.lts.step s.daemon .connect daemon →
      Step s .stranger
        { s with daemon := daemon, strangers := s.strangers ++ [s.daemon.connected] }
  | inject {d bytes} : d ∈ s.strangers →
      Step s (.inject d bytes) { s with up := Function.update s.up d ((s.up d).inject bytes) }

variable {s s' : State} {e : Event}

theorem not_isConnect {e : Daemon.Event} : isConnect e = false ↔ e ≠ .connect := by
  cases e <;> simp [isConnect]

/-- What a move reads of the decoder, the decoder has answered. -/
theorem answers_of_step (h : lts.step s e s') : s.answers e = true ∧ s.perform e = some s' := by
  change step s e = some s' at h
  unfold step at h
  by_cases ha : s.answers e = true
  · rw [if_pos ha] at h
    exact ⟨ha, h⟩
  · rw [if_neg ha] at h
    cases h

theorem step_daemon {e : Daemon.Event} {cut : ℕ} (h : s.perform (.daemon e cut) = some s') :
    Step s (.daemon e cut) s' := by
  have he : isConnect e = false := by
    by_contra hc
    simp [State.perform, hc] at h
  have hne := not_isConnect.1 he
  simp only [State.perform, he, Bool.false_eq_true, if_false] at h
  obtain ⟨daemon, hst, hacts⟩ := Option.bind_eq_some_iff.1 h
  rcases Daemon.actsOf_cases ⟨s.daemon, e, daemon⟩ with ha | ⟨d, a, ha⟩
  · rw [ha] at hacts
    obtain rfl := Option.some.inj hacts
    exact .daemonQuiet hne hst ha
  · simp only [ha, List.foldlM_cons, List.foldlM_nil] at hacts
    cases a with
    | read f =>
      obtain ⟨w, hw, rfl⟩ : ∃ w, (s.up d).read frameCodec f = some w ∧
          { s with daemon := daemon, up := Function.update s.up d w } = s' := by
        simpa [State.daemonAct, State.setUp] using hacts
      exact .daemonRead hne hst ha hw
    | sent f ok =>
      obtain ⟨w, hw, rfl⟩ : ∃ w, (s.down d).write frameCodec f ok cut = some w ∧
          { s with daemon := daemon, down := Function.update s.down d w } = s' := by
        simpa [State.daemonAct, State.setDown] using hacts
      exact .daemonSent hne hst ha hw

theorem step_peer {i cut : ℕ} {e : Peer.Event} (hi : (s.peers i).Sound)
    (h : s.perform (.peer i e cut) = some s') : Step s (.peer i e cut) s' := by
  obtain ⟨p, hst, hacts⟩ := Option.bind_eq_some_iff.1 h
  have hp := Peer.step_cases hst
  rcases hp.actsOf_cases hi with ha | ⟨c, a, ha, -⟩
  · rw [ha] at hacts
    obtain rfl := Option.some.inj hacts
    exact .peerQuiet hp ha
  · simp only [ha, List.foldlM_cons, List.foldlM_nil] at hacts
    cases a with
    | read f =>
      obtain ⟨d, hd, w, hw, rfl⟩ : ∃ d, s.dial i c = some d ∧ ∃ w,
          (s.down d).read frameCodec f = some w ∧
          { s.setPeer i p with down := Function.update s.down d w } = s' := by
        simpa [State.peerAct, State.setDown, State.setPeer, Option.bind_eq_some_iff] using hacts
      exact .peerRead hp ha hd hw
    | sent f ok =>
      cases hd : s.dial i c with
      | none =>
        obtain rfl : s.setPeer i p = s' := by
          simpa [State.peerAct, State.setPeer, hd] using hacts
        exact .peerAstray hp ha hd
      | some d =>
        obtain ⟨w, hw, rfl⟩ : ∃ w, (s.up d).write frameCodec f ok cut = some w ∧
            { s.setPeer i p with up := Function.update s.up d w } = s' := by
          simpa [State.peerAct, State.setUp, State.setPeer, hd] using hacts
        exact .peerSent hp ha hd hw

theorem step_cases (hi : ∀ i, (s.peers i).Sound) (h : lts.step s e s') : Step s e s' := by
  replace h := (answers_of_step h).2
  cases e with
  | daemon e cut => exact step_daemon h
  | peer i e cut => exact step_peer (hi i) h
  | connect i =>
    obtain ⟨p, hp, h⟩ := Option.bind_eq_some_iff.1 h
    obtain ⟨daemon, hd, rfl⟩ := Option.map_eq_some_iff.1 h
    exact .connect (Peer.step_cases hp) hd
  | stranger =>
    have h' : ((Daemon.step s.daemon .connect).map fun daemon =>
        { s with daemon := daemon, strangers := s.strangers ++ [s.daemon.connected] }) =
          some s' := h
    obtain ⟨daemon, hd, rfl⟩ := Option.map_eq_some_iff.1 h'
    exact .stranger hd
  | inject d bytes =>
    obtain ⟨hd, rfl⟩ : d ∈ s.strangers ∧ s.setUp d ((s.up d).inject bytes) = s' := by
      simpa [State.perform] using h
    exact .inject hd

end System

end Gritty
