import Gritty.LTS.History
import Gritty.Server.Step
import Mathlib.Data.List.Nodup
import Mathlib.Data.List.Infix

/-!
# Connections of the session task

A connection comes in over the channel, is current for a while and is dropped.  `State.held` lists
the connections that the task owns, oldest first, and a step can only drop some of them and add the
one that is pushed.  So connections are taken in the order of the channel, and one that was dropped
never comes back.

## Main definitions

* `State.held` : the connections in use and on the channel.
* `handed`, `adopted` : the connections pushed onto the channel and taken from it in a run.

## Main results

* `sent_eq_frames` : the frames written are those of the moves.
* `held_step`, `held_sublist_handed` : what one step does to the connections owned, and a run.
* `queue_step` : what one step takes from the channel and puts on it.
* `adopted_append_queue_le` : connections are taken in the order in which they were pushed.
* `out_of_dropped` : a connection that a move drops is out for good.
-/

namespace Gritty

namespace Server

/-! ### What is sent -/

/-- The send that a phase waits for. -/
def Phase.send? : Phase → Option (Conn × Frame)
  | .sendPong framed => some (framed, .pong)
  | .sendData framed chunk => some (framed, .data chunk)
  | .sendDetached framed _ => some (framed, .detached)
  | .sendExit framed code => some (framed, .exit code)
  | .openpty | .recvFirst | .readEnv _ | .spawning _ _ | .waiting | .relay _ | .writable _ _
  | .ended _ => none

/-- The frames that a move writes. -/
def framesOf (m : Move State Event) : List (Conn × Frame) :=
  match m.lbl with
  | .sent true => m.src.phase.send?.toList
  | _ => []

/-! ### What is owned -/

/-- The connections that a phase works on, oldest first. -/
def Phase.holds : Phase → List Conn
  | .readEnv framed | .spawning framed _ | .relay framed | .writable framed _ | .sendPong framed
  | .sendData framed _ | .sendExit framed _ => [framed]
  | .sendDetached framed newFramed => [framed, newFramed]
  | .openpty | .recvFirst | .waiting | .ended _ => []

/-- The connections that the task owns: returning from `run` drops the receiver with all that is
queued. -/
def State.held (s : State) : List Conn :=
  match s.phase with
  | .ended _ => []
  | p => p.holds ++ s.queue

/-- The connection that a move pushes onto the channel. -/
def handedOf (m : Move State Event) : List Conn :=
  match m.lbl with
  | .handOff framed => [framed]
  | _ => []

/-- The connections pushed onto the channel, in order. -/
def handed (tr : List (Move State Event)) : List Conn := tr.flatMap handedOf

theorem handed_append_single (tr : List (Move State Event)) (m : Move State Event) :
    handed (tr ++ [m]) = handed tr ++ handedOf m := by
  simp [handed]

/-- The connection that a move takes from the channel. -/
def adoptedOf (m : Move State Event) : List Conn :=
  match m.lbl with
  | .recv => m.src.queue.take 1
  | _ => []

/-- The connections taken from the channel, in order. -/
def adopted (tr : List (Move State Event)) : List Conn := tr.flatMap adoptedOf

theorem adopted_append_single (tr : List (Move State Event)) (m : Move State Event) :
    adopted (tr ++ [m]) = adopted tr ++ adoptedOf m := by
  simp [adopted]

variable {s s' : State} {e : Event} {tr : List (Move State Event)} {c : Conn}

theorem sent_onNext {framed : Conn} {r : NextFrame} : (s.onNext framed r).sent = s.sent := by
  unfold State.onNext
  split <;> rfl

theorem write_sent {framed : Conn} {f : Frame} {ok : Bool} :
    (s.write framed f ok).sent = s.sent ++ if ok then [(framed, f)] else [] := by
  cases ok <;> simp [State.write]

/-- What one step adds to the frames written. -/
theorem sent_step (h : Step s e s') : s'.sent = s.sent ++ framesOf ⟨s, e, s'⟩ := by
  cases h with
  | @pongSent framed ok hp | @detachedSent framed newFramed ok hp | @exitSent framed code ok hp =>
    show (s.write framed _ ok).sent = _
    rw [write_sent]
    cases ok <;> simp [framesOf, Phase.send?, hp]
  | dataSent hp => simp [framesOf, Phase.send?, hp, State.write]
  | next hp => simp [framesOf, sent_onNext]
  | _ => simp [framesOf, State.finish, State.onSpawn, State.setAttached, State.shellExited]

/-- The frames written are those of the moves. -/
theorem sent_eq_frames (hr : lts.Run .init tr s) : s.sent = tr.flatMap framesOf :=
  hr.log fun _ _ _ hst => sent_step (step_cases hst)

theorem mem_holds_of_send {f : Frame} (h : s.phase.send? = some (c, f)) : c ∈ s.phase.holds := by
  cases hp : s.phase <;> simp_all [Phase.send?, Phase.holds]

/-! ### Ownership -/

theorem held_of_not_ended (hp : ∀ o, s.phase ≠ .ended o) : s.held = s.phase.holds ++ s.queue := by
  unfold State.held
  split
  · next o ho => exact absurd ho (hp o)
  · rfl

theorem held_of_ended {o : Outcome} (hp : s.phase = .ended o) : s.held = [] := by
  unfold State.held
  rw [hp]

theorem holds_sublist_held : s.phase.holds.Sublist s.held := by
  unfold State.held
  split
  · next hp => simp [hp, Phase.holds]
  · exact List.sublist_append_left _ _

theorem held_onNext {framed : Conn} {r : NextFrame} (hp : s.phase = .relay framed) :
    (s.onNext framed r).held.Sublist s.held := by
  have hs : s.held = framed :: s.queue := by simp [State.held, hp, Phase.holds]
  rw [hs]
  rcases r with _ | e | f
  · exact List.sublist_cons_self _ _
  · exact List.nil_sublist _
  · cases f with
    | data | ping => exact .refl _
    | exit => exact List.sublist_cons_self _ _
    -- the frames after which the loop goes on at once
    | _ => exact hs ▸ .refl _

theorem mem_held_of_frames {m : Move State Event} {p : Conn × Frame} (hp : p ∈ framesOf m) :
    p.1 ∈ m.src.held := by
  unfold framesOf at hp
  split at hp
  · exact holds_sublist_held.subset (mem_holds_of_send (Option.mem_toList.1 hp))
  · cases hp

/-- **What one step does to the connections owned.**  It may drop some of them, and it adds the one
that it pushes. -/
theorem held_step (h : Step s e s') : s'.held.Sublist (s.held ++ handedOf ⟨s, e, s'⟩) := by
  have hend : ∀ o t, s'.phase = .ended o → s'.held.Sublist t := by
    intro o t ho
    rw [held_of_ended ho]
    exact List.nil_sublist _
  cases h with
  | @handOff framed hp =>
    rw [held_of_not_ended hp, List.append_assoc]
    exact held_of_not_ended (s := { s with queue := s.queue ++ [framed] }) hp ▸ .refl _
  | handOffLost hp => exact hend _ _ hp
  | abort | openptyErr | closedFirst | spawnErr | closed | exitIdle | waitErr | readErr | writeErr
  | dataFailed | exitSent => exact hend _ _ rfl
  | next hp =>
    rw [handedOf, List.append_nil]
    exact held_onNext hp
  | dropSenders | tick | output | hangup | exit | readBlock | noTakeover =>
    exact List.sublist_append_left _ _
  | openpty hp | recvFirst hp hq | firstFrame hp | spawn hp | adopt hp hq | read hp | eof hp
  | takeover hp hq | exitRelay hp | write hp | writeBlock hp | pongSent hp | dataSent hp =>
    simp [State.held, handedOf, *, Phase.holds, State.onSpawn, State.shellExited, State.write]
  -- the client that is replaced is dropped
  | detachedSent hp =>
    simp [State.held, handedOf, hp, Phase.holds, State.write]

/-- The connections owned were pushed, in that order. -/
theorem held_sublist_handed (hr : lts.Run .init tr s) : s.held.Sublist (handed tr) := by
  refine hr.invariant (P := fun _ => True) (I := fun tr s => s.held.Sublist (handed tr))
    (fun _ _ => trivial) (List.nil_sublist _) ?_
  intro tr s e s' hi _ hst
  rw [handed_append_single]
  exact (held_step (step_cases hst)).trans (hi.append_right _)

theorem queue_onNext {framed : Conn} {r : NextFrame} : (s.onNext framed r).queue = s.queue := by
  unfold State.onNext
  split <;> rfl

/-- What one step takes from the channel and puts on it.  Once the task ended the channel is
closed. -/
theorem queue_step (h : Step s e s') (hs' : ∀ o, s'.phase ≠ .ended o) :
    s.queue ++ handedOf ⟨s, e, s'⟩ = adoptedOf ⟨s, e, s'⟩ ++ s'.queue := by
  cases h with
  | recvFirst _ hq | adopt _ hq | takeover _ hq | noTakeover _ hq =>
    simp [handedOf, adoptedOf, hq]
  | next => simp [handedOf, adoptedOf, queue_onNext]
  | abort | openptyErr | closedFirst | spawnErr | closed | exitIdle | waitErr | readErr | writeErr
  | dataFailed | exitSent => exact absurd rfl (hs' _)
  | handOffLost hp => exact absurd hp (hs' _)
  | _ => simp [handedOf, adoptedOf, State.onSpawn, State.shellExited, State.write]

/-- The step that ends the task, and those after it, take nothing from the channel, unless nothing
is on it. -/
theorem queue_step_of_ended (h : Step s e s') {o : Outcome} (hs' : s'.phase = .ended o) :
    s'.queue = s.queue ∧ adoptedOf ⟨s, e, s'⟩ = [] := by
  cases h with
  | handOff hp => exact absurd hs' (hp o)
  | closedFirst _ hq | closed _ hq | noTakeover _ hq => simp [adoptedOf, hq, State.finish]
  | recvFirst | adopt | takeover => simp at hs'
  | next => exact ⟨queue_onNext, rfl⟩
  | _ => exact ⟨rfl, rfl⟩

/-- **Connections are taken in the order they were pushed.**  Those taken and those still queued are
the first ones pushed, and all of them until the task ends. -/
theorem adopted_append_queue_le (hr : lts.Run .init tr s) :
    adopted tr ++ s.queue <+: handed tr ∧
      ((∀ o, s.phase ≠ .ended o) → adopted tr ++ s.queue = handed tr) := by
  refine hr.invariant (P := fun _ => True)
    (I := fun tr s => adopted tr ++ s.queue <+: handed tr ∧
      ((∀ o, s.phase ≠ .ended o) → adopted tr ++ s.queue = handed tr))
    (fun _ _ => trivial) ⟨List.prefix_rfl, fun _ => rfl⟩ ?_
  intro tr s e s' ⟨hi, heq⟩ _ hst
  have h := step_cases hst
  have hstep : (∀ o, s'.phase ≠ .ended o) →
      adopted tr ++ adoptedOf ⟨s, e, s'⟩ ++ s'.queue = handed tr ++ handedOf ⟨s, e, s'⟩ := by
    intro hs'
    rw [List.append_assoc, ← queue_step h hs', ← List.append_assoc,
      heq (not_ended_of_step h hs')]
  rw [adopted_append_single, handed_append_single]
  refine ⟨?_, hstep⟩
  by_cases hs' : ∀ o, s'.phase ≠ .ended o
  · rw [hstep hs']
  · push Not at hs'
    obtain ⟨o, hs'⟩ := hs'
    obtain ⟨hq, had⟩ := queue_step_of_ended h hs'
    rw [hq, had, List.append_nil]
    exact hi.trans (List.prefix_append _ _)

theorem newest_onNext {framed : Conn} {r : NextFrame} (hp : s.phase = .relay framed) :
    (s.onNext framed r).phase.holds.getLast? = none ∨
      (s.onNext framed r).phase.holds.getLast? = s.phase.holds.getLast? := by
  rw [hp]
  rcases r with _ | e | f
  · exact .inl rfl
  · exact .inl rfl
  · cases f with
    | data | ping => exact .inr rfl
    | exit => exact .inl rfl
    | _ => exact .inr (congrArg (fun p => p.holds.getLast?) hp)

theorem newest_step (h : Step s e s') : s'.phase.holds.getLast? = none ∨
    s'.phase.holds.getLast? = ((adoptedOf ⟨s, e, s'⟩).getLast?.or s.phase.holds.getLast?) := by
  cases h with
  | recvFirst _ hq | adopt _ hq | takeover _ hq => exact .inr (by simp [adoptedOf, hq, Phase.holds])
  | noTakeover _ hq => exact .inr (by simp [adoptedOf, hq])
  | next hp => exact newest_onNext hp
  | openpty | abort | openptyErr | closedFirst | spawnErr | closed | exitIdle | waitErr | readErr
  | writeErr | dataFailed | exitSent => exact .inl rfl
  | handOff | handOffLost | dropSenders | tick | output | hangup | exit | readBlock =>
    exact .inr rfl
  | firstFrame hp | spawn hp | read hp | eof hp | exitRelay hp | write hp | writeBlock hp
  | pongSent hp | dataSent hp | detachedSent hp => exact .inr (by rw [hp]; rfl)

/-- The newest connection that the task works on is the last one taken from the channel. -/
theorem adopted_getLast? (hr : lts.Run .init tr s) {c : Conn}
    (hc : s.phase.holds.getLast? = some c) : (adopted tr).getLast? = some c := by
  refine hr.invariant (P := fun _ => True)
    (I := fun tr s => ∀ c, s.phase.holds.getLast? = some c → (adopted tr).getLast? = some c)
    (fun _ _ => trivial) (by simp [State.init, Phase.holds]) ?_ c hc
  intro tr s e s' hi _ hst c hc
  rw [adopted_append_single, List.getLast?_append]
  rcases newest_step (step_cases hst) with hn | hn
  · rw [hn] at hc
    cases hc
  · rw [hn] at hc
    cases hl : (adoptedOf ⟨s, e, s'⟩).getLast? with
    | some c' =>
      rw [hl] at hc
      exact hc
    | none =>
      rw [hl] at hc
      exact hi c hc

theorem not_written_of_dropped (hr : lts.Run s tr s') (hc : c ∉ s.held) (hh : c ∉ handed tr) :
    c ∉ s'.held ∧ ∀ p ∈ tr.flatMap framesOf, p.1 ≠ c := by
  refine hr.invariant (P := fun m => c ∉ handedOf m)
    (I := fun tr s => c ∉ s.held ∧ ∀ p ∈ tr.flatMap framesOf, p.1 ≠ c) ?_ ⟨hc, by simp⟩ ?_
  · intro m hm hc
    exact hh (List.mem_flatMap.2 ⟨m, hm, hc⟩)
  · intro tr s e s' ⟨hc, hw⟩ hm hst
    refine ⟨fun hc' => ?_, ?_⟩
    · rcases List.mem_append.1 ((held_step (step_cases hst)).subset hc') with h | h
      · exact hc h
      · exact hm h
    · intro p hp
      rw [List.flatMap_append, List.flatMap_singleton] at hp
      rcases List.mem_append.1 hp with hp | hp
      · exact hw p hp
      · rintro rfl
        exact hc (mem_held_of_frames hp)

theorem adopted_nodup (hr : lts.Run .init tr s) (hd : (handed tr).Nodup) : (adopted tr).Nodup :=
  hd.sublist ((List.sublist_append_left _ _).trans (adopted_append_queue_le hr).1.sublist)

/-- **A connection that a move drops is out for good**, when each connection is pushed once. -/
theorem out_of_dropped {tr' : List (Move State Event)} {m : Move State Event}
    (hr : lts.Run .init (tr ++ m :: tr') s) (hd : (handed (tr ++ m :: tr')).Nodup)
    (hc : c ∈ m.src.held) (hc' : c ∉ m.dst.held) :
    c ∉ s.held ∧ ∀ p ∈ tr'.flatMap framesOf, p.1 ≠ c := by
  obtain ⟨hr₁, hst, hr₂⟩ := hr.cut_at
  have hin : c ∈ handed tr := (held_sublist_handed hr₁).subset hc
  have hh : handed (tr ++ m :: tr') = handed tr ++ (handedOf m ++ handed tr') := by simp [handed]
  rw [hh] at hd
  refine not_written_of_dropped hr₂ hc' fun hn => ?_
  exact (List.nodup_append.1 hd).2.2 c hin c (List.mem_append_right _ hn) rfl

end Server

end Gritty
