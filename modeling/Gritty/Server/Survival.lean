import Gritty.Server.Step

/-!
# What ends a session

The session task should end only when the shell is gone, when the PTY or the child fails, when the
daemon drops the channel or aborts the task; a client should at most send the task back to waiting
for the next client.  The code returns an error instead when reading from the client fails or when a
`Data` frame cannot be sent to it.

## Main definitions

* `EndCause` : the events that may end a session.
* `ClientFault` : the two ways in which a client takes the session down.
* `SurvivesClients` : the task serves unless there was a cause to end, and whatever a client does at
  most makes it wait for the next one.
* `WellFormed` : the invariant that ties the shell and the metadata to the control point.

## Main results

* `WellFormed.step`, `WellFormed.of_reachable` : the invariant.
* `serving_run` : in a run without a client fault, the task serves or there was a cause to end.
* `survives_iff` : a session survives its clients if and only if no client fails in one of the two
  ways.
-/

namespace Gritty

namespace Server

/-- The shell runs and the task serves its clients or waits for one. -/
def State.Serving (s : State) : Prop :=
  match s.phase with
  | .waiting | .relay _ | .writable _ _ | .sendPong _ | .sendData _ _ | .sendDetached _ _ => True
  | _ => False

/-- The causes for which a session may end: the shell exited, EOF or EIO on the PTY, a system error
of the PTY or of `wait`, a closed channel with no client left, an abort. -/
def EndCause (s : State) : Event → Prop
  | .abort | .wait _ | .read .eof | .read .eio | .read .err | .write .err => True
  | .recv => s.queue = [] ∧ s.sendersDropped = true
  | _ => False

/-- What a client connection does: a frame, its end or a read error arrives in the relay loop, or
a send to it succeeds or fails. -/
def ClientEvent (s : State) : Event → Prop
  | .next _ => True
  | .sent _ => ∀ framed code, s.phase ≠ .sendExit framed code
  | _ => False

/-- The client of the relay loop is seen gone: end of file, an `Exit` frame, a read error or an
undecodable frame, a failed send of PTY output. -/
def ClientLost (s : State) : Event → Prop
  | .next none | .next (some (.error _)) | .next (some (.ok (.exit _))) => True
  | .sent false => ∃ framed chunk, s.phase = .sendData framed chunk
  | _ => False

/-- The client failures that the code turns into an error of the task. -/
def ClientFault (s : State) : Event → Prop
  | .next (some (.error _)) => True
  | .sent false => ∃ framed chunk, s.phase = .sendData framed chunk
  | _ => False

/-- The session survives its clients in a run. -/
structure SurvivesClients (tr : List (Move State Event)) (s : State) : Prop where
  /-- The task has ended, or has hung up the shell, only after a cause to end. -/
  ended : ((∃ o, s.phase = .ended o) ∨ s.hup = true) → ∃ m ∈ tr, EndCause m.src m.lbl
  /-- Nothing that a client connection does ends the task. -/
  client : ∀ m ∈ tr, ClientEvent m.src m.lbl → m.dst.Serving
  /-- A lost client sends the task back to waiting, with `attached` false. -/
  lost : ∀ m ∈ tr, ClientLost m.src m.lbl →
    m.dst.phase = .waiting ∧ m.dst.metadata.map SessionMetadata.attached = some false

variable {s s' s₀ s₁ : State} {e : Event} {tr : List (Move State Event)}

/-! ### Invariants of the whole task -/

/-- The metadata is published before the first client is served, and the shell is hung up only
when the task ends. -/
structure WellFormed (s : State) : Prop where
  published : s.Serving → s.metadata.isSome = true
  hup : s.hup = true → ∃ o, s.phase = .ended o

theorem WellFormed.init : WellFormed State.init := by
  constructor <;> simp [State.Serving, State.init]

namespace WellFormed

/-- A move that keeps the phase, the metadata and the shell keeps the invariant. -/
theorem frame (hw : WellFormed s) (hp : s'.phase = s.phase) (hm : s'.metadata = s.metadata)
    (hh : s'.hup = s.hup) : WellFormed s' := by
  refine ⟨?_, ?_⟩
  · intro hs
    rw [hm]
    unfold State.Serving at hs
    rw [hp] at hs
    exact hw.published hs
  · intro h
    rw [hp]
    exact hw.hup (hh ▸ h)

theorem hup_eq_false (hw : WellFormed s) (hp : ∀ o, s.phase ≠ .ended o) : s.hup = false := by
  by_contra hh
  obtain ⟨o, ho⟩ := hw.hup (by simpa using hh)
  exact hp o ho

theorem of_serving (hw : WellFormed s) (hs : s.Serving)
    (hm : s'.metadata.isSome = s.metadata.isSome) (hh : s'.hup = s.hup) : WellFormed s' := by
  have hp : ∀ o, s.phase ≠ .ended o := by
    intro o ho
    simp [State.Serving, ho] at hs
  refine ⟨fun _ => hm ▸ hw.published hs, ?_⟩
  intro h
  rw [hh, hw.hup_eq_false hp] at h
  cases h

theorem of_idle (hw : WellFormed s) (hp : ∀ o, s.phase ≠ .ended o) (hs : ¬ s'.Serving)
    (hh : s'.hup = s.hup) : WellFormed s' := by
  refine ⟨fun h => absurd h hs, ?_⟩
  intro h
  rw [hh, hw.hup_eq_false hp] at h
  cases h

theorem finish (s : State) (o : Outcome) : WellFormed (s.finish o) :=
  ⟨fun h => by simp [State.Serving, State.finish] at h, fun _ => ⟨o, rfl⟩⟩

end WellFormed

@[simp] theorem setAttached_metadata_isSome (b : Bool) :
    (s.setAttached b).metadata.isSome = s.metadata.isSome := by
  simp [State.setAttached]

theorem onNext_serving (framed : Conn) {r : NextFrame} (hs : s.Serving)
    (hr : ∀ e, r ≠ some (.error e)) :
    (s.onNext framed r).Serving ∧ (s.onNext framed r).hup = s.hup ∧
      (s.onNext framed r).metadata.isSome = s.metadata.isSome := by
  rcases r with _ | e | f
  · exact ⟨trivial, rfl, setAttached_metadata_isSome _⟩
  · exact absurd rfl (hr e)
  · cases f with
    | data => exact ⟨trivial, rfl, rfl⟩
    | ping => exact ⟨trivial, rfl, Option.isSome_map⟩
    | exit => exact ⟨trivial, rfl, setAttached_metadata_isSome _⟩
    -- a new window size, and the control frames that the loop ignores
    | _ => exact ⟨hs, rfl, rfl⟩

theorem serving_of_relay {framed : Conn} (hp : s.phase = .relay framed) : s.Serving := by
  simp [State.Serving, hp]

theorem not_serving_finish (o : Outcome) : ¬ (s.finish o).Serving := by
  simp [State.Serving, State.finish]

/-- **Each step keeps the invariant.** -/
theorem WellFormed.step (hw : WellFormed s) (h : Step s e s') : WellFormed s' := by
  cases h with
  | handOff | handOffLost | dropSenders | tick | output | hangup | exit =>
    exact hw.frame rfl rfl rfl
  | abort | openptyErr | closedFirst | spawnErr | closed | exitIdle | waitErr | readErr | writeErr
  | dataFailed | exitSent => exact .finish _ _
  | openpty hp | recvFirst hp | firstFrame hp =>
    exact hw.of_idle (by simp [hp]) (by simp [State.Serving]) rfl
  | spawn hp => exact ⟨fun _ => rfl, fun h => absurd (hw.hup h) (by simp [hp])⟩
  | adopt hp => exact hw.of_serving (by simp [State.Serving, hp]) (by simp) rfl
  | @next framed r hp =>
    by_cases hr : ∃ e, r = some (.error e)
    · obtain ⟨e, rfl⟩ := hr
      exact .finish _ _
    · have hs := serving_of_relay hp
      obtain ⟨-, hh, hm⟩ := onNext_serving framed hs fun e he => hr ⟨e, he⟩
      exact hw.of_serving hs hm hh
  | read hp | eof hp | readBlock hp | takeover hp | noTakeover hp | exitRelay hp | write hp
  | writeBlock hp | dataSent hp | pongSent hp | detachedSent hp =>
    exact hw.of_serving (by simp [State.Serving, hp]) rfl rfl

theorem WellFormed.of_reachable (h : lts.Reachable .init s) : WellFormed s :=
  h.invariant .init fun _ _ _ hw hst => hw.step (step_cases hst)

/-! ### One step of a serving task -/

theorem serving_step (hs : s.Serving) (h : Step s e s') (hf : ¬ ClientFault s e) :
    s'.Serving ∨ EndCause s e := by
  cases h with
  | handOff | dropSenders | tick | output | hangup | exit => exact .inl hs
  | handOffLost hp | openpty hp | openptyErr hp | recvFirst hp | closedFirst hp | firstFrame hp
  | spawn hp | spawnErr hp | exitSent hp => simp [State.Serving, hp] at hs
  | abort | exitIdle | waitErr | exitRelay | readErr | writeErr => exact .inr trivial
  | closed _ hq hd => exact .inr ⟨hq, hd⟩
  | eof _ hr => rcases hr with rfl | rfl <;> exact .inr trivial
  | next =>
    refine .inl (onNext_serving _ hs fun e he => ?_).1
    subst he
    exact hf trivial
  | dataFailed hp => exact absurd ⟨_, _, hp⟩ hf
  | noTakeover | readBlock => exact .inl hs
  | adopt | read | takeover | write | writeBlock | pongSent | dataSent | detachedSent =>
    exact .inl trivial

theorem serving_of_clientEvent (h : Step s e s') (he : ClientEvent s e) (hf : ¬ ClientFault s e) :
    s'.Serving := by
  cases h with
  | next hp =>
    refine (onNext_serving _ (serving_of_relay hp) fun e he => ?_).1
    subst he
    exact hf trivial
  | pongSent | dataSent | detachedSent => trivial
  | dataFailed hp => exact absurd ⟨_, _, hp⟩ hf
  | exitSent hp => exact absurd hp (he _ _)
  | _ => exact absurd he not_false

theorem clientLost_cases (hl : ClientLost s e) (hf : ¬ ClientFault s e) :
    e = .next none ∨ ∃ code, e = .next (some (.ok (.exit code))) := by
  cases e with
  | next r =>
    rcases r with _ | e | f
    · exact .inl rfl
    · exact absurd trivial hf
    · cases f with
      | exit code => exact .inr ⟨code, rfl⟩
      | _ => exact absurd hl not_false
  | sent ok =>
    cases ok with
    | false => exact absurd hl hf
    | true => exact absurd hl not_false
  | _ => exact absurd hl not_false

theorem clientLost_step (hw : WellFormed s) (h : Step s e s') (hl : ClientLost s e)
    (hf : ¬ ClientFault s e) :
    s'.phase = .waiting ∧ s'.metadata.map SessionMetadata.attached = some false := by
  have he := clientLost_cases hl hf
  cases h with
  | next hp =>
    obtain ⟨m, hm⟩ := Option.isSome_iff_exists.1 (hw.published (serving_of_relay hp))
    have hg : s.clientGone.phase = .waiting ∧
        s.clientGone.metadata.map SessionMetadata.attached = some false := by
      simp [State.clientGone, State.setAttached, hm]
    rcases he with he | ⟨code, he⟩ <;> cases he <;> exact hg
  | _ => simp at he

theorem clientFault_step (h : Step s e s') (hf : ClientFault s e) :
    ClientEvent s e ∧ ¬ s'.Serving := by
  cases h with
  | @next framed r hp =>
    unfold ClientFault at hf
    split at hf
    · next he =>
      cases he
      exact ⟨trivial, not_serving_finish _⟩
    · next he => cases he
    · cases hf
  | dataFailed hp => exact ⟨by simp [ClientEvent, hp], not_serving_finish _⟩
  | @pongSent _ ok hp | @detachedSent _ _ ok hp | @exitSent _ _ ok hp =>
    cases ok <;> simp [ClientFault, hp] at hf
  | _ => exact absurd hf not_false

/-! ### Whole runs -/

/-- A run without a client fault: the task serves, or there was a cause to end. -/
theorem serving_run (hr : lts.Run s₀ tr s) (hs : s₀.Serving)
    (hf : ∀ m ∈ tr, ¬ ClientFault m.src m.lbl) :
    s.Serving ∨ ∃ m ∈ tr, EndCause m.src m.lbl := by
  refine hr.invariant (I := fun tr s => s.Serving ∨ ∃ m ∈ tr, EndCause m.src m.lbl) hf
    (.inl hs) ?_
  intro tr s l s' hi hf hst
  rcases hi with hs | ⟨m, hm, hc⟩
  · rcases serving_step hs (step_cases hst) hf with hs' | hc
    · exact .inl hs'
    · exact .inr ⟨⟨s, l, s'⟩, by simp, hc⟩
  · exact .inr ⟨m, by simp [hm], hc⟩

theorem not_serving_of_ended (hw : WellFormed s) (he : (∃ o, s.phase = .ended o) ∨ s.hup = true) :
    ¬ s.Serving := by
  obtain ⟨o, ho⟩ := he.elim id hw.hup
  simp [State.Serving, ho]

/-- **A session survives its clients exactly when no client fails in one of the two ways.**  The
run starts when the shell is spawned; it survives its clients if and only if no read from a client
fails in the relay loop and no send of PTY output to a client fails. -/
theorem survives_iff {pid : UInt32} (h₁ : lts.Reachable .init s₁)
    (h₀ : lts.step s₁ (.spawn (some pid)) s₀) (hr : lts.Run s₀ tr s) :
    SurvivesClients tr s ↔ ∀ m ∈ tr, ¬ ClientFault m.src m.lbl := by
  have hr₀ : lts.Reachable .init s₀ := h₁.tail h₀
  have hs₀ : s₀.Serving := by
    cases step_cases h₀ with
    | spawn hp => trivial
  have hw : ∀ {tr s}, lts.Run s₀ tr s → WellFormed s := by
    intro tr s hr
    obtain ⟨tr₀, h⟩ := hr₀
    exact .of_reachable (h.append hr).reachable
  refine ⟨fun hv m hm hf => ?_, fun hf => ⟨fun he => ?_, fun m hm he => ?_, fun m hm hl => ?_⟩⟩
  · obtain ⟨hst, -⟩ := hr.move hm
    obtain ⟨he, hn⟩ := clientFault_step (step_cases hst) hf
    exact hn (hv.client m hm he)
  · exact (serving_run hr hs₀ hf).resolve_left (not_serving_of_ended (hw hr) he)
  · obtain ⟨hst, -⟩ := hr.move hm
    exact serving_of_clientEvent (step_cases hst) he (hf m hm)
  · obtain ⟨hst, _, _, -, hm'⟩ := hr.move hm
    exact clientLost_step (hw hm') (step_cases hst) hl (hf m hm)

/-! ### A client that disconnects inside a frame -/

/-- The task with its first client, about to spawn the shell. -/
def State.beforeSpawn : State :=
  { State.init with
    ptyPath := "/dev/pts/1"
    framed := some 0
    slaveFds := 3
    phase := .spawning 0 [] }

/-- The task with its first client and a shell just spawned. -/
def State.spawned : State := State.beforeSpawn.onSpawn 0 [] 7

theorem reachable_beforeSpawn : lts.Reachable .init .beforeSpawn := by
  have h : LTS.exec step .init
      [.openpty (some "/dev/pts/1"), .handOff 0, .recv, .firstFrame none] =
        some State.beforeSpawn := rfl
  exact (LTS.run_of_exec h).reachable

/-- A client that closes its connection leaves the session waiting for the next one. -/
theorem survives_iff_close :
    SurvivesClients [⟨.spawned, .next none, State.spawned.clientGone⟩]
      State.spawned.clientGone := by
  have h₀ : lts.step .beforeSpawn (.spawn (some 7)) .spawned := rfl
  have h : lts.step .spawned (.next none) State.spawned.clientGone := rfl
  exact (survives_iff reachable_beforeSpawn h₀ (.single h)).2 (by simp [ClientFault])

/-- A client that disconnects inside a frame takes the session down: the task returns an error and
the shell is hung up, and no cause to end has occurred. -/
theorem not_survives_bytesRemaining :
    ∃ s tr, lts.Reachable .init .beforeSpawn ∧
      lts.step .beforeSpawn (.spawn (some 7)) .spawned ∧ lts.Run .spawned tr s ∧
      tr.map Move.lbl = [.next (some (.error .bytesRemaining))] ∧
      s.phase = .ended (.err (.clientRead .bytesRemaining)) ∧ s.hup = true ∧
      ¬ SurvivesClients tr s := by
  let s := State.spawned.finish (.err (.clientRead .bytesRemaining))
  refine ⟨s, [⟨.spawned, .next (some (.error .bytesRemaining)), s⟩], reachable_beforeSpawn, rfl,
    .single rfl, rfl, rfl, rfl, ?_⟩
  intro hv
  obtain ⟨m, hm, hc⟩ := hv.ended (.inl ⟨_, rfl⟩)
  obtain rfl := List.mem_singleton.1 hm
  exact hc

end Server

end Gritty
