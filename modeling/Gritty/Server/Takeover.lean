import Gritty.Server.Connections
import Gritty.Server.Output
import Gritty.Stream.Turns

/-!
# Shell output across takeovers and reconnects

The client changes in the same loop that reads the PTY.  Each chunk read goes to the client that is
current at that moment, in the order of the reads, whatever clients come and go; a chunk is missing
only when its send did not succeed, and then the task has ended.

## Main definitions

* `chunksRead`, `chunksLost` : the chunks of a run, and those whose send failed.
* `State.chunksSent` : the chunks written to connections.
* `RelayedOnce` : each chunk is sent once, to the client that is current.

## Main results

* `chunksRead_eq` : each chunk read was sent, was lost or is pending.
* `written_eq_read` : the reads take what the shell wrote, in order.
* `chunksSent_inTurn` : a chunk is sent to the client that was taken from the channel last.
* `not_held_of_displaced` : the client that a takeover displaces is dropped.
* `relayedOnce` : all of this, in every run in which each connection is pushed once.
-/

namespace Gritty

namespace Server

/-- The chunk that a move reads from the PTY, with the client that is current then. -/
def chunkReadOf (m : Move State Event) : List (Conn × List UInt8) :=
  match m.src.phase, m.lbl with
  | .relay framed, .read (.bytes n) => [(framed, m.src.output.take n)]
  | _, _ => []

/-- The chunks read from the PTY, in order. -/
def chunksRead (tr : List (Move State Event)) : List (Conn × List UInt8) := tr.flatMap chunkReadOf

/-- The chunk whose send a move fails, or cuts short by ending the task. -/
def chunkLostOf (m : Move State Event) : List (Conn × List UInt8) :=
  match m.src.phase, m.lbl with
  | .sendData framed chunk, .sent false => [(framed, chunk)]
  | .sendData framed chunk, .abort => [(framed, chunk)]
  | _, _ => []

/-- The chunks whose sends failed or were cut short, in order. -/
def chunksLost (tr : List (Move State Event)) : List (Conn × List UInt8) := tr.flatMap chunkLostOf

/-- The payload of a `Data` frame. -/
def chunkOf : Conn × Frame → List (Conn × List UInt8)
  | (framed, .data data) => [(framed, data)]
  | _ => []

/-- The payloads of the `Data` frames written, in order. -/
def State.chunksSent (s : State) : List (Conn × List UInt8) := s.sent.flatMap chunkOf

/-- The chunk whose send is pending. -/
def State.chunkPending (s : State) : List (Conn × List UInt8) :=
  match s.phase with
  | .sendData framed chunk => [(framed, chunk)]
  | _ => []

/-- The output of the shell is relayed exactly once. -/
structure RelayedOnce (tr : List (Move State Event)) (s : State) : Prop where
  /-- the reads take all that the shell wrote, in order -/
  read : written tr = (chunksRead tr).flatMap Prod.snd ++ s.output
  /-- each chunk read is sent once, in order, to the client that was current when it was read -/
  sent : chunksRead tr = s.chunksSent ++ chunksLost tr ++ s.chunkPending
  /-- after a chunk whose send failed nothing is read -/
  lost : ∀ tr₁ m tr₂, tr = tr₁ ++ m :: tr₂ → chunkLostOf m ≠ [] → chunksRead tr₂ = []
  /-- the clients take turns: a chunk goes to the one adopted last -/
  turns : InTurn (adopted tr) s.chunksSent
  /-- nothing is written to a client that was displaced -/
  displaced : ∀ tr₁ m tr₂ framed newFramed, tr = tr₁ ++ m :: tr₂ →
    m.src.phase = .sendDetached framed newFramed → m.dst.phase = .relay newFramed →
    ∀ p ∈ tr₂.flatMap framesOf, p.1 ≠ framed
  /-- what the clients got, in the order of their adoption, is what was read -/
  concat : (adopted tr).flatMap s.sentData ++ (chunksLost tr ++ s.chunkPending).flatMap Prod.snd =
    (chunksRead tr).flatMap Prod.snd

variable {s s' : State} {e : Event} {tr : List (Move State Event)}

theorem chunkPending_onNext {framed : Conn} {r : NextFrame} (hp : s.phase = .relay framed) :
    (s.onNext framed r).chunkPending = [] := by
  have hs : s.chunkPending = [] := by simp [State.chunkPending, hp]
  rcases r with _ | e | f
  · rfl
  · rfl
  · cases f with
    | data | ping | exit => rfl
    | _ => exact hs

theorem chunk_step (h : Step s e s') :
    s.chunkPending ++ chunkReadOf ⟨s, e, s'⟩ =
      (framesOf ⟨s, e, s'⟩).flatMap chunkOf ++ chunkLostOf ⟨s, e, s'⟩ ++ s'.chunkPending := by
  cases h with
  | handOff | handOffLost | dropSenders | tick | output | hangup | exit =>
    simp [chunkReadOf, framesOf, chunkLostOf, State.chunkPending]
  | abort =>
    cases hp : s.phase <;>
      simp [State.chunkPending, hp, chunkReadOf, framesOf, chunkLostOf, State.finish]
  | next hp =>
    rw [chunkPending_onNext hp]
    simp [chunkReadOf, framesOf, chunkLostOf, hp, State.chunkPending]
  | waitErr hp =>
    rcases hp with hp | ⟨framed, hp⟩ <;>
      simp [State.chunkPending, hp, chunkReadOf, framesOf, chunkLostOf, State.finish]
  | openpty hp | openptyErr hp | recvFirst hp | closedFirst hp | firstFrame hp | spawn hp
  | spawnErr hp | adopt hp | closed hp | exitIdle hp | read hp | readBlock hp
  | readErr hp | takeover hp | noTakeover hp | exitRelay hp | write hp | writeBlock hp
  | writeErr hp | dataFailed hp =>
    simp [State.chunkPending, hp, chunkReadOf, framesOf, chunkLostOf, State.finish, State.onSpawn,
      State.shellExited]
  | eof hp hr =>
    rcases hr with rfl | rfl <;>
      simp [State.chunkPending, hp, chunkReadOf, framesOf, chunkLostOf, State.shellExited]
  | @pongSent framed ok hp | @detachedSent framed newFramed ok hp | @exitSent framed code ok hp =>
    cases ok <;> simp [State.chunkPending, hp, chunkReadOf, framesOf, chunkLostOf, Phase.send?,
      chunkOf, State.finish, State.write]
  | dataSent hp =>
    simp [State.chunkPending, hp, chunkReadOf, framesOf, chunkLostOf, Phase.send?, chunkOf]

theorem chunksSent_step (h : Step s e s') :
    s'.chunksSent = s.chunksSent ++ (framesOf ⟨s, e, s'⟩).flatMap chunkOf := by
  rw [State.chunksSent, sent_step h, List.flatMap_append]
  rfl

theorem output_onNext {framed : Conn} {r : NextFrame} : (s.onNext framed r).output = s.output := by
  unfold State.onNext
  split <;> rfl

theorem output_step (h : Step s e s') : s.output ++ writtenOf ⟨s, e, s'⟩ =
    (chunkReadOf ⟨s, e, s'⟩).flatMap Prod.snd ++ s'.output := by
  cases h with
  | next => simp [writtenOf, chunkReadOf, output_onNext]
  | read hp => simp [writtenOf, chunkReadOf, hp]
  | eof hp hr => rcases hr with rfl | rfl <;> simp [writtenOf, chunkReadOf, State.shellExited]
  | output | handOff | handOffLost | dropSenders | tick | hangup | exit | abort | openpty
  | openptyErr | recvFirst | closedFirst | firstFrame | spawn | spawnErr | adopt | closed | exitIdle
  | waitErr | readBlock | readErr | takeover | noTakeover | exitRelay | write | writeBlock
  | writeErr | pongSent | dataSent | dataFailed | detachedSent | exitSent =>
    simp [writtenOf, chunkReadOf, State.finish, State.onSpawn, State.shellExited, State.setAttached,
      State.write]

theorem ended_of_chunkLost (h : Step s e s') (hl : chunkLostOf ⟨s, e, s'⟩ ≠ []) :
    ∃ o, s'.phase = .ended o := by
  cases h with
  | abort | dataFailed => exact ⟨_, rfl⟩
  | @pongSent framed ok hp | @detachedSent framed newFramed ok hp | @exitSent framed code ok hp =>
    simp [chunkLostOf, hp] at hl
  | dataSent hp => simp [chunkLostOf] at hl
  | _ => simp [chunkLostOf] at hl

theorem chunk_ended (s' : State) (e : Event) {o : Outcome} (hs : s.phase = .ended o) :
    chunkReadOf ⟨s, e, s'⟩ = [] ∧ (framesOf ⟨s, e, s'⟩).flatMap chunkOf = [] ∧
      chunkLostOf ⟨s, e, s'⟩ = [] := by
  refine ⟨by rw [chunkReadOf, hs], ?_, by rw [chunkLostOf, hs]⟩
  have hf : framesOf ⟨s, e, s'⟩ = [] := by
    unfold framesOf
    split
    · rw [hs]
      rfl
    · rfl
  rw [hf]
  rfl

theorem chunksRead_of_ended (hr : lts.Run s tr s') {o : Outcome} (hs : s.phase = .ended o) :
    chunksRead tr = [] := by
  have h : s'.phase = .ended o ∧ chunksRead tr = [] := by
    refine hr.invariant (P := fun _ => True)
      (I := fun tr s => s.phase = .ended o ∧ chunksRead tr = []) (fun _ _ => trivial) ⟨hs, rfl⟩ ?_
    intro tr s e s' ⟨hs, hi⟩ _ hst
    have h := step_cases hst
    refine ⟨(ended_step h hs).1, ?_⟩
    rw [chunksRead, List.flatMap_append, List.flatMap_singleton, (chunk_ended _ _ hs).1,
      List.append_nil]
    exact hi
  exact h.2

/-- Each chunk read was sent, was lost or is pending. -/
theorem chunksRead_eq (hr : lts.Run .init tr s) :
    chunksRead tr = s.chunksSent ++ chunksLost tr ++ s.chunkPending := by
  have h : chunksRead tr = s.chunksSent ++ chunksLost tr ++ s.chunkPending ∧
      (chunksLost tr ≠ [] → ∃ o, s.phase = .ended o) := by
    refine hr.invariant (P := fun _ => True)
      (I := fun tr s => chunksRead tr = s.chunksSent ++ chunksLost tr ++ s.chunkPending ∧
        (chunksLost tr ≠ [] → ∃ o, s.phase = .ended o)) (fun _ _ => trivial)
      ⟨rfl, by simp [chunksLost]⟩ ?_
    intro tr s e s' ⟨hi, hl⟩ _ hst
    have h := step_cases hst
    have hread : chunksRead (tr ++ [⟨s, e, s'⟩]) = chunksRead tr ++ chunkReadOf ⟨s, e, s'⟩ := by
      simp [chunksRead]
    have hlost : chunksLost (tr ++ [⟨s, e, s'⟩]) = chunksLost tr ++ chunkLostOf ⟨s, e, s'⟩ := by
      simp [chunksLost]
    rw [hread, hlost, chunksSent_step h, hi]
    by_cases hn : chunksLost tr = []
    · -- nothing was lost so far
      rw [hn, List.append_nil, List.append_assoc, chunk_step h]
      refine ⟨by simp, fun hl' => ended_of_chunkLost h ?_⟩
      simpa [hn] using hl'
    · obtain ⟨o, ho⟩ := hl hn
      obtain ⟨hr, hf, hlo⟩ := chunk_ended s' e ho
      have hpend : s.chunkPending = [] ∧ s'.chunkPending = [] := by
        simp [State.chunkPending, ho, (ended_step h ho).1]
      rw [hr, hf, hlo, hpend.1, hpend.2]
      exact ⟨by simp, fun _ => ⟨o, (ended_step h ho).1⟩⟩
  exact h.1

/-- The reads take what the shell wrote, in order. -/
theorem written_eq_read (hr : lts.Run .init tr s) :
    written tr = (chunksRead tr).flatMap Prod.snd ++ s.output := by
  refine hr.invariant (P := fun _ => True)
    (I := fun tr s => written tr = (chunksRead tr).flatMap Prod.snd ++ s.output)
    (fun _ _ => trivial) rfl ?_
  intro tr s e s' hi _ hst
  have hread : chunksRead (tr ++ [⟨s, e, s'⟩]) = chunksRead tr ++ chunkReadOf ⟨s, e, s'⟩ := by
    simp [chunksRead]
  rw [written_append_single, hi, hread, List.flatMap_append, List.append_assoc, List.append_assoc,
    output_step (step_cases hst)]

theorem adoptedOf_cases (m : Move State Event) : adoptedOf m = [] ∨ ∃ c, adoptedOf m = [c] := by
  unfold adoptedOf
  split
  · cases m.src.queue <;> simp
  · exact .inl rfl

theorem chunkSent_cases (h : Step s e s') : (framesOf ⟨s, e, s'⟩).flatMap chunkOf = [] ∨
    ∃ c chunk, (framesOf ⟨s, e, s'⟩).flatMap chunkOf = [(c, chunk)] ∧ adoptedOf ⟨s, e, s'⟩ = [] ∧
      s.phase.holds.getLast? = some c := by
  cases h with
  | @pongSent framed ok hp | @detachedSent framed newFramed ok hp | @exitSent framed code ok hp =>
    cases ok <;> simp [framesOf, Phase.send?, hp, chunkOf]
  | @dataSent framed chunk hp =>
    exact .inr ⟨framed, chunk, by simp [framesOf, Phase.send?, hp, chunkOf], rfl,
      by simp [hp, Phase.holds]⟩
  | _ => exact .inl rfl

/-- A chunk is sent to the client adopted last. -/
theorem chunksSent_inTurn (hr : lts.Run .init tr s) : InTurn (adopted tr) s.chunksSent := by
  induction hr with
  | refl => exact .nil
  | @tail tr s s' e hr hst ih =>
    have h := step_cases hst
    rw [adopted_append_single, chunksSent_step h]
    rcases chunkSent_cases h with hn | ⟨c, chunk, hc, hno, hlast⟩
    · rw [hn, List.append_nil]
      rcases adoptedOf_cases ⟨s, e, s'⟩ with h₀ | ⟨c, h₁⟩
      · rw [h₀, List.append_nil]
        exact ih
      · rw [h₁]
        exact ih.turn c
    · rw [hc, hno, List.append_nil]
      exact ih.entry_of_getLast? (adopted_getLast? hr hlast) chunk

theorem sentData_eq_filter (c : Conn) :
    s.sentData c = (s.chunksSent.filter fun p => p.1 = c).flatMap Prod.snd := by
  unfold State.sentData State.chunksSent
  induction s.sent with
  | nil => rfl
  | cons p sent ih =>
    obtain ⟨framed, f⟩ := p
    rw [List.flatMap_cons, List.flatMap_cons, List.filter_append, List.flatMap_append, ih]
    cases f with
    | data d => by_cases hc : framed = c <;> simp [dataTo, chunkOf, hc]
    | _ => rfl

/-- The client that a takeover displaces is dropped. -/
theorem not_held_of_displaced {framed newFramed : Conn} (h : Step s e s') (hn : s.held.Nodup)
    (hs : s.phase = .sendDetached framed newFramed) (hs' : s'.phase = .relay newFramed) :
    framed ∈ s.held ∧ framed ∉ s'.held := by
  have hheld : s.held = framed :: newFramed :: s.queue := by simp [State.held, hs, Phase.holds]
  have hheld' : s'.held = newFramed :: s'.queue := by simp [State.held, hs', Phase.holds]
  have hq : s'.queue = s.queue := by
    cases h with
    | detachedSent => rfl
    | _ => simp_all [State.finish]
  rw [hheld] at hn ⊢
  rw [hheld', hq]
  exact ⟨List.mem_cons_self, (List.nodup_cons.1 hn).1⟩

/-- **Shell output is relayed exactly once.**  In every run, when each connection is pushed onto the
channel once: each chunk read from the PTY is sent once, to the client that was current when it was
read, in the order of the reads; what the clients got, in the order of their adoption, is what was
read, but for a chunk whose send is pending or did not succeed, after which nothing is read. -/
theorem relayedOnce (hr : lts.Run .init tr s) (hd : (handed tr).Nodup) : RelayedOnce tr s where
  read := written_eq_read hr
  sent := chunksRead_eq hr
  lost := by
    rintro tr₁ m tr₂ rfl hm
    obtain ⟨-, hst, hr₂⟩ := hr.cut_at
    obtain ⟨o, ho⟩ := ended_of_chunkLost (step_cases hst) hm
    exact chunksRead_of_ended hr₂ ho
  turns := chunksSent_inTurn hr
  displaced := by
    rintro tr₁ m tr₂ framed newFramed rfl hs hs'
    obtain ⟨hr₁, hst, -⟩ := hr.cut_at
    have hd₁ : (handed tr₁).Nodup := by
      refine hd.sublist ?_
      simp [handed]
    obtain ⟨hc, hc'⟩ := not_held_of_displaced (step_cases hst)
      (hd₁.sublist (held_sublist_handed hr₁)) hs hs'
    exact (out_of_dropped hr hd hc hc').2
  concat := by
    have hcat : (adopted tr).flatMap s.sentData = s.chunksSent.flatMap Prod.snd := by
      rw [← (chunksSent_inTurn hr).flatMap_filter (adopted_nodup hr hd), List.flatMap_assoc]
      exact List.flatMap_congr fun c _ => sentData_eq_filter c
    rw [hcat, chunksRead_eq hr, List.append_assoc]
    exact List.flatMap_append.symm

/-- The shell writes three bytes; the first client gets one, is displaced, and the second one gets
the next, until a send to it fails. -/
def takeoverLabels : List Event :=
  [.openpty (some "/dev/pts/1"), .handOff 0, .recv, .firstFrame none, .spawn (some 7),
    .output [97, 98, 99], .read (.bytes 1), .sent true, .handOff 1, .recv, .sent true,
    .read (.bytes 1), .sent true, .read (.bytes 1), .sent false]

/-- The first client has the first byte, the second client the second, and the third is lost. -/
theorem relayedOnce_takeover :
    ∃ s, LTS.exec step .init takeoverLabels = some s ∧
      RelayedOnce (LTS.trace step .init takeoverLabels) s ∧
      s.sentData 0 = [97] ∧ s.sentData 1 = [98] := by
  have h : ∃ s, LTS.exec step .init takeoverLabels = some s ∧ s.sentData 0 = [97] ∧
      s.sentData 1 = [98] := ⟨_, rfl, rfl, rfl⟩
  obtain ⟨s, h, h₀, h₁⟩ := h
  exact ⟨s, h, relayedOnce (LTS.run_of_exec h) (by decide), h₀, h₁⟩

end Server

end Gritty
