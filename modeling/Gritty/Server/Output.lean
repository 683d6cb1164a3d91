import Gritty.Server.Step

/-!
# From the shell to the client

When the shell exits, its last output may still be readable on the PTY master.  The branch of the
relay loop that reads the PTY goes on until EOF, but the branch that reaps the child sends the
`Exit` frame at once.  So the output is complete exactly when the child is not reaped while bytes
are readable.

## Main definitions

* `StaysAttached` : the first client is neither lost nor displaced until the task ends.
* `PtyContract` : the master delivers all that was written before it reports the end.
* `UndrainedExit` : the child is reaped while bytes are readable.
* `Flow` : what the shell wrote was sent, is on its way, or is readable.

## Main results

* `Flow.step` : what one step does with the bytes.
* `exiting_step` : once the relay loop is left, only the `Exit` frame is sent.
* `sentData_eq_written_iff` : at the `Exit` frame the client has all the output exactly when there
  was no undrained exit.
-/

namespace Gritty

namespace Server

/-- The client that the task serves in a phase. -/
def Phase.client? : Phase → Option Conn
  | .readEnv framed | .spawning framed _ | .relay framed | .writable framed _ | .sendPong framed
  | .sendData framed _ | .sendExit framed _ => some framed
  | .openpty | .recvFirst | .waiting | .sendDetached _ _ | .ended _ => none

/-- The phases before the first client. -/
def Phase.BeforeClient (p : Phase) : Prop := p = .openpty ∨ p = .recvFirst

instance (p : Phase) : Decidable p.BeforeClient := inferInstanceAs (Decidable (_ ∨ _))

/-- The phases before the relay loop is left. -/
def Phase.Open : Phase → Prop
  | .sendExit _ _ | .ended _ => False
  | _ => True

/-- `c` is the first client, and it stays attached until the task ends. -/
def StaysAttached (c : Conn) (m : Move State Event) : Prop :=
  m.dst.phase.client? = some c ∨ m.dst.phase.BeforeClient ∨ ∃ o, m.dst.phase = .ended o

/-- The relay loop is left: the `Exit` frame is due to `c`, or the task ended. -/
def State.Exiting (s : State) (c : Conn) : Prop :=
  (∃ code, s.phase = .sendExit c code) ∨ ∃ o, s.phase = .ended o

/-- No process writes to the terminal any more. -/
def State.Closed (s : State) : Prop := s.child ≠ .running ∨ s.slaveOpen = false

/-- What the PTY promises: EOF and EIO are reported only after the last byte was read. -/
def PtyContract (m : Move State Event) : Prop :=
  m.lbl = .read .eof ∨ m.lbl = .read .eio → m.src.Closed ∧ m.src.output = []

/-- The shell is reaped while its output is still readable. -/
def UndrainedExit (m : Move State Event) : Prop :=
  (∃ framed, m.src.phase = .relay framed) ∧ m.lbl = .wait true ∧ m.src.output ≠ []

instance (p : Phase) : Decidable (∃ o, p = .ended o) :=
  match p with
  | .ended o => isTrue ⟨o, rfl⟩
  | .openpty | .recvFirst | .readEnv _ | .spawning _ _ | .waiting | .relay _ | .writable _ _
  | .sendPong _ | .sendData _ _ | .sendDetached _ _ | .sendExit _ _ => isFalse (by simp)

instance (p : Phase) : Decidable (∃ framed, p = .relay framed) :=
  match p with
  | .relay framed => isTrue ⟨framed, rfl⟩
  | .openpty | .recvFirst | .readEnv _ | .spawning _ _ | .waiting | .writable _ _ | .sendPong _
  | .sendData _ _ | .sendDetached _ _ | .sendExit _ _ | .ended _ => isFalse (by simp)

instance (c : Conn) : DecidablePred (StaysAttached c) := fun m =>
  inferInstanceAs (Decidable (_ = _ ∨ Phase.BeforeClient _ ∨ ∃ o, m.dst.phase = .ended o))

instance (s : State) : Decidable s.Closed := inferInstanceAs (Decidable (_ ∨ _))

instance : DecidablePred PtyContract := fun _ => inferInstanceAs (Decidable (_ ∨ _ → _ ∧ _))

instance : DecidablePred UndrainedExit := fun m =>
  inferInstanceAs (Decidable ((∃ framed, m.src.phase = .relay framed) ∧ _ ∧ _))

/-- The bytes that a move writes to the terminal. -/
def writtenOf (m : Move State Event) : List UInt8 :=
  match m.lbl with
  | .output bytes => bytes
  | _ => []

/-- All that the shell wrote. -/
def written (tr : List (Move State Event)) : List UInt8 := tr.flatMap writtenOf

/-- The bytes that a frame brings to the client `c`. -/
def dataTo (c : Conn) : Conn × Frame → List UInt8
  | (framed, .data data) => if framed = c then data else []
  | _ => []

/-- The bytes sent to the client `c` in `Data` frames. -/
def State.sentData (s : State) (c : Conn) : List UInt8 := s.sent.flatMap (dataTo c)

/-- The bytes read from the PTY whose send is pending. -/
def State.inFlight (s : State) : List UInt8 :=
  match s.phase with
  | .sendData _ chunk => chunk
  | _ => []

variable {s s' : State} {e : Event} {tr : List (Move State Event)} {c : Conn}

/-- Where the shell's output is.  While the task relays, each byte is sent, in flight or readable;
once the relay loop is left, what is readable is lost. -/
inductive Flow (c : Conn) (tr : List (Move State Event)) (s : State) : Prop
  | relaying : s.phase.Open → (s.phase.client? = some c ∨ s.phase.BeforeClient) →
      written tr = s.sentData c ++ s.inFlight ++ s.output →
      (∀ code, (c, .exit code) ∉ s.sent) → (∀ m ∈ tr, ¬ UndrainedExit m) → Flow c tr s
  | exiting : s.Exiting c → s.Closed → written tr = s.sentData c ++ s.output →
      (s.output = [] ↔ ∀ m ∈ tr, ¬ UndrainedExit m) → Flow c tr s
  | lost : (∃ o, s.phase = .ended o) → (∀ code, (c, .exit code) ∉ s.sent) → Flow c tr s

theorem written_append_single (m : Move State Event) :
    written (tr ++ [m]) = written tr ++ writtenOf m := by
  simp [written]

theorem sentData_write_data {framed : Conn} {chunk : List UInt8} :
    (s.write framed (.data chunk) true).sentData framed = s.sentData framed ++ chunk := by
  simp [State.sentData, State.write, dataTo]

theorem sentData_write {framed : Conn} {f : Frame} {ok : Bool} (hf : ∀ d, f ≠ .data d) :
    (s.write framed f ok).sentData c = s.sentData c := by
  have hd : dataTo c (framed, f) = [] := by
    cases f <;> simp_all [dataTo]
  cases ok <;> simp [State.sentData, State.write, hd]

theorem mem_sent_of_write {framed : Conn} {f : Frame} {ok : Bool} {code : Int32}
    (hf : ∀ n, f ≠ .exit n) (h : (c, .exit code) ∈ (s.write framed f ok).sent) :
    (c, .exit code) ∈ s.sent := by
  cases ok
  · exact h
  · rcases List.mem_append.1 h with h | h
    · exact h
    · exact absurd (congrArg Prod.snd (List.mem_singleton.1 h)).symm (hf code)

theorem Flow.relaying_step (hw : written tr = s.sentData c ++ s.inFlight ++ s.output)
    (hu : ∀ m ∈ tr, ¬ UndrainedExit m) (he : ¬ UndrainedExit ⟨s, e, s'⟩) (hp : s'.phase.Open)
    (hc : s'.phase.client? = some c ∨ s'.phase.BeforeClient)
    (hb : s.sentData c ++ s.inFlight ++ s.output ++ writtenOf ⟨s, e, s'⟩ =
      s'.sentData c ++ s'.inFlight ++ s'.output)
    (hx : ∀ code, (c, .exit code) ∉ s'.sent) : Flow c (tr ++ [⟨s, e, s'⟩]) s' := by
  refine .relaying hp hc ?_ hx ?_
  · rw [written_append_single, hw, hb]
  · intro m hm
    rcases List.mem_append.1 hm with hm | hm
    · exact hu m hm
    · obtain rfl := List.mem_singleton.1 hm
      exact he

/-- Once the relay loop is left, the world moves, the task is aborted, or it sends the `Exit`
frame. -/
theorem State.Exiting.cases (hs : s.Exiting c) (h : Step s e s') :
    e.World ∨ (e = .abort ∧ s' = s.finish .aborted) ∨
      ∃ code ok, e = .sent ok ∧ s' = (s.write c (.exit code) ok).finish .ok := by
  rcases hs with ⟨code, hs⟩ | ⟨o, hs⟩
  · cases h with
    | handOff | handOffLost | dropSenders | tick | output | hangup | exit => exact .inl trivial
    | abort => exact .inr (.inl ⟨rfl, rfl⟩)
    | exitSent hp =>
      rw [hp] at hs
      obtain ⟨rfl, rfl⟩ := Phase.sendExit.inj hs
      exact .inr (.inr ⟨_, _, rfl, rfl⟩)
    | _ => simp_all
  · exact .inl (world_of_ended h hs)

theorem world_closed (h : Step s e s') (he : e.World) (hcl : s.Closed) :
    s'.Closed ∧ s'.output = s.output ∧ writtenOf ⟨s, e, s'⟩ = [] := by
  cases h with
  | handOff | handOffLost | dropSenders | tick => exact ⟨hcl, rfl, rfl⟩
  | hangup => exact ⟨.inr rfl, rfl, rfl⟩
  | exit => exact ⟨.inl (by simp), rfl, rfl⟩
  | output hc ho => exact absurd hcl (by simp [State.Closed, hc, ho])
  | _ => exact absurd he not_false

theorem exiting_step (h : Step s e s') (hs : s.Exiting c) (hcl : s.Closed) :
    s'.Exiting c ∧ s'.Closed ∧ s'.output = s.output ∧ s'.sentData c = s.sentData c ∧
      writtenOf ⟨s, e, s'⟩ = [] ∧ ¬ UndrainedExit ⟨s, e, s'⟩ := by
  have hu : ¬ UndrainedExit ⟨s, e, s'⟩ := by
    rintro ⟨⟨framed, hp⟩, -⟩
    rcases hs with ⟨code, hs⟩ | ⟨o, hs⟩ <;> simp [hs] at hp
  rcases hs.cases h with he | ⟨rfl, rfl⟩ | ⟨code, ok, rfl, rfl⟩
  · obtain ⟨hp, -, -, hsent, -⟩ := world_frame h he
    obtain ⟨hcl', hout, hwr⟩ := world_closed h he hcl
    refine ⟨?_, hcl', hout, ?_, hwr, hu⟩
    · unfold State.Exiting
      rwa [hp]
    · unfold State.sentData
      rw [hsent]
  · exact ⟨.inr ⟨_, rfl⟩, hcl, rfl, rfl, rfl, hu⟩
  · exact ⟨.inr ⟨_, rfl⟩, hcl, rfl, sentData_write (by simp), rfl, hu⟩

theorem open_onNext {framed : Conn} {r : NextFrame} (hs : s.phase = .relay framed)
    (hr : ∀ e, r ≠ some (.error e)) :
    (s.onNext framed r).phase.Open ∧ (s.onNext framed r).sent = s.sent ∧
      (s.onNext framed r).inFlight = [] ∧ (s.onNext framed r).output = s.output := by
  have hopen : s.phase.Open := by simp [hs, Phase.Open]
  have hfl : s.inFlight = [] := by simp [State.inFlight, hs]
  rcases r with _ | e | f
  · exact ⟨trivial, rfl, rfl, rfl⟩
  · exact absurd rfl (hr e)
  · cases f with
    | data | ping | exit => exact ⟨trivial, rfl, rfl, rfl⟩
    -- a new window size, and the control frames that the loop ignores
    | _ => exact ⟨hopen, rfl, hfl, rfl⟩

theorem forall_not_undrainedExit (hu : ∀ m ∈ tr, ¬ UndrainedExit m) (m₀ : Move State Event) :
    (∀ m ∈ tr ++ [m₀], ¬ UndrainedExit m) ↔ ¬ UndrainedExit m₀ := by
  simp only [List.mem_append, List.mem_singleton, or_imp, forall_and, forall_eq]
  exact ⟨fun h => h.2, fun h => ⟨hu, h⟩⟩

theorem not_undrainedExit (he : e ≠ .wait true) : ¬ UndrainedExit ⟨s, e, s'⟩ :=
  fun h => he h.2.1

theorem StaysAttached.of_open (ha : StaysAttached c ⟨s, e, s'⟩) (ho : s'.phase.Open) :
    s'.phase.client? = some c ∨ s'.phase.BeforeClient := by
  rcases ha with ha | ha | ⟨o, ha⟩
  · exact .inl ha
  · exact .inr ha
  · rw [ha] at ho
    exact ho.elim

theorem Flow.of_shellExited {framed : Conn} {code : Int32} (hp : s.phase = .relay framed)
    (hc : s.phase.client? = some c ∨ s.phase.BeforeClient)
    (hw : written tr = s.sentData c ++ s.inFlight ++ s.output)
    (hu : ∀ m ∈ tr, ¬ UndrainedExit m) (hcl : s.Closed)
    (hwr : writtenOf ⟨s, e, s.shellExited framed code⟩ = [])
    (hd : s.output = [] ↔ ¬ UndrainedExit ⟨s, e, s.shellExited framed code⟩) :
    Flow c (tr ++ [⟨s, e, s.shellExited framed code⟩]) (s.shellExited framed code) := by
  obtain rfl : framed = c := by simpa [hp, Phase.client?, Phase.BeforeClient] using hc
  have hfl : s.inFlight = [] := by simp [State.inFlight, hp]
  refine .exiting (.inl ⟨_, rfl⟩) hcl ?_ ?_
  · show _ = s.sentData framed ++ s.output
    rw [written_append_single, hw, hfl, hwr, List.append_nil, List.append_nil]
  · rw [forall_not_undrainedExit hu]
    exact hd

theorem open_step (h : Step s e s') (hs : s.phase.Open)
    (hc : s.phase.client? = some c ∨ s.phase.BeforeClient)
    (hw : written tr = s.sentData c ++ s.inFlight ++ s.output)
    (hx : ∀ code, (c, .exit code) ∉ s.sent) (hu : ∀ m ∈ tr, ¬ UndrainedExit m)
    (ha : StaysAttached c ⟨s, e, s'⟩) (hpty : PtyContract ⟨s, e, s'⟩) :
    Flow c (tr ++ [⟨s, e, s'⟩]) s' := by
  have hframe : ∀ e s', StaysAttached c ⟨s, e, s'⟩ → e ≠ .wait true → s'.phase.Open →
      s.sentData c ++ s.inFlight ++ s.output ++ writtenOf ⟨s, e, s'⟩ =
        s'.sentData c ++ s'.inFlight ++ s'.output →
      (∀ code, (c, .exit code) ∉ s'.sent) → Flow c (tr ++ [⟨s, e, s'⟩]) s' := by
    intro e s' ha he ho hb hx
    exact .relaying_step hw hu (not_undrainedExit he) ho (ha.of_open ho) hb hx
  cases h with
  -- the world: only `output` adds to what is written, and to what is readable
  | handOff | dropSenders | tick | hangup | exit =>
    exact hframe _ _ ha (by simp) hs (List.append_nil _) hx
  | output => exact hframe _ _ ha (by simp) hs (List.append_assoc _ _ _) hx
  -- the task ends without an `Exit` frame
  | abort | openptyErr | closedFirst | spawnErr | closed | exitIdle | waitErr | readErr | writeErr
  | dataFailed => exact .lost ⟨_, rfl⟩ hx
  | handOffLost hp | exitSent hp =>
    rw [hp] at hs
    exact hs.elim
  -- a takeover detaches the client
  | detachedSent hp =>
    rw [hp] at hc
    rcases hc with hc | hc | hc <;> cases hc
  | takeover => simp [StaysAttached, Phase.client?, Phase.BeforeClient] at ha
  | openpty hp | recvFirst hp | firstFrame hp | spawn hp | write hp | writeBlock hp | adopt hp =>
    refine hframe _ _ ha (by simp) trivial ?_ hx
    simp [State.inFlight, hp, writtenOf, State.sentData, State.onSpawn, State.setAttached]
  | readBlock hp | noTakeover hp =>
    refine hframe _ _ ha (by simp) hs ?_ hx
    simp [writtenOf]
  -- a chunk moves from readable to in flight, and from in flight to sent
  | read hp =>
    refine hframe _ _ ha (by simp) trivial ?_ hx
    simp [State.inFlight, hp, writtenOf, State.sentData]
  | @pongSent framed ok hp =>
    have hfl : s.inFlight = [] := by simp [State.inFlight, hp]
    refine hframe _ _ ha (by simp) trivial ?_ fun code hm =>
      hx code (mem_sent_of_write (f := .pong) (by simp) hm)
    show s.sentData c ++ s.inFlight ++ s.output ++ [] =
      (s.write framed .pong ok).sentData c ++ [] ++ s.output
    rw [sentData_write (by simp), hfl, List.append_nil]
  | @dataSent framed chunk hp =>
    obtain rfl : framed = c := by simpa [hp, Phase.client?, Phase.BeforeClient] using hc
    have hfl : s.inFlight = chunk := by simp [State.inFlight, hp]
    refine hframe _ _ ha (by simp) trivial ?_ fun code hm =>
      hx code (@mem_sent_of_write s framed framed (.data chunk) true code (by simp) hm)
    show s.sentData framed ++ s.inFlight ++ s.output ++ [] =
      (s.write framed (.data chunk) true).sentData framed ++ [] ++ s.output
    rw [sentData_write_data, hfl, List.append_nil, List.append_nil]
  | @next framed r hp =>
    by_cases hr : ∃ e, r = some (.error e)
    · obtain ⟨e, rfl⟩ := hr
      exact .lost ⟨_, rfl⟩ hx
    · obtain ⟨hop, hsent, hfl, hout⟩ := open_onNext hp fun e he => hr ⟨e, he⟩
      have hfl' : s.inFlight = [] := by simp [State.inFlight, hp]
      refine hframe _ _ ha (by simp) hop ?_ (hsent ▸ hx)
      simp [State.sentData, hsent, hfl, hfl', hout, writtenOf]
  | eof hp hr =>
    -- EOF: nothing is readable and the terminal is closed
    obtain ⟨hcl, hout⟩ := hpty (by simpa using hr)
    exact .of_shellExited hp hc hw hu hcl rfl (iff_of_true hout (not_undrainedExit (by simp)))
  | exitRelay hp hch =>
    -- what is readable now stays unread
    have hcl : s.Closed := .inl (by simp [hch])
    exact .of_shellExited hp hc hw hu hcl rfl (by simp [UndrainedExit, hp])

theorem Flow.step (hi : Flow c tr s) (h : Step s e s') (hc : StaysAttached c ⟨s, e, s'⟩)
    (hp : PtyContract ⟨s, e, s'⟩) : Flow c (tr ++ [⟨s, e, s'⟩]) s' := by
  cases hi with
  | relaying hs hcl hw hx hu => exact open_step h hs hcl hw hx hu hc hp
  | exiting hs hcl hw hu =>
    obtain ⟨hs', hcl', ho, hd, hwr, hn⟩ := exiting_step h hs hcl
    refine .exiting hs' hcl' ?_ ?_
    · rw [written_append_single, hwr, List.append_nil, hw, ho, hd]
    · rw [ho, hu]
      simp only [List.mem_append, List.mem_singleton, or_imp, forall_and, forall_eq]
      exact ⟨fun h => ⟨h, hn⟩, fun h => h.1⟩
  | lost he hx =>
    obtain ⟨o, he⟩ := he
    obtain ⟨hp', hsent⟩ := ended_step h he
    exact .lost ⟨o, hp'⟩ (hsent ▸ hx)

/-- **The output is complete at the `Exit` frame exactly when the child is not reaped early.**  The
first client stays attached and the PTY keeps its promise.  When the `Exit` frame is written, the
`Data` frames sent to the client carry all that the shell wrote, in order, if and only if the child
was not reaped while output was readable. -/
theorem sentData_eq_written_iff (hr : lts.Run .init tr s)
    (hc : ∀ m ∈ tr, StaysAttached c m) (hp : ∀ m ∈ tr, PtyContract m)
    (hx : ∃ code, (c, .exit code) ∈ s.sent) :
    s.sentData c = written tr ↔ ∀ m ∈ tr, ¬ UndrainedExit m := by
  have hi : Flow c tr s := by
    refine hr.invariant (P := fun m => StaysAttached c m ∧ PtyContract m)
      (fun m hm => ⟨hc m hm, hp m hm⟩) ?_ fun tr s e s' hi hm hst => ?_
    · exact .relaying trivial (.inr (.inl rfl)) rfl (by simp [State.init]) (by simp)
    · exact hi.step (step_cases hst) hm.1 hm.2
  obtain ⟨code, hx⟩ := hx
  cases hi with
  | relaying _ _ _ hn => exact absurd hx (hn code)
  | exiting _ _ hw hu => rw [hw, ← hu, List.self_eq_append_right]
  | lost _ hn => exact absurd hx (hn code)

/-- The shell writes two bytes and exits; both are read before the child is reaped. -/
def drainedLabels : List Event :=
  [.openpty (some "/dev/pts/1"), .handOff 0, .recv, .firstFrame none, .spawn (some 7),
    .output [104, 105], .exit (.code 3),
    .read (.bytes 1), .sent true, .read (.bytes 1), .sent true, .wait true, .sent true]

/-- The client has the two bytes when it gets the `Exit` frame. -/
theorem sentData_eq_written_drained :
    ∃ s, LTS.exec step .init drainedLabels = some s ∧
      (0, .exit 3) ∈ s.sent ∧
      s.sentData 0 = written (LTS.trace step .init drainedLabels) := by
  have h : ∃ s, LTS.exec step .init drainedLabels = some s ∧
      (0, .exit 3) ∈ s.sent := ⟨_, rfl, by decide⟩
  obtain ⟨s, h, hx⟩ := h
  exact ⟨s, h, hx, (sentData_eq_written_iff (LTS.run_of_exec h) (by decide) (by decide) ⟨3, hx⟩).2
    (by decide)⟩

/-- The child is reaped while the two bytes are readable. -/
def undrainedLabels : List Event :=
  [.openpty (some "/dev/pts/1"), .handOff 0, .recv, .firstFrame none, .spawn (some 7),
    .output [104, 105], .exit (.code 3),
    .wait true, .sent true]

/-- The client stays attached, every send succeeds, and it gets the `Exit` frame without the last
output. -/
theorem sentData_ne_written_undrained :
    ∃ tr s, lts.Run .init tr s ∧ tr.map Move.lbl = undrainedLabels ∧
      (∀ m ∈ tr, StaysAttached 0 m) ∧ (∀ m ∈ tr, PtyContract m) ∧ (0, .exit 3) ∈ s.sent ∧
      s.sentData 0 = [] ∧ written tr = [104, 105] := by
  have h : ∃ s, LTS.exec step .init undrainedLabels = some s ∧
      (0, .exit 3) ∈ s.sent ∧ s.sentData 0 = [] := ⟨_, rfl, by decide, rfl⟩
  obtain ⟨s, h, hx, hs⟩ := h
  exact ⟨_, s, LTS.run_of_exec h, rfl, by decide, by decide, hx, hs, rfl⟩

end Server

end Gritty
