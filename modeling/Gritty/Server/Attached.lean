import Gritty.Server.Environment

/-!
# The attached flag

`SessionMetadata.attached` should tell whether the task serves a client: while the metadata is
published and the task has not noticed the end of the shell, the flag should be set exactly in the
relay loop, and there only as long as the task has not seen its client disconnect (`Truthful`).

The flag follows the control point in every run: a client from the channel sets it, a disconnect in
the relay loop clears it, a takeover leaves it set.  But the first client is also read before the
relay loop, for its `Env` frame, and what that read finds is dropped, a disconnect included.

## Main definitions

* `Phase.flag` : the flag as the control point has it.
* `client` : the client of a run, as far as the task has not seen it leave.
* `FirstPresent` : the read for the `Env` frame does not show that the client has left.

## Main results

* `attached_step`, `attached_eq` : the flag follows the control point.
* `client_eq` : the client of the relay loop was not seen to leave, unless it was the first one and
  the read for the `Env` frame had shown it.
* `truthful_iff` : the flag tells the truth in every state of a run exactly when the first client
  was not seen to leave before the relay loop.
-/

namespace Gritty

namespace Server

/-! ### The flag and the control point -/

/-- The flag that a listing shows, once the metadata is published. -/
def State.attached (s : State) : Option Bool := s.metadata.map SessionMetadata.attached

/-- The client of the relay loop; from the moment of a takeover, the new one. -/
def Phase.relays? : Phase → Option Conn
  | .relay framed | .writable framed _ | .sendPong framed | .sendData framed _
  | .sendDetached _ framed => some framed
  | .openpty | .recvFirst | .readEnv _ | .spawning _ _ | .waiting | .sendExit _ _ | .ended _ => none

/-- The task has noticed the end of the shell, or has ended. -/
def Phase.Late : Phase → Prop
  | .sendExit _ _ | .ended _ => True
  | .openpty | .recvFirst | .readEnv _ | .spawning _ _ | .waiting | .relay _ | .writable _ _
  | .sendPong _ | .sendData _ _ | .sendDetached _ _ => False

/-- The flag as the control point has it: not yet there, cleared or set. -/
def Phase.flag : Phase → Option Bool
  | .openpty | .recvFirst | .readEnv _ | .spawning _ _ => none
  | .waiting => some false
  | .relay _ | .writable _ _ | .sendPong _ | .sendData _ _ | .sendDetached _ _ => some true
  | .sendExit _ _ | .ended _ => none

variable {s s' : State} {e : Event} {tr : List (Move State Event)} {c : Conn}

theorem attached_setAttached (b : Bool) :
    (s.setAttached b).attached = s.attached.map fun _ => b := by
  simp [State.attached, State.setAttached, Function.comp_def]

theorem attached_onNext {framed : Conn} {r : NextFrame} (hp : s.phase = .relay framed)
    (hs : s.attached = s.phase.flag) (hl : ¬ (s.onNext framed r).phase.Late) :
    (s.onNext framed r).attached = (s.onNext framed r).phase.flag := by
  rw [hp] at hs
  have hgone : s.clientGone.attached = s.clientGone.phase.flag := by
    show (s.setAttached false).attached = some false
    rw [attached_setAttached, hs]
    rfl
  rcases r with _ | err | f
  · exact hgone
  · exact absurd trivial hl
  · cases f with
    | exit => exact hgone
    | data => exact hs
    | ping =>
      show (s.metadata.map _).map SessionMetadata.attached = some true
      rw [Option.map_map]
      exact hs
    | _ => exact hs.trans (congrArg Phase.flag hp.symm)

/-- **Each step keeps the flag in line with the control point.** -/
theorem attached_step (h : Step s e s') (hs : ¬ s.phase.Late → s.attached = s.phase.flag)
    (hl : ¬ s'.phase.Late) : s'.attached = s'.phase.flag := by
  cases h with
  | handOff | handOffLost | dropSenders | tick | output | hangup | exit | readBlock | noTakeover =>
    exact hs hl
  | abort | openptyErr | closedFirst | spawnErr | closed | exitIdle | waitErr | readErr | writeErr
  | dataFailed | exitSent | eof | exitRelay => exact absurd trivial hl
  | openpty hp | recvFirst hp | firstFrame hp | read hp | takeover hp | write hp | writeBlock hp
  | pongSent hp | dataSent hp | detachedSent hp =>
    rw [hp] at hs
    exact hs id
  | spawn => rfl
  | adopt hp =>
    rw [hp] at hs
    show (s.setAttached true).attached = some true
    rw [attached_setAttached, hs id]
    rfl
  | next hp => exact attached_onNext hp (hs (by simp [hp, Phase.Late])) hl

/-- **The flag follows the control point in every run.** -/
theorem attached_eq (hr : lts.Run .init tr s) (hl : ¬ s.phase.Late) :
    s.attached = s.phase.flag := by
  refine hr.reachable.invariant (I := fun s => ¬ s.phase.Late → s.attached = s.phase.flag)
    (fun _ => rfl) ?_ hl
  intro s e s' hi hst
  exact attached_step (step_cases hst) hi

/-- Once the metadata is published, the flag is set exactly in the relay loop. -/
theorem attached_iff_relays (hr : lts.Run .init tr s) {m : SessionMetadata}
    (hm : s.metadata = some m) (hl : ¬ s.phase.Late) :
    m.attached = true ↔ ∃ c, s.phase.relays? = some c := by
  have h := attached_eq hr hl
  rw [State.attached, hm] at h
  cases hp : s.phase <;> simp_all [Phase.flag, Phase.relays?, Phase.Late]

/-- **A takeover leaves the flag set.** -/
theorem attached_takeover {framed newFramed : Conn} (hr : lts.Run .init tr s)
    (hp : s.phase = .sendDetached framed newFramed) {ok : Bool} (h : lts.step s (.sent ok) s') :
    s.attached = some true ∧ s'.attached = some true ∧ s'.phase = .relay newFramed := by
  have hs : s.attached = some true := by
    rw [attached_eq hr (by simp [hp, Phase.Late]), hp]
    rfl
  cases step_cases h with
  | detachedSent hp' =>
    cases hp.symm.trans hp'
    exact ⟨hs, hs, rfl⟩
  | pongSent hp' | dataSent hp' | exitSent hp' => cases hp.symm.trans hp'
  | dataFailed hp' => cases hp.symm.trans hp'

/-! ### What the task sees of its client -/

/-- The read shows that the client left: the stream has ended, also inside a frame, the read has
failed, or an `Exit` frame has come. -/
def gone : NextFrame → Bool
  | none | some (.error .io) | some (.error .bytesRemaining) | some (.ok (.exit _)) => true
  | _ => false

/-- What a move reads shows that the client left. -/
def sawGone (m : Move State Event) : Bool :=
  match m.lbl with
  | .firstFrame (some r) => gone r
  | .next r => gone r
  | _ => false

/-- The client that the task holds and has not seen disconnect, after one more move. -/
def clientAfter (client : Option Conn) (m : Move State Event) : Option Conn :=
  (adoptedOf m).getLast?.or (if sawGone m then none else client)

/-- The client that the task holds and has not seen disconnect: the last one taken from the channel,
unless a read since then showed that it left. -/
def client (tr : List (Move State Event)) : Option Conn := tr.foldl clientAfter none

/-- The flag tells the truth: from the publication of the metadata on until the task notices the end
of the shell, it is set if and only if the task is in its relay loop with a client that it has not
seen disconnect. -/
def Truthful (tr : List (Move State Event)) (s : State) : Prop :=
  ∀ m, s.metadata = some m → ¬ s.phase.Late →
    (m.attached = true ↔ ∃ c, s.phase.relays? = some c ∧ client tr = some c)

/-- The read for the `Env` frame showed that the client left. -/
def FirstGone (tr : List (Move State Event)) : Prop := ∃ r, some r ∈ firstRead tr ∧ gone r = true

/-- When the shell was spawned, the read for the `Env` frame had not shown that the client left. -/
def FirstPresent (tr : List (Move State Event)) : Prop :=
  ∀ tr₁ m tr₂ pid, tr = tr₁ ++ m :: tr₂ → m.lbl = .spawn (some pid) → ¬ FirstGone tr₁

theorem client_append_single (tr : List (Move State Event)) (m : Move State Event) :
    client (tr ++ [m]) = clientAfter (client tr) m := by
  simp [client]

theorem firstGone_append {tr' : List (Move State Event)} :
    FirstGone (tr ++ tr') ↔ FirstGone tr ∨ FirstGone tr' := by
  simp [FirstGone, firstRead, or_and_right, exists_or]

theorem FirstPresent.of_append {tr' : List (Move State Event)} (h : FirstPresent (tr ++ tr')) :
    FirstPresent tr := by
  rintro tr₁ m tr₂ pid rfl
  exact h tr₁ m (tr₂ ++ tr') pid (by simp)

theorem sawGone_cases (h : sawGone ⟨s, e, s'⟩ = true) :
    (∃ r, e = .firstFrame r ∧ FirstGone [⟨s, e, s'⟩]) ∨ ∃ r, e = .next r ∧ gone r = true := by
  cases e with
  | firstFrame r =>
    cases r with
    | none => cases h
    | some r => exact .inl ⟨some r, rfl, r, by simp [firstRead, firstReadOf], h⟩
  | next r => exact .inr ⟨r, rfl, h⟩
  | _ => cases h

theorem holds_of_gone {framed : Conn} {r : NextFrame} (h : gone r = true) :
    (s.onNext framed r).phase.holds = [] := by
  rcases r with _ | err | f
  · rfl
  · rfl
  · cases f with
    | exit => rfl
    | _ => cases h

theorem step_of_spawning {vars : List (String × String)} (h : Step s e s')
    (hp : s.phase = .spawning c vars) :
    (s'.phase = .spawning c vars ∧ e.World) ∨ (∃ pid, e = .spawn (some pid)) ∨
      ∃ o, s'.phase = .ended o := by
  cases h with
  | handOff | dropSenders | tick | output | hangup | exit => exact .inl ⟨hp, trivial⟩
  | spawn => exact .inr (.inl ⟨_, rfl⟩)
  | abort | spawnErr => exact .inr (.inr ⟨_, rfl⟩)
  | _ => simp_all

theorem clientAfter_of_world (client : Option Conn) (he : e.World) :
    clientAfter client ⟨s, e, s'⟩ = client := by
  cases e with
  | handOff | dropSenders | tick | output | hangup | exit => rfl
  | _ => exact absurd he id

theorem step_to_spawning {vars : List (String × String)} (h : Step s e s')
    (hp : s'.phase = .spawning c vars) :
    (s.phase = .spawning c vars ∧ e.World) ∨ ∃ r, e = .firstFrame r ∧ s.phase = .readEnv c := by
  cases h with
  | handOff | dropSenders | tick | output | hangup | exit => exact .inl ⟨hp, trivial⟩
  | firstFrame hr =>
    obtain ⟨rfl, -⟩ := Phase.spawning.inj hp
    exact .inr ⟨_, rfl, hr⟩
  | next hr => exact absurd hp ((spawning_onNext hr).2.2 c vars)
  | handOffLost hr | readBlock hr | noTakeover hr => simp [hr] at hp
  | _ => cases hp

/-- **The client of the relay loop was not seen to leave**, unless the shell was spawned although
the read for the `Env` frame had shown it. -/
theorem client_eq (hr : lts.Run .init tr s) (hf : FirstPresent tr)
    (hc : s.phase.holds.getLast? = some c) :
    client tr = some c ∨ FirstGone tr ∧ ∃ vars, s.phase = .spawning c vars := by
  induction hr generalizing c with
  | refl => simp [State.init, Phase.holds] at hc
  | @tail tr s s' e hr hst ih =>
    have h := step_cases hst
    have hn : (adoptedOf ⟨s, e, s'⟩).getLast?.or s.phase.holds.getLast? = some c := by
      rcases newest_step h with hn | hn
      · simp [hn] at hc
      · exact hn ▸ hc
    rw [client_append_single, clientAfter]
    cases ha : (adoptedOf ⟨s, e, s'⟩).getLast? with
    | some c' =>
      rw [ha, Option.some_or] at hn
      exact .inl hn
    | none =>
      rw [ha, Option.none_or] at hn
      rw [Option.none_or]
      rcases ih hf.of_append hn with hcl | ⟨hg, vars, hp⟩
      · by_cases hsaw : sawGone ⟨s, e, s'⟩ = true
        · rcases sawGone_cases hsaw with ⟨r, rfl, hg⟩ | ⟨r, rfl, hg⟩
          · cases h with
            | firstFrame hp =>
              obtain rfl : _ = c := by simpa [hp, Phase.holds] using hn
              exact .inr ⟨firstGone_append.2 (.inr hg), _, rfl⟩
          · cases h with
            | next hp => simp [holds_of_gone hg] at hc
        · rw [if_neg hsaw]
          exact .inl hcl
      · rcases step_of_spawning h hp with ⟨hp', -⟩ | ⟨pid, rfl⟩ | ⟨o, ho⟩
        · exact .inr ⟨firstGone_append.2 (.inl hg), vars, hp'⟩
        · exact absurd hg (hf tr _ [] pid rfl rfl)
        · simp [ho, Phase.holds] at hc

/-- A client that the read for the `Env` frame showed to leave is not held when the shell is
spawned. -/
theorem client_eq_none {vars : List (String × String)} (hr : lts.Run .init tr s)
    (hp : s.phase = .spawning c vars) (hg : FirstGone tr) : client tr = none := by
  induction hr with
  | refl => cases hp
  | @tail tr s s' e hr hst ih =>
    rw [client_append_single]
    rcases step_to_spawning (step_cases hst) hp with ⟨hp', he⟩ | ⟨r, rfl, hp'⟩
    · have hfr : firstReadOf ⟨s, e, s'⟩ = [] := firstReadOf_eq_nil (by rintro r rfl; exact he)
      rw [clientAfter_of_world _ he]
      refine ih hp' ((firstGone_append.1 hg).resolve_right ?_)
      simp [FirstGone, firstRead, hfr]
    · have hnil : firstRead tr = [] := ((forwarding hr).early (.inr (.inr ⟨c, hp'⟩))).1
      obtain ⟨r', hr', hg'⟩ : FirstGone [⟨s, .firstFrame r, s'⟩] :=
        (firstGone_append.1 hg).resolve_left (by simp [FirstGone, hnil])
      obtain rfl : some r' = r := by simpa [firstRead, firstReadOf] using hr'
      simp [clientAfter, adoptedOf, sawGone, hg']

theorem getLast?_holds_of_relays (h : s.phase.relays? = some c) :
    s.phase.holds.getLast? = some c := by
  cases hp : s.phase <;> simp_all [Phase.relays?, Phase.holds]

/-- **The flag tells the truth exactly when the first client is not seen to leave before the relay
loop.**  In every state of a run the flag is set if and only if the task is in its relay loop with a
client that it has not seen disconnect, as long as it is published and the end of the shell is not
noticed, if and only if the read for the `Env` frame has not shown that the client left when the
shell is spawned. -/
theorem truthful_iff (hr : lts.Run .init tr s) :
    (∀ tr₁ tr₂ s₁, tr = tr₁ ++ tr₂ → lts.Run .init tr₁ s₁ → Truthful tr₁ s₁) ↔
      FirstPresent tr := by
  constructor
  · rintro h tr₁ ⟨s₁, e, s₂⟩ tr₂ pid rfl hm hg
    obtain ⟨hr₁, hst, -⟩ := hr.cut_at
    simp only at hm hr₁ hst
    subst hm
    have ht : Truthful (tr₁ ++ [⟨s₁, .spawn (some pid), s₂⟩]) s₂ :=
      h _ tr₂ s₂ (by simp) (hr₁.tail hst)
    have hclient : client (tr₁ ++ [⟨s₁, .spawn (some pid), s₂⟩]) = client tr₁ :=
      client_append_single _ _
    cases step_cases hst with
    | spawn hp =>
      obtain ⟨c, -, hc⟩ := (ht _ rfl id).1 rfl
      rw [hclient, client_eq_none hr₁ hp hg] at hc
      cases hc
  · rintro hf tr₁ tr₂ s₁ rfl hr₁ m hm hl
    rw [attached_iff_relays hr₁ hm hl]
    refine exists_congr fun c => (and_iff_left_of_imp fun hc => ?_).symm
    refine (client_eq hr₁ hf.of_append (getLast?_holds_of_relays hc)).resolve_right ?_
    rintro ⟨-, vars, hp⟩
    simp [hp, Phase.relays?] at hc

/-- The client connects and the shell is spawned; the read for the `Env` frame gives `r`. -/
def connectEvents (r : Option NextFrame) : List Event :=
  [.openpty (some "/dev/pts/1"), .handOff 0, .recv, .firstFrame r, .spawn (some 7)]

/-- A client comes in time, leaves, another one takes its place and is displaced. -/
def takeoverEvents : List Event :=
  connectEvents none ++ [.next none, .handOff 1, .recv, .handOff 2, .recv, .sent false]

/-- The flag tells the truth after a disconnect, a reconnect and a takeover. -/
theorem truthful_iff_takeover :
    ∃ s, LTS.exec step .init takeoverEvents = some s ∧ s.phase = .relay 2 ∧
      s.attached = some true ∧ Truthful (LTS.trace step .init takeoverEvents) s := by
  have h : ∃ s, LTS.exec step .init takeoverEvents = some s ∧ s.phase = .relay 2 ∧
      s.attached = some true := ⟨_, rfl, rfl, rfl⟩
  obtain ⟨s, h, hp, ha⟩ := h
  have hr := LTS.run_of_exec h
  refine ⟨s, h, hp, ha, (truthful_iff hr).2 ?_ _ [] s (List.append_nil _).symm hr⟩
  rintro tr₁ m tr₂ pid htr - hg
  have hg' : FirstGone (LTS.trace step .init takeoverEvents) := by
    rw [htr]
    exact firstGone_append.2 (.inl hg)
  have hfirst : firstRead (LTS.trace step .init takeoverEvents) = [none] := rfl
  obtain ⟨r, hmem, -⟩ := hg'
  simp [hfirst] at hmem

/-- A client that is seen to leave before the shell is spawned is relayed, and the flag is set. -/
theorem exists_not_truthful {r : NextFrame} (hg : gone r = true) :
    ∃ s, LTS.exec step .init (connectEvents (some r)) = some s ∧ s.phase = .relay 0 ∧
      s.attached = some true ∧ ¬ Truthful (LTS.trace step .init (connectEvents (some r))) s := by
  refine ⟨_, rfl, rfl, rfl, fun h => ?_⟩
  have hclient : client (LTS.trace step .init (connectEvents (some r))) =
      if gone r then none else some 0 := rfl
  obtain ⟨c, -, hc⟩ := (h _ rfl id).1 rfl
  simp [hclient, hg] at hc

/-- The first client closes its connection, or sends `Exit`, before the shell is spawned. -/
theorem not_truthful_gone :
    (∃ s, LTS.exec step .init (connectEvents (some none)) = some s ∧ s.phase = .relay 0 ∧
      s.attached = some true ∧ ¬ Truthful (LTS.trace step .init (connectEvents (some none))) s) ∧
    ∃ s, LTS.exec step .init (connectEvents (some (some (.ok (.exit 0))))) = some s ∧
      s.phase = .relay 0 ∧ s.attached = some true ∧
      ¬ Truthful (LTS.trace step .init (connectEvents (some (some (.ok (.exit 0)))))) s :=
  ⟨exists_not_truthful rfl, exists_not_truthful rfl⟩

end Server

end Gritty
