import Gritty.Server.Connections
import Gritty.Server.Input
import Gritty.Server.Output

/-!
# The first frame of the first client

Before it spawns the shell the task reads one frame, which is meant to be `Env`, with a match of its
own: any other frame is taken from the connection and dropped.  A client that begins with another
frame loses what the relay loop would have done with it.

## Main definitions

* `relayEffects` : what the relay loop does with a sequence of frames, as window sizes, as input for
  the PTY and as the number of `Pong`s.
* `effects` : what a run did, read off its moves.
* `FirstInert` : the first frame is none that the relay loop would have done anything with.

## Main results

* `relaying` : the relay loop does with the frames that it reads what `relayEffects` says.
* `early_step` : the first frame is read before the loop starts, and does nothing.
* `effects_eq` : a run did what the relay loop does with the frames that it read.
* `firstFrame_counts_iff` : a run does with all frames of its client what the relay loop does with
  them exactly when the first one is inert.
-/

namespace Gritty

namespace Server

/-- What a client does to the PTY, and what it gets for its `Ping`s. -/
@[ext]
structure Effects where
  winsizes : List (UInt16 × UInt16)
  input : List UInt8
  pongs : ℕ
  deriving DecidableEq

/-- No frames. -/
def Effects.empty : Effects := ⟨[], [], 0⟩

/-- A frame in the relay loop, with what the frames after it do. -/
def Effects.onFrame (f : Frame) (rest : Effects) : Effects :=
  match f with
  | .data data => { rest with input := data ++ rest.input }
  | .resize cols rows => { rest with winsizes := clampWinsize cols rows :: rest.winsizes }
  | .ping => { rest with pongs := rest.pongs + 1 }
  | .exit _ => .empty
  | .detached | .pong | .env _ | .newSession _ | .attach _ | .listSessions | .killSession _
  | .killServer | .sessionCreated _ | .sessionInfo _ | .ok | .error _ => rest

/-- What the relay loop does with a sequence of frames. -/
def relayEffects (fs : List Frame) : Effects := fs.foldr Effects.onFrame .empty

/-- Remove a leading `Env` frame. -/
def stripEnv : List Frame → List Frame
  | .env _ :: fs => fs
  | fs => fs

/-- The frame that a move reads before the shell is spawned. -/
def firstOf (m : Move State Event) : List Frame :=
  match m.lbl with
  | .firstFrame (some (some (.ok f))) => [f]
  | _ => []

/-- The frame that a move reads in the relay loop. -/
def nextOf (m : Move State Event) : List Frame :=
  match m.lbl with
  | .next (some (.ok f)) => [f]
  | _ => []

/-- The frame read before the shell is spawned, if it came in time. -/
def first (tr : List (Move State Event)) : List Frame := tr.flatMap firstOf

/-- The frames read in the relay loop, in order. -/
def relayed (tr : List (Move State Event)) : List Frame := tr.flatMap nextOf

/-- All frames taken from clients, in order. -/
def frames (tr : List (Move State Event)) : List Frame :=
  tr.flatMap fun m => firstOf m ++ nextOf m

/-- A move answers a `Ping`, whether or not the send succeeds. -/
def pongOf (m : Move State Event) : ℕ :=
  match m.src.phase, m.lbl with
  | .sendPong _, .sent _ => 1
  | _, _ => 0

/-- What a run did: the window sizes applied, the bytes written to the PTY (however many of them it
took), the `Pong`s returned. -/
def effects (tr : List (Move State Event)) (s : State) : Effects :=
  ⟨s.winsizes, Offer.offered (offers tr), (tr.map pongOf).sum⟩

/-- The loop ignores the frame. -/
def Inert : Frame → Prop
  | .data data => data = []
  | .resize _ _ | .ping | .exit _ => False
  | .detached | .pong | .env _ | .newSession _ | .attach _ | .listSessions | .killSession _
  | .killServer | .sessionCreated _ | .sessionInfo _ | .ok | .error _ => True

/-- What the frame read before the spawn would do is nothing: there is none, the loop ignores it,
or it is an `Exit` and the loop ignores all that the client sent after it. -/
def FirstInert (fs rest : List Frame) : Prop :=
  ∀ f ∈ fs, Inert f ∨ (∃ code, f = .exit code) ∧ ∀ g ∈ rest, Inert g ∨ ∃ code, g = .exit code

variable {s s' : State} {e : Event} {tr : List (Move State Event)} {c : Conn}

/-! ### The loop on a sequence of frames -/

/-- Effects one after the other. -/
def Effects.append (a b : Effects) : Effects :=
  ⟨a.winsizes ++ b.winsizes, a.input ++ b.input, a.pongs + b.pongs⟩

theorem onFrame_append {f : Frame} (hf : ∀ code, f ≠ .exit code) (a b : Effects) :
    (a.append b).onFrame f = (a.onFrame f).append b := by
  cases f with
  | exit code => exact absurd rfl (hf code)
  | ping => simp [Effects.onFrame, Effects.append, Nat.add_right_comm]
  | _ => simp [Effects.onFrame, Effects.append]

theorem relayEffects_append {fs gs : List Frame} (hf : ∀ code, .exit code ∉ fs) :
    relayEffects (fs ++ gs) = (relayEffects fs).append (relayEffects gs) := by
  induction fs with
  | nil => simp [relayEffects, Effects.append, Effects.empty]
  | cons f fs ih =>
    simp only [List.mem_cons, not_or] at hf
    have ih := ih fun code => (hf code).2
    show (relayEffects (fs ++ gs)).onFrame f = ((relayEffects fs).onFrame f).append _
    rw [ih, onFrame_append fun code hc => (hf code).1 hc.symm]

theorem relayEffects_stripEnv (fs : List Frame) : relayEffects (stripEnv fs) = relayEffects fs := by
  cases fs with
  | nil => rfl
  | cons f fs => cases f <;> rfl

theorem onFrame_eq_iff {f : Frame} {rest : Effects} :
    rest.onFrame f = rest ↔ Inert f ∨ (∃ code, f = .exit code) ∧ rest = .empty := by
  cases f with
  | data | resize | ping => simp [Effects.onFrame, Inert, Effects.ext_iff]
  | exit code => simp [Effects.onFrame, Inert, eq_comm]
  | _ => simp [Effects.onFrame, Inert]

theorem onFrame_eq_empty_iff {f : Frame} {rest : Effects} (hf : ∀ code, f ≠ .exit code) :
    rest.onFrame f = .empty ↔ Inert f ∧ rest = .empty := by
  cases f with
  | exit code => exact absurd rfl (hf code)
  | data => simp [Effects.onFrame, Inert, Effects.ext_iff, Effects.empty]; tauto
  | resize | ping => simp [Effects.onFrame, Inert, Effects.ext_iff, Effects.empty]
  | _ => simp [Effects.onFrame, Inert]

theorem relayEffects_eq_empty_iff {fs : List Frame} (hf : ∀ code, .exit code ∉ fs) :
    relayEffects fs = .empty ↔ ∀ g ∈ fs, Inert g := by
  induction fs with
  | nil => simp [relayEffects]
  | cons f fs ih =>
    simp only [List.mem_cons, not_or] at hf
    rw [List.forall_mem_cons, ← ih fun code => (hf code).2]
    exact onFrame_eq_empty_iff fun code hc => (hf code).1 hc.symm

/-- An `Exit` frame comes last, if at all. -/
def ExitLast (fs : List Frame) : Prop :=
  ∃ gs tail, fs = gs ++ tail ∧ (∀ code, .exit code ∉ gs) ∧ (tail = [] ∨ ∃ code, tail = [.exit code])

theorem ExitLast.relayEffects_eq_empty_iff {fs : List Frame} (h : ExitLast fs) :
    relayEffects fs = .empty ↔ ∀ g ∈ fs, Inert g ∨ ∃ code, g = .exit code := by
  obtain ⟨gs, tail, rfl, hgs, ht⟩ := h
  have htail : relayEffects tail = .empty ∧ ∀ g ∈ tail, Inert g ∨ ∃ code, g = .exit code := by
    rcases ht with rfl | ⟨code, rfl⟩
    · exact ⟨rfl, by simp⟩
    · exact ⟨rfl, by simp⟩
  have hcat : relayEffects (gs ++ tail) = relayEffects gs := by
    rw [relayEffects_append hgs, htail.1]
    simp [Effects.append, Effects.empty]
  rw [hcat, Server.relayEffects_eq_empty_iff hgs]
  constructor
  · intro hg g hm
    rcases List.mem_append.1 hm with hm | hm
    · exact .inl (hg g hm)
    · exact htail.2 g hm
  · intro hg g hm
    rcases hg g (List.mem_append_left _ hm) with h | ⟨code, rfl⟩
    · exact h
    · exact absurd hm (hgs code)

/-! ### The loop of the task -/

/-- The `Pong` that is due. -/
def State.pongDue (s : State) : ℕ :=
  match s.phase with
  | .sendPong _ => 1
  | _ => 0

theorem effects_onNext {framed : Conn} {f : Frame} (hp : s.phase = .relay framed) :
    (s.onNext framed (some (.ok f))).winsizes = s.winsizes ++ (relayEffects [f]).winsizes ∧
      receivedOf ⟨s, .next (some (.ok f)), s.onNext framed (some (.ok f))⟩ =
        (relayEffects [f]).input ∧
      (s.onNext framed (some (.ok f))).pongDue = (relayEffects [f]).pongs := by
  have hs : s.pongDue = 0 := by simp [State.pongDue, hp]
  cases f with
  | data data => exact ⟨(List.append_nil _).symm, by simp [receivedOf, hp, relayEffects,
      Effects.onFrame, Effects.empty], rfl⟩
  | resize => exact ⟨rfl, by simp [receivedOf, relayEffects, Effects.onFrame, Effects.empty], hs⟩
  | ping => exact ⟨(List.append_nil _).symm, by simp [receivedOf, relayEffects, Effects.onFrame,
      Effects.empty], rfl⟩
  | exit => exact ⟨(List.append_nil _).symm, by simp [receivedOf, relayEffects, Effects.onFrame,
      Effects.empty], rfl⟩
  | _ => exact ⟨(List.append_nil _).symm, by simp [receivedOf, relayEffects, Effects.onFrame,
      Effects.empty], hs⟩

theorem effects_step (h : Step s e s') (hs' : ∀ o, s'.phase ≠ .ended o) :
    s'.winsizes = s.winsizes ++ (relayEffects (nextOf ⟨s, e, s'⟩)).winsizes ∧
      receivedOf ⟨s, e, s'⟩ = (relayEffects (nextOf ⟨s, e, s'⟩)).input ∧
      s.pongDue + (relayEffects (nextOf ⟨s, e, s'⟩)).pongs = pongOf ⟨s, e, s'⟩ + s'.pongDue := by
  cases h with
  | @next framed r hp =>
    rcases r with _ | e | f
    · exact ⟨(List.append_nil _).symm, by simp [receivedOf, nextOf, relayEffects, Effects.empty],
        by simp [State.pongDue, hp, nextOf, relayEffects, Effects.empty, pongOf, State.onNext,
          State.clientGone]⟩
    · exact absurd rfl (hs' _)
    · obtain ⟨hw, hr, hd⟩ := effects_onNext (f := f) hp
      refine ⟨hw, hr, ?_⟩
      rw [hd]
      simp [State.pongDue, hp, pongOf, nextOf]
  | abort | openptyErr | closedFirst | spawnErr | closed | exitIdle | waitErr | readErr | writeErr
  | dataFailed | exitSent => exact absurd rfl (hs' _)
  | handOff | handOffLost | dropSenders | tick | output | hangup | exit | readBlock | noTakeover =>
    simp [receivedOf, nextOf, relayEffects, Effects.empty, State.pongDue, pongOf]
  | openpty hp | recvFirst hp | firstFrame hp | spawn hp | adopt hp | read hp | eof hp | takeover hp
  | exitRelay hp | write hp | writeBlock hp | pongSent hp | dataSent hp | detachedSent hp =>
    simp [receivedOf, nextOf, relayEffects, Effects.empty, State.pongDue, pongOf, hp, State.onSpawn,
      State.setAttached, State.shellExited, State.write]

/-- The effects of what the relay loop has read, while the task runs. -/
structure Relaying (tr : List (Move State Event)) (s : State) : Prop where
  winsizes : s.winsizes = (relayEffects (relayed tr)).winsizes
  input : received tr = (relayEffects (relayed tr)).input
  pongs : (tr.map pongOf).sum + s.pongDue = (relayEffects (relayed tr)).pongs
  /-- after an `Exit` frame the task waits for another client -/
  exits : (∀ code, .exit code ∉ relayed tr) ∨ (s.phase = .waiting ∧ ExitLast (relayed tr))

theorem waiting_step (h : Step s e s') (hp : s.phase = .waiting) (hs' : ∀ o, s'.phase ≠ .ended o) :
    nextOf ⟨s, e, s'⟩ = [] ∧ (s'.phase = .waiting ∨ adoptedOf ⟨s, e, s'⟩ ≠ []) := by
  cases h with
  | handOff | dropSenders | tick | output | hangup | exit => exact ⟨rfl, .inl hp⟩
  | adopt _ hq => exact ⟨rfl, .inr (by simp [adoptedOf, hq])⟩
  | handOffLost hp' => exact absurd hp' (hs' _)
  | abort | closed | exitIdle | waitErr => exact absurd rfl (hs' _)
  | _ => simp_all

theorem nextOf_cases (h : Step s e s') : nextOf ⟨s, e, s'⟩ = [] ∨
    ∃ f, nextOf ⟨s, e, s'⟩ = [f] ∧ (∀ code, f = .exit code → s'.phase = .waiting) ∧
      ∃ framed, s.phase = .relay framed := by
  cases h with
  | @next framed r hp =>
    rcases r with _ | e | f
    · exact .inl rfl
    · exact .inl rfl
    · refine .inr ⟨f, rfl, ?_, framed, hp⟩
      rintro code rfl
      rfl
  | _ => exact .inl rfl

theorem adopted_ne_nil (hr : lts.Run .init tr s) :
    s.phase.BeforeClient ∨ (∃ o, s.phase = .ended o) ∨ adopted tr ≠ [] := by
  refine hr.invariant (P := fun _ => True)
    (I := fun tr s => s.phase.BeforeClient ∨ (∃ o, s.phase = .ended o) ∨ adopted tr ≠ [])
    (fun _ _ => trivial) (.inl (.inl rfl)) ?_
  intro tr s e s' hi _ hst
  have h := step_cases hst
  by_cases hs' : ∃ o, s'.phase = .ended o
  · exact .inr (.inl hs')
  rcases hi with hb | ⟨o, ho⟩ | hn
  · cases h with
    | recvFirst _ hq => exact .inr (.inr (by simp [adopted_append_single, adoptedOf, hq]))
    | openpty => exact .inl (.inr rfl)
    | handOff | handOffLost | dropSenders | tick | output | hangup | exit => exact .inl hb
    | abort | openptyErr | closedFirst | waitErr => exact absurd ⟨_, rfl⟩ hs'
    | _ => simp_all [Phase.BeforeClient]
  · exact absurd ⟨o, (ended_step h ho).1⟩ hs'
  · exact .inr (.inr (by simp [adopted_append_single, hn]))

theorem relayed_append_single (m : Move State Event) :
    relayed (tr ++ [m]) = relayed tr ++ nextOf m := by
  simp [relayed]

/-- The relay loop does with the frames that it reads what `relayEffects` says, when only one client
is taken from the channel. -/
theorem relaying (hr : lts.Run .init tr s) (ha : (adopted tr).length ≤ 1)
    (hs : ∀ o, s.phase ≠ .ended o) : Relaying tr s := by
  induction hr with
  | refl => exact ⟨rfl, rfl, rfl, .inl (by simp [relayed])⟩
  | @tail tr s s' e hr hst ih =>
    have h := step_cases hst
    rw [adopted_append_single, List.length_append] at ha
    have hi := ih (by omega) (not_ended_of_step h hs)
    obtain ⟨hw, hin, hpo⟩ := effects_step h hs
    -- after an `Exit` frame nothing is read
    have happ : relayEffects (relayed tr ++ nextOf ⟨s, e, s'⟩) =
        (relayEffects (relayed tr)).append (relayEffects (nextOf ⟨s, e, s'⟩)) := by
      rcases hi.exits with hx | ⟨hp, -⟩
      · exact relayEffects_append hx
      · rw [(waiting_step h hp hs).1]
        simp [Effects.append, relayEffects, Effects.empty]
    constructor
    · rw [relayed_append_single, happ, hw, hi.winsizes]
      rfl
    · rw [relayed_append_single, happ, received_append_single, hin, hi.input]
      rfl
    · rw [relayed_append_single, happ]
      show _ = (relayEffects (relayed tr)).pongs + (relayEffects (nextOf ⟨s, e, s'⟩)).pongs
      rw [← hi.pongs]
      simp
      omega
    · rw [relayed_append_single]
      rcases hi.exits with hx | ⟨hp, hx⟩
      · rcases nextOf_cases h with hn | ⟨f, hn, hf, -⟩
        · rw [hn, List.append_nil]
          exact .inl hx
        · rw [hn]
          by_cases hfx : ∃ code, f = .exit code
          · obtain ⟨code, rfl⟩ := hfx
            exact .inr ⟨hf code rfl, _, _, rfl, hx, .inr ⟨code, rfl⟩⟩
          · refine .inl fun code hm => ?_
            rcases List.mem_append.1 hm with hm | hm
            · exact hx code hm
            · exact hfx ⟨code, (List.mem_singleton.1 hm).symm⟩
      · obtain ⟨hn, hp' | hno⟩ := waiting_step h hp hs
        · rw [hn, List.append_nil]
          exact .inr ⟨hp', hx⟩
        · -- a second client would be taken
          have h₁ : adopted tr ≠ [] := by
            rcases adopted_ne_nil hr with hb | ⟨o, ho⟩ | hn
            · simp [Phase.BeforeClient, hp] at hb
            · simp [hp] at ho
            · exact hn
          have := List.length_pos_iff.2 h₁
          have := List.length_pos_iff.2 hno
          omega

/-! ### The frame before the shell -/

/-- The phases before the first frame. -/
def Phase.Early (p : Phase) : Prop := p = .openpty ∨ p = .recvFirst ∨ ∃ framed, p = .readEnv framed

/-- The first frame is read before the loop starts. -/
theorem early_step (h : Step s e s') :
    (s'.phase.Early → s.phase.Early ∧ firstOf ⟨s, e, s'⟩ = [] ∧ nextOf ⟨s, e, s'⟩ = []) ∧
      (firstOf ⟨s, e, s'⟩ ≠ [] → s.phase.Early) := by
  cases h with
  | handOff | handOffLost | dropSenders | tick | output | hangup | exit =>
    exact ⟨fun h => ⟨h, rfl, rfl⟩, by simp [firstOf]⟩
  | openpty hp => exact ⟨fun _ => ⟨.inl hp, rfl, rfl⟩, by simp [firstOf]⟩
  | recvFirst hp => exact ⟨fun _ => ⟨.inr (.inl hp), rfl, rfl⟩, by simp [firstOf]⟩
  | firstFrame hp => exact ⟨by simp [Phase.Early], fun _ => .inr (.inr ⟨_, hp⟩)⟩
  | @next framed r hp =>
    refine ⟨fun h => ?_, by simp [firstOf]⟩
    rcases r with _ | e | f
    · simp [Phase.Early, State.onNext, State.clientGone] at h
    · simp [Phase.Early, State.onNext, State.finish] at h
    · cases f <;> simp [Phase.Early, State.onNext, State.clientGone, hp] at h
  | readBlock hp | noTakeover hp => exact ⟨by simp [Phase.Early, hp], by simp [firstOf]⟩
  | _ => exact ⟨by simp [Phase.Early, State.finish, State.onSpawn, State.shellExited], by
      simp [firstOf]⟩

theorem frames_eq (hr : lts.Run .init tr s) :
    frames tr = first tr ++ relayed tr ∧ (first tr).length ≤ 1 := by
  have h : (frames tr = first tr ++ relayed tr ∧ (first tr).length ≤ 1) ∧
      (s.phase.Early → first tr = [] ∧ relayed tr = []) := by
    refine hr.invariant (P := fun _ => True)
      (I := fun tr s => (frames tr = first tr ++ relayed tr ∧ (first tr).length ≤ 1) ∧
        (s.phase.Early → first tr = [] ∧ relayed tr = []))
      (fun _ _ => trivial) ⟨⟨rfl, by simp [first]⟩, fun _ => ⟨rfl, rfl⟩⟩ ?_
    intro tr s e s' ⟨⟨hi, hlen⟩, hearly⟩ _ hst
    obtain ⟨h₁, h₂⟩ := early_step (step_cases hst)
    have hf : frames (tr ++ [⟨s, e, s'⟩]) =
        frames tr ++ (firstOf ⟨s, e, s'⟩ ++ nextOf ⟨s, e, s'⟩) := by simp [frames]
    have hfi : first (tr ++ [⟨s, e, s'⟩]) = first tr ++ firstOf ⟨s, e, s'⟩ := by simp [first]
    rw [hf, hfi, relayed_append_single, hi]
    constructor
    · by_cases hn : firstOf ⟨s, e, s'⟩ = []
      · simpa [hn] using hlen
      · have hle : (firstOf ⟨s, e, s'⟩).length ≤ 1 := by
          unfold firstOf
          split <;> simp
        obtain ⟨hfirst, hrel⟩ := hearly (h₂ hn)
        simpa [hfirst, hrel] using hle
    · intro hs'
      obtain ⟨hs, hfo, hno⟩ := h₁ hs'
      obtain ⟨hfi, hre⟩ := hearly hs
      simp [hfi, hre, hfo, hno]
  exact h.1

/-- What a run did is what the relay loop does with the frames that it read. -/
theorem effects_eq (hr : lts.Run .init tr s) (ha : (adopted tr).length ≤ 1)
    (hs : s.phase = .relay c ∨ s.phase = .waiting) : effects tr s = relayEffects (relayed tr) := by
  have hend : ∀ o, s.phase ≠ .ended o := by
    rcases hs with hs | hs <;> simp [hs]
  have howed : s.owed = [] ∧ s.pongDue = 0 := by
    rcases hs with hs | hs <;> simp [State.owed, State.pongDue, hs]
  have h := relaying hr ha hend
  have hin := received_eq_offered_append_owed hr hend
  rw [howed.1, List.append_nil, h.input] at hin
  have hpo := h.pongs
  rw [howed.2, Nat.add_zero] at hpo
  exact Effects.ext h.winsizes hin.symm hpo

/-- **The first frame counts exactly when nothing is lost with it.**  In every run with one client,
once all the frames taken from it are handled: the window sizes applied, the bytes written to the
PTY and the `Pong`s returned are those that the relay loop produces on the whole sequence without a
leading `Env`, if and only if the frame read before the spawn, if any came in time, is one that the
loop ignores, or an `Exit` after which the client sent nothing that counts. -/
theorem firstFrame_counts_iff (hr : lts.Run .init tr s) (ha : adopted tr = [c])
    (hs : s.phase = .relay c ∨ s.phase = .waiting) :
    effects tr s = relayEffects (stripEnv (frames tr)) ↔ FirstInert (first tr) (relayed tr) := by
  have hlen : (adopted tr).length ≤ 1 := by simp [ha]
  have hend : ∀ o, s.phase ≠ .ended o := by
    rcases hs with hs | hs <;> simp [hs]
  have hlast : ExitLast (relayed tr) := by
    rcases (relaying hr hlen hend).exits with hx | ⟨-, hx⟩
    · exact ⟨_, [], by simp, hx, .inl rfl⟩
    · exact hx
  obtain ⟨hfr, hle⟩ := frames_eq hr
  rw [effects_eq hr hlen hs, relayEffects_stripEnv, hfr]
  -- the frame read before the spawn is the only one that the loop did not see
  rcases hf : first tr with _ | ⟨f, fs⟩
  · simp [FirstInert]
  · obtain rfl : fs = [] := by simpa [hf] using hle
    show _ = (relayEffects (relayed tr)).onFrame f ↔ _
    rw [eq_comm, onFrame_eq_iff, hlast.relayEffects_eq_empty_iff]
    simp [FirstInert]

/-- A client that has `TERM` set: `Env`, then `Resize`. -/
def envFirstLabels : List Event :=
  [.openpty (some "/dev/pts/1"), .handOff 0, .recv,
    .firstFrame (some (some (.ok (.env [("TERM", "xterm")])))), .spawn (some 7),
    .next (some (.ok (.resize 80 24)))]

/-- The window size is applied. -/
theorem firstFrame_counts_env :
    ∃ s, LTS.exec step .init envFirstLabels = some s ∧
      effects (LTS.trace step .init envFirstLabels) s =
        relayEffects (stripEnv (frames (LTS.trace step .init envFirstLabels))) ∧
      s.winsizes = [(80, 24)] := by
  have h : ∃ s, LTS.exec step .init envFirstLabels = some s ∧ s.phase = .relay 0 ∧
      s.winsizes = [(80, 24)] := ⟨_, rfl, rfl, rfl⟩
  obtain ⟨s, h, hp, hw⟩ := h
  have hf : first (LTS.trace step .init envFirstLabels) = [.env [("TERM", "xterm")]] := rfl
  refine ⟨s, h, (firstFrame_counts_iff (LTS.run_of_exec h) rfl (.inl hp)).2 ?_, hw⟩
  simp [hf, FirstInert, Inert]

/-- A client that has none of the variables set starts with `Resize`. -/
def resizeFirstLabels : List Event :=
  [.openpty (some "/dev/pts/1"), .handOff 0, .recv,
    .firstFrame (some (some (.ok (.resize 80 24)))), .spawn (some 7)]

/-- The window size that the first frame asks for is not applied. -/
theorem not_firstFrame_counts_resize :
    ∃ tr s, lts.Run .init tr s ∧ tr.map Move.lbl = resizeFirstLabels ∧ adopted tr = [0] ∧
      s.phase = .relay 0 ∧ s.winsizes = [] ∧
      relayEffects (stripEnv (frames tr)) = ⟨[(80, 24)], [], 0⟩ ∧
      effects tr s ≠ relayEffects (stripEnv (frames tr)) := by
  have h : ∃ s, LTS.exec step .init resizeFirstLabels = some s ∧ s.phase = .relay 0 ∧
      s.winsizes = [] := ⟨_, rfl, rfl, rfl⟩
  obtain ⟨s, h, hp, hw⟩ := h
  have href : relayEffects (stripEnv (frames (LTS.trace step .init resizeFirstLabels))) =
      ⟨[(80, 24)], [], 0⟩ := rfl
  refine ⟨_, s, LTS.run_of_exec h, rfl, rfl, hp, hw, href, fun he => ?_⟩
  have hne : s.winsizes = [(80, 24)] := congrArg Effects.winsizes (he.trans href)
  rw [hw] at hne
  cases hne

end Server

end Gritty
