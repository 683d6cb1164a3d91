import Gritty.Terminal.Dialogue
import Gritty.Terminal.Step

/-!
# What the client relies on

Where the client waits says which connection is in use, how it was opened and what is still to be
sent on it.  The code does not check any of this again: a reconnect sends the string of the session
without asking whether there is one, and `relay` sends the variables that `run` has left it.

## Main definitions

* `State.openingOf` : how a connection was opened, the first one and the later ones.
* `State.Known` : the session is the one that a reply has given.
* `Sound` : what the client relies on, at each of the points where it waits.

## Main results

* `Sound.performs`, `Sound.lost` : what is kept when actions are performed, or the connection lost.
* `sound_step` : every move keeps it.
* `sound` : it holds after every run.
-/

namespace Gritty

namespace Terminal

/-- The connection in use. -/
def Phase.conn? : Phase → Option Conn
  | .requesting framed | .awaiting framed | .sendEnv framed | .sendResize framed _
  | .sendRedraw framed | .relay framed | .sending framed _ _ | .suspended framed _
  | .attaching framed | .reattaching framed => some framed
  | .opening | .sleeping _ | .connecting | .exited _ => none

/-- How the first connection is opened. -/
def Options.opening (o : Options) : Opening := ⟨o.command.request, o.envVars, o.command.redraw⟩

/-- How a connection is opened. -/
def State.openingOf (s : State) (c : Conn) : Opening :=
  if c = 0 then s.options.opening else ⟨.attach s.session, [], true⟩

/-- `session` is known from the reply to the first request. -/
def State.Known (s : State) : Prop := ∃ reply, s.options.command.session? reply = some s.session

/-- What the client relies on at the points where it waits. -/
inductive Sound (s : State) : Prop
  | opening : s.phase = .opening → s.connections = 0 → Sound s
  | asking : s.phase = .requesting 0 ∨ s.phase = .awaiting 0 → s.connections = 1 → Sound s
  | relaying {framed} : s.phase.relayed? = some framed → framed + 1 = s.connections →
      s.env = (s.openingOf framed).env → s.redraw = (s.openingOf framed).redraw →
      (∀ frame actions, s.phase = .sending framed frame actions → IsRelayed frame) → s.Known →
      Sound s
  | away : (∃ deadline, s.phase = .sleeping deadline) ∨ s.phase = .connecting →
      0 < s.connections → s.env = [] → s.Known → Sound s
  | attaching {framed} : s.phase = .attaching framed ∨ s.phase = .reattaching framed →
      framed + 1 = s.connections → framed ≠ 0 → s.env = [] → s.Known → Sound s
  | exited {code} : s.phase = .exited code → Sound s

variable {o : Options} {s s' : State} {e : Event} {tr : List (Move State Event)} {framed : Conn}

/-- What changes only when a connection is granted or lost. -/
def State.core (s : State) : Options × ℕ × String × List (String × String) × Bool :=
  (s.options, s.connections, s.session, s.env, s.redraw)

theorem Performs.relayed {p : Phase} (h : Performs framed p) :
    p.relayed? = some framed ∨ p = .exited (some 0) := by
  cases h with
  | done | data | suspend => exact .inl rfl
  | detach => exact .inr rfl

theorem Performs.isRelayed {p : Phase} (h : Performs framed p) {frame : Frame}
    {actions : List EscapeAction} (hp : p = .sending framed frame actions) : IsRelayed frame := by
  cases h with
  | data =>
    obtain ⟨-, rfl, -⟩ := Phase.sending.inj hp
    exact .data
  | done | suspend | detach => cases hp

theorem Sound.relay (h : Sound s) (hp : s.phase.relayed? = some framed) :
    framed + 1 = s.connections ∧ s.env = (s.openingOf framed).env ∧
      s.redraw = (s.openingOf framed).redraw ∧
      (∀ frame actions, s.phase = .sending framed frame actions → IsRelayed frame) ∧ s.Known := by
  cases h with
  | relaying hp' hc he hr hf hk =>
    obtain rfl := Option.some.inj (hp'.symm.trans hp)
    exact ⟨hc, he, hr, hf, hk⟩
  | opening hp' | exited hp' => simp [hp', Phase.relayed?] at hp
  | asking hp' | attaching hp' => rcases hp' with hp' | hp' <;> simp [hp', Phase.relayed?] at hp
  | away hp' => rcases hp' with ⟨_, hp'⟩ | hp' <;> simp [hp', Phase.relayed?] at hp

theorem Sound.congr (h : Sound s) (hp : s'.phase = s.phase) (hk : s'.core = s.core) : Sound s' := by
  obtain ⟨options, phase, connections, session, redraw, env⟩ := s
  obtain ⟨options', phase', connections', session', redraw', env'⟩ := s'
  obtain rfl : phase' = phase := hp
  obtain ⟨rfl, rfl, rfl, rfl, rfl⟩ : options' = options ∧ connections' = connections ∧
      session' = session ∧ env' = env ∧ redraw' = redraw := by simpa [State.core] using hk
  cases h with
  | opening h₁ h₂ => exact .opening h₁ h₂
  | asking h₁ h₂ => exact .asking h₁ h₂
  | relaying h₁ h₂ h₃ h₄ h₅ h₆ => exact .relaying h₁ h₂ h₃ h₄ h₅ h₆
  | away h₁ h₂ h₃ h₄ => exact .away h₁ h₂ h₃ h₄
  | attaching h₁ h₂ h₃ h₄ h₅ => exact .attaching h₁ h₂ h₃ h₄ h₅
  | exited h₁ => exact .exited h₁

theorem Sound.stay (h : Sound s) (hp : s.phase.relayed? = some framed) (hk : s'.core = s.core)
    (hp' : s'.phase.relayed? = some framed)
    (hf : ∀ frame actions, s'.phase = .sending framed frame actions → IsRelayed frame) :
    Sound s' := by
  obtain ⟨hc, he, hr, -, hk'⟩ := h.relay hp
  obtain ⟨options, phase, connections, session, redraw, env⟩ := s
  obtain ⟨options', phase', connections', session', redraw', env'⟩ := s'
  obtain ⟨rfl, rfl, rfl, rfl, rfl⟩ : options' = options ∧ connections' = connections ∧
      session' = session ∧ env' = env ∧ redraw' = redraw := by simpa [State.core] using hk
  exact .relaying hp' hc he hr hf hk'

theorem Sound.performs (h : Sound s) (hp : s.phase.relayed? = some framed) (hk : s'.core = s.core)
    (hp' : Performs framed s'.phase) : Sound s' := by
  rcases hp'.relayed with hr | he
  · exact h.stay hp hk hr fun _ _ => hp'.isRelayed
  · exact .exited he

/-- The connection is lost. -/
theorem Sound.lost (h : Sound s) (hp : s.phase.relayed? = some framed) : Sound s.lost := by
  obtain ⟨hc, -, -, -, hk⟩ := h.relay hp
  exact .away (.inl ⟨_, rfl⟩) (hc ▸ Nat.succ_pos framed) rfl hk

theorem Sound.asking_inv (h : Sound s)
    (hp : s.phase = .requesting framed ∨ s.phase = .awaiting framed) :
    framed = 0 ∧ s.connections = 1 := by
  cases h with
  | asking hp' hc =>
    rcases hp with hp | hp <;> rcases hp' with hp' | hp' <;> simp_all
  | opening hp' | exited hp' => rcases hp with hp | hp <;> simp [hp] at hp'
  | relaying hp' => rcases hp with hp | hp <;> simp [hp, Phase.relayed?] at hp'
  | away hp' => rcases hp with hp | hp <;> simp [hp] at hp'
  | attaching hp' => rcases hp with hp | hp <;> simp [hp] at hp'

theorem Sound.away_inv (h : Sound s)
    (hp : (∃ deadline, s.phase = .sleeping deadline) ∨ s.phase = .connecting) :
    0 < s.connections ∧ s.env = [] ∧ s.Known := by
  cases h with
  | away _ hc he hk => exact ⟨hc, he, hk⟩
  | opening hp' | exited hp' => rcases hp with ⟨_, hp⟩ | hp <;> simp [hp] at hp'
  | relaying hp' => rcases hp with ⟨_, hp⟩ | hp <;> simp [hp, Phase.relayed?] at hp'
  | asking hp' | attaching hp' => rcases hp with ⟨_, hp⟩ | hp <;> simp [hp] at hp'

theorem Sound.attaching_inv (h : Sound s)
    (hp : s.phase = .attaching framed ∨ s.phase = .reattaching framed) :
    framed + 1 = s.connections ∧ framed ≠ 0 ∧ s.env = [] ∧ s.Known := by
  cases h with
  | attaching hp' hc hn he hk =>
    rcases hp with hp | hp <;> rcases hp' with hp' | hp' <;> simp_all
  | opening hp' | exited hp' => rcases hp with hp | hp <;> simp [hp] at hp'
  | relaying hp' => rcases hp with hp | hp <;> simp [hp, Phase.relayed?] at hp'
  | asking hp' | away hp' => rcases hp with hp | hp <;> simp [hp] at hp'

theorem sound_step (h : Step s e s') (hi : Sound s) : Sound s' := by
  cases h with
  | typed | eof | resized | elapse | pong | passive => exact hi.congr rfl rfl
  | fail | requestFailed | refused | unanswered | inputEnded | exit | detached | interrupt
  | sessionGone => exact .exited rfl
  | @opened ok hp =>
    cases hi with
    | opening _ hc =>
      cases ok with
      | true => exact .asking (.inl (by simp [State.onOpened, hc])) (by simp [State.onOpened, hc])
      | false =>
        cases hcmd : s.options.command with
        | newSession =>
          rw [State.onOpened, hcmd]
          exact .exited rfl
        | attach =>
          rw [State.onOpened, hcmd]
          exact .opening hp hc
    | relaying hp' => simp [hp, Phase.relayed?] at hp'
    | asking hp' | away hp' | attaching hp' | exited hp' => simp [hp] at hp'
  | requestSent hp =>
    obtain ⟨rfl, hc⟩ := hi.asking_inv (.inl hp)
    exact .asking (.inr rfl) hc
  | @accepted framed reply session hp hs =>
    obtain ⟨rfl, hc⟩ := hi.asking_inv (.inr hp)
    unfold State.enterRun
    obtain ⟨p, hs', hp'⟩ := startRelay_eq (s.setUp session) 0
    rw [hs']
    have hr : p.relayed? = some 0 ∧ ∀ frame actions, p ≠ .sending 0 frame actions := by
      rcases hp' with ⟨-, rfl⟩ | ⟨-, rfl⟩ <;> simp [Phase.relayed?]
    exact .relaying hr.1 hc.symm rfl rfl (fun _ _ hp => absurd hp (hr.2 _ _)) ⟨reply, hs⟩
  | @envSent framed hp =>
    have hrel : s.phase.relayed? = some framed := by rw [hp]; rfl
    exact hi.stay hrel rfl rfl (by simp [State.startResize])
  | @resizeSent framed size hp | @redrawSent framed hp =>
    have hrel : s.phase.relayed? = some framed := by rw [hp]; rfl
    exact hi.stay hrel rfl rfl (by simp [State.enterLoop])
  | @resizeSentRedraw framed size hp =>
    have hrel : s.phase.relayed? = some framed := by rw [hp]; rfl
    exact hi.stay hrel rfl rfl (by simp)
  | @sent framed frame actions hp =>
    obtain ⟨p, hs, hp'⟩ := perform_eq s framed actions
    rw [hs]
    exact hi.performs (by rw [hp]; rfl) rfl hp'
  | sendFailed hp => exact hi.lost hp
  | @disconnected framed r hp =>
    have hrel : s.phase.relayed? = some framed := by rw [hp]; rfl
    exact hi.lost hrel
  | @timeout framed hp =>
    have hi' : Sound { s with nextTick := s.nextTick + heartbeatInterval } := hi.congr rfl rfl
    have hrel : s.phase.relayed? = some framed := by rw [hp]; rfl
    exact hi'.lost hrel
  | @input framed n hp =>
    obtain ⟨escape, p, hs, hp'⟩ := onInput_eq { s with stdin := s.stdin.drop n } framed
      (s.stdin.take n)
    rw [hs]
    exact hi.performs (by rw [hp]; rfl) rfl hp'
  | @winch framed hp | @resume framed actions hp =>
    have hrel : s.phase.relayed? = some framed := by rw [hp]; rfl
    refine hi.stay hrel rfl rfl fun _ _ hp' => ?_
    obtain ⟨-, rfl, -⟩ := Phase.sending.inj hp'
    exact .resize
  | @ping framed hp =>
    have hrel : s.phase.relayed? = some framed := by rw [hp]; rfl
    refine hi.stay hrel rfl rfl fun _ _ hp' => ?_
    obtain ⟨-, rfl, -⟩ := Phase.sending.inj hp'
    exact .ping
  | swallow hp | wake hp =>
    obtain ⟨hc, he, hk⟩ := hi.away_inv (.inl ⟨_, hp⟩)
    exact .away (.inr rfl) hc he hk
  | @reconnected ok hp =>
    obtain ⟨hc, he, hk⟩ := hi.away_inv (.inr hp)
    cases ok with
    | true => exact .attaching (.inl rfl) rfl hc.ne' he hk
    | false => exact .away (.inl ⟨_, rfl⟩) hc he hk
  | attachSent hp =>
    obtain ⟨hc, hn, he, hk⟩ := hi.attaching_inv (.inl hp)
    exact .attaching (.inr rfl) hc hn he hk
  | attachFailed hp =>
    obtain ⟨hc, -, he, hk⟩ := hi.attaching_inv (.inl hp)
    exact .away (.inl ⟨_, rfl⟩) (hc ▸ Nat.succ_pos _) he hk
  | notReattached hp | reattachLost hp =>
    obtain ⟨hc, -, he, hk⟩ := hi.attaching_inv (.inr hp)
    exact .away (.inl ⟨_, rfl⟩) (hc ▸ Nat.succ_pos _) he hk
  | @reattached framed hp =>
    obtain ⟨hc, hn, he, hk⟩ := hi.attaching_inv (.inr hp)
    obtain ⟨p, hs, hp'⟩ := startRelay_eq { s with redraw := true } framed
    rw [hs]
    have hr : p.relayed? = some framed ∧ ∀ frame actions, p ≠ .sending framed frame actions := by
      rcases hp' with ⟨-, rfl⟩ | ⟨-, rfl⟩ <;> simp [Phase.relayed?]
    refine .relaying hr.1 hc ?_ ?_ (fun _ _ hp => absurd hp (hr.2 _ _)) hk
    · simp [State.openingOf, hn, he]
    · simp [State.openingOf, hn]

theorem sound (hr : lts.Run (.init o) tr s) : Sound s :=
  hr.reachable.invariant (.opening rfl rfl) fun _ _ _ hi hst => sound_step (step_cases hst) hi

theorem options_step (h : Step s e s') : s'.options = s.options := by
  cases h with
  | @opened ok hp =>
    cases ok
    · rw [State.onOpened]
      cases s.options.command <;> rfl
    · rfl
  | @reconnected ok => cases ok <;> rfl
  | @accepted framed reply session =>
    obtain ⟨p, hs, -⟩ := startRelay_eq (s.setUp session) framed
    rw [State.enterRun, hs]
    rfl
  | @reattached framed =>
    obtain ⟨p, hs, -⟩ := startRelay_eq { s with redraw := true } framed
    rw [hs]
  | @sent framed _ actions =>
    obtain ⟨p, hs, -⟩ := perform_eq s framed actions
    rw [hs]
  | @input framed n =>
    obtain ⟨escape, p, hs, -⟩ := onInput_eq { s with stdin := s.stdin.drop n } framed
      (s.stdin.take n)
    rw [hs]
  | _ => rfl

theorem options_eq (hr : lts.Run (.init o) tr s) : s.options = o :=
  hr.reachable.invariant (I := fun s => s.options = o) rfl
    fun _ _ _ hi hst => (options_step (step_cases hst)).trans hi

theorem openingOf_of_ne (h : framed ≠ 0) :
    s.openingOf framed = ⟨.attach s.session, [], true⟩ := if_neg h

theorem conn?_of_relayed (h : s.phase.relayed? = some framed) : s.phase.conn? = some framed := by
  cases hp : s.phase <;> simp_all [Phase.relayed?, Phase.conn?]

theorem Sound.conn_lt (h : Sound s) (hc : s.phase.conn? = some framed) :
    framed < s.connections := by
  cases h with
  | opening hp | exited hp => simp [hp, Phase.conn?] at hc
  | asking hp hn => rcases hp with hp | hp <;> simp_all [Phase.conn?]
  | away hp => rcases hp with ⟨_, hp⟩ | hp <;> simp [hp, Phase.conn?] at hc
  | attaching hp hn =>
    have hl := Nat.lt_succ_self framed
    rcases hp with hp | hp <;> simp_all [Phase.conn?]
  | @relaying framed' hp hn =>
    obtain rfl := Option.some.inj ((conn?_of_relayed hp).symm.trans hc)
    exact hn ▸ Nat.lt_succ_self _

end Terminal

end Gritty
