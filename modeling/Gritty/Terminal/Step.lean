import Gritty.Terminal.Basic

/-!
# The moves of the client

`Step` lists the moves, one constructor for each branch of the code.  What the client performs after
a read is a relation of its own (`Performs`), since it goes over the actions up to the first one
that the client has to wait for.

The laws of the client are proved by cases on the two, and none looks at `step` again.

## Main results

* `perform_eq` : the actions that are performed, up to the one that is waited for.
* `step_onSent`, `step_onReply`, `step_onFrame`, `step_onRead` : the branches of the code.
* `step_cases` : the list is complete.
-/

namespace Gritty

namespace Terminal

open Server (NextFrame)

/-- The connection that `relay` works on. -/
def Phase.relayed? : Phase → Option Conn
  | .sendEnv framed | .sendResize framed _ | .sendRedraw framed | .relay framed
  | .sending framed _ _ | .suspended framed _ => some framed
  | .opening | .requesting _ | .awaiting _ | .sleeping _ | .connecting | .attaching _
  | .reattaching _ | .exited _ => none

/-- The frames that `relay` ignores or shows. -/
def IsPassive : Frame → Prop
  | .pong | .exit _ | .detached => False
  | .data _ | .resize _ _ | .ping | .env _ | .newSession _ | .attach _ | .listSessions
  | .killSession _ | .killServer | .sessionCreated _ | .sessionInfo _ | .ok | .error _ => True

/-- Nothing was received on a connection: it ended or failed. -/
inductive NoFrame : NextFrame → Prop
  | none : NoFrame none
  | error {e} : NoFrame (some (.error e))

/-- The moves of the client. -/
inductive Step (s : State) : Event → State → Prop
  -- the world around it
  | typed {bytes} : s.eof = false → Step s (.typed bytes) { s with stdin := s.stdin ++ bytes }
  | eof : Step s .eof { s with eof := true }
  | resized {size} : Step s (.resized size) { s with size := size }
  | elapse {ms} : Step s (.elapse ms) { s with now := s.now + ms }
  | fail : (∀ code, s.phase ≠ .exited code) → Step s .fail (s.exit none)
  -- `new_session` and `attach`
  | opened {ok} : s.phase = .opening → Step s (.connect ok) (s.onOpened ok)
  | requestSent {framed} : s.phase = .requesting framed →
      Step s (.sent true) { s with phase := .awaiting framed }
  | requestFailed {framed} : s.phase = .requesting framed → Step s (.sent false) (s.exit none)
  | accepted {framed reply session} : s.phase = .awaiting framed →
      s.options.command.session? reply = some session →
      Step s (.next (some (.ok reply))) (s.enterRun session framed)
  | refused {framed reply} : s.phase = .awaiting framed →
      s.options.command.session? reply = none →
      Step s (.next (some (.ok reply))) (s.exit none)
  | unanswered {framed r} : s.phase = .awaiting framed → NoFrame r → Step s (.next r) (s.exit none)
  -- the beginning of `relay`
  | envSent {framed} : s.phase = .sendEnv framed → Step s (.sent true) (s.startResize framed)
  | resizeSent {framed size} : s.phase = .sendResize framed size → s.redraw = false →
      Step s (.sent true) (s.enterLoop framed)
  | resizeSentRedraw {framed size} : s.phase = .sendResize framed size → s.redraw = true →
      Step s (.sent true) { s with phase := .sendRedraw framed }
  | redrawSent {framed} : s.phase = .sendRedraw framed → Step s (.sent true) (s.enterLoop framed)
  -- its loop
  | sent {framed frame actions} : s.phase = .sending framed frame actions →
      Step s (.sent true) (s.perform framed actions)
  | sendFailed {framed frame} : s.phase.relayed? = some framed → s.send? = some (framed, frame) →
      Step s (.sent false) s.lost
  | inputEnded {framed} : s.phase = .relay framed → s.stdin = [] → s.eof = true →
      Step s (.read 0) (s.exit (some 0))
  | input {framed n} : s.phase = .relay framed → 0 < n → n ≤ bufLen → n ≤ s.stdin.length →
      Step s (.read n)
        ({ s with stdin := s.stdin.drop n }.onInput framed (s.stdin.take n))
  | pong {framed} : s.phase = .relay framed →
      Step s (.next (some (.ok .pong))) { s with lastPong := s.now }
  | exit {framed code} : s.phase = .relay framed →
      Step s (.next (some (.ok (.exit code)))) (s.exit (some code))
  | detached {framed} : s.phase = .relay framed →
      Step s (.next (some (.ok .detached))) (s.exit (some 0))
  | passive {framed frame} : s.phase = .relay framed → IsPassive frame →
      Step s (.next (some (.ok frame))) s
  | disconnected {framed r} : s.phase = .relay framed → NoFrame r → Step s (.next r) s.lost
  | winch {framed} : s.phase = .relay framed →
      Step s .winch { s with phase := .sending framed s.resizeFrame [] }
  | ping {framed} : s.phase = .relay framed → s.nextTick ≤ s.now →
      s.now - s.lastPong ≤ heartbeatTimeout →
      Step s .tick { s with
        nextTick := s.nextTick + heartbeatInterval
        phase := .sending framed .ping [] }
  | timeout {framed} : s.phase = .relay framed → s.nextTick ≤ s.now →
      heartbeatTimeout < s.now - s.lastPong →
      Step s .tick { s with nextTick := s.nextTick + heartbeatInterval }.lost
  | resume {framed actions} : s.phase = .suspended framed actions →
      Step s .resume { s with phase := .sending framed s.resizeFrame actions }
  -- the reconnect loop
  | interrupt {deadline} : s.phase = .sleeping deadline → deadline ≤ s.now →
      s.stdin.head? = some ctrlC →
      Step s (.wake (some ctrlC)) ({ s with stdin := s.stdin.tail }.exit (some 1))
  | swallow {deadline b} : s.phase = .sleeping deadline → deadline ≤ s.now →
      s.stdin.head? = some b → b ≠ ctrlC →
      Step s (.wake (some b)) { s with stdin := s.stdin.tail, phase := .connecting }
  | wake {deadline} : s.phase = .sleeping deadline → deadline ≤ s.now →
      Step s (.wake none) { s with phase := .connecting }
  | reconnected {ok} : s.phase = .connecting → Step s (.connect ok) (s.onReconnected ok)
  | attachSent {framed} : s.phase = .attaching framed →
      Step s (.sent true) { s with phase := .reattaching framed }
  | attachFailed {framed} : s.phase = .attaching framed → Step s (.sent false) s.pause
  | reattached {framed} : s.phase = .reattaching framed →
      Step s (.next (some (.ok .ok))) ({ s with redraw := true }.startRelay framed)
  | sessionGone {framed message} : s.phase = .reattaching framed →
      Step s (.next (some (.ok (.error message)))) (s.exit (some 1))
  | notReattached {framed frame} : s.phase = .reattaching framed → frame ≠ .ok →
      (∀ message, frame ≠ .error message) → Step s (.next (some (.ok frame))) s.pause
  | reattachLost {framed r} : s.phase = .reattaching framed → NoFrame r → Step s (.next r) s.pause

/-- Where `relay` waits while it performs the actions of a read. -/
inductive Performs (framed : Conn) : Phase → Prop
  | done : Performs framed (.relay framed)
  | data {bytes actions} : Performs framed (.sending framed (.data bytes) actions)
  | suspend {actions} : Performs framed (.suspended framed actions)
  | detach : Performs framed (.exited (some 0))

variable {s s' : State} {e : Event} {framed : Conn} {ok : Bool} {r : NextFrame}

/-! ### What the parts of a move do -/

theorem perform_eq (s : State) (framed : Conn) (actions : List EscapeAction) :
    ∃ p, s.perform framed actions = { s with phase := p } ∧ Performs framed p := by
  induction actions with
  | nil => exact ⟨_, rfl, .done⟩
  | cons a actions ih =>
    cases a with
    | data bytes => exact ⟨_, rfl, .data⟩
    | detach => exact ⟨_, rfl, .detach⟩
    | suspend => exact ⟨_, rfl, .suspend⟩
    | help => exact ih

theorem onInput_eq (s : State) (framed : Conn) (input : List UInt8) : ∃ escape p,
    s.onInput framed input = { s with escape := escape, phase := p } ∧ Performs framed p := by
  unfold State.onInput
  cases s.escape with
  | none => exact ⟨_, _, rfl, .data⟩
  | some esc =>
    obtain ⟨p, hs, hp⟩ := perform_eq { s with escape := some (esc.process input).2 } framed
      (esc.process input).1
    exact ⟨_, p, hs, hp⟩

theorem startRelay_eq (s : State) (framed : Conn) :
    ∃ p, s.startRelay framed = { s with phase := p } ∧
      (s.env.isEmpty = true ∧ p = .sendResize framed s.size ∨
        s.env.isEmpty = false ∧ p = .sendEnv framed) := by
  unfold State.startRelay
  by_cases he : s.env.isEmpty = true
  · rw [if_pos he]
    exact ⟨_, rfl, .inl ⟨he, rfl⟩⟩
  · rw [if_neg he]
    exact ⟨_, rfl, .inr ⟨by simpa using he, rfl⟩⟩

/-! ### The list of moves is complete -/

theorem step_onSent (h : s.onSent ok = some s') : Step s (.sent ok) s' := by
  unfold State.onSent at h
  cases hp : s.phase with
  | requesting framed =>
    rw [hp] at h
    obtain rfl := Option.some.inj h
    cases ok
    · exact .requestFailed hp
    · exact .requestSent hp
  | sendEnv framed =>
    rw [hp] at h
    obtain rfl := Option.some.inj h
    cases ok
    · exact .sendFailed (by rw [hp]; rfl) (by rw [State.send?, hp])
    · exact .envSent hp
  | sendResize framed size =>
    rw [hp] at h
    obtain rfl := Option.some.inj h
    cases ok
    · exact .sendFailed (by rw [hp]; rfl) (by rw [State.send?, hp])
    · by_cases hr : s.redraw = true
      · rw [if_pos rfl, if_pos hr]
        exact .resizeSentRedraw hp hr
      · rw [if_pos rfl, if_neg hr]
        exact .resizeSent hp (by simpa using hr)
  | sendRedraw framed =>
    rw [hp] at h
    obtain rfl := Option.some.inj h
    cases ok
    · exact .sendFailed (by rw [hp]; rfl) (by rw [State.send?, hp])
    · exact .redrawSent hp
  | sending framed frame actions =>
    rw [hp] at h
    obtain rfl := Option.some.inj h
    cases ok
    · exact .sendFailed (by rw [hp]; rfl) (by rw [State.send?, hp])
    · exact .sent hp
  | attaching framed =>
    rw [hp] at h
    obtain rfl := Option.some.inj h
    cases ok
    · exact .attachFailed hp
    · exact .attachSent hp
  | _ =>
    rw [hp] at h
    cases h

theorem step_onReply (hp : s.phase = .awaiting framed) : Step s (.next r) (s.onReply framed r) := by
  rcases r with _ | e | reply
  · exact .unanswered hp .none
  · exact .unanswered hp .error
  · cases hc : s.options.command.session? reply with
    | none =>
      rw [State.onReply, hc]
      exact .refused hp hc
    | some session =>
      rw [State.onReply, hc]
      exact .accepted hp hc

theorem step_onFrame (hp : s.phase = .relay framed) : Step s (.next r) (s.onFrame r) := by
  rcases r with _ | e | frame
  · exact .disconnected hp .none
  · exact .disconnected hp .error
  · cases frame with
    | pong => exact .pong hp
    | exit => exact .exit hp
    | detached => exact .detached hp
    | _ => exact .passive hp trivial

theorem step_onReattached (hp : s.phase = .reattaching framed) :
    Step s (.next r) (s.onReattached framed r) := by
  rcases r with _ | e | frame
  · exact .reattachLost hp .none
  · exact .reattachLost hp .error
  · cases frame with
    | ok => exact .reattached hp
    | error => exact .sessionGone hp
    | _ => exact .notReattached hp (by simp) (by simp)

theorem step_onRead {n : ℕ} (hp : s.phase = .relay framed) (h : s.onRead framed n = some s') :
    Step s (.read n) s' := by
  unfold State.onRead at h
  by_cases hn : n = 0
  · rw [if_pos hn] at h
    by_cases he : s.stdin = [] ∧ s.eof
    · rw [if_pos he] at h
      obtain rfl := Option.some.inj h
      exact hn ▸ .inputEnded hp he.1 he.2
    · rw [if_neg he] at h
      cases h
  · rw [if_neg hn] at h
    by_cases hl : n ≤ bufLen ∧ n ≤ s.stdin.length
    · rw [if_pos hl] at h
      obtain rfl := Option.some.inj h
      exact .input hp (Nat.pos_of_ne_zero hn) hl.1 hl.2
    · rw [if_neg hl] at h
      cases h

theorem step_onTick (hp : s.phase = .relay framed) (ht : s.nextTick ≤ s.now) :
    Step s .tick (s.onTick framed) := by
  unfold State.onTick
  by_cases h : heartbeatTimeout < s.now - s.lastPong
  · simp only [if_pos h]
    exact .timeout hp ht h
  · simp only [if_neg h]
    exact .ping hp ht (Nat.le_of_not_lt h)

theorem step_onWake {deadline : ℕ} {r : Option UInt8} (hp : s.phase = .sleeping deadline)
    (hd : deadline ≤ s.now) (hr : r = none ∨ r = s.stdin.head?) :
    Step s (.wake r) (s.onWake r) := by
  cases r with
  | none => exact .wake hp hd
  | some b =>
    have hb : s.stdin.head? = some b := hr.elim nofun Eq.symm
    by_cases hc : b = ctrlC
    · subst hc
      exact .interrupt hp hd hb
    · rw [State.onWake, if_neg hc]
      exact .swallow hp hd hb hc

/-- **Every step is one of the listed moves.** -/
theorem step_cases (h : lts.step s e s') : Step s e s' := by
  change step s e = some s' at h
  cases e with
  | typed bytes =>
    change (if s.eof then none else some _) = some s' at h
    by_cases he : s.eof = true
    · rw [if_pos he] at h
      cases h
    · rw [if_neg he] at h
      obtain rfl := Option.some.inj h
      exact .typed (by simpa using he)
  | eof =>
    obtain rfl := Option.some.inj h
    exact .eof
  | resized =>
    obtain rfl := Option.some.inj h
    exact .resized
  | elapse =>
    obtain rfl := Option.some.inj h
    exact .elapse
  | connect ok =>
    cases hp : s.phase with
    | opening =>
      rw [step, hp] at h
      obtain rfl := Option.some.inj h
      exact .opened hp
    | connecting =>
      rw [step, hp] at h
      obtain rfl := Option.some.inj h
      exact .reconnected hp
    | _ =>
      rw [step, hp] at h
      cases h
  | sent ok => exact step_onSent h
  | next r =>
    cases hp : s.phase with
    | awaiting framed =>
      rw [step, hp] at h
      obtain rfl := Option.some.inj h
      exact step_onReply hp
    | relay framed =>
      rw [step, hp] at h
      obtain rfl := Option.some.inj h
      exact step_onFrame hp
    | reattaching framed =>
      rw [step, hp] at h
      obtain rfl := Option.some.inj h
      exact step_onReattached hp
    | _ =>
      rw [step, hp] at h
      cases h
  | read n =>
    cases hp : s.phase with
    | relay framed =>
      rw [step, hp] at h
      exact step_onRead hp h
    | _ =>
      rw [step, hp] at h
      cases h
  | winch =>
    cases hp : s.phase with
    | relay framed =>
      rw [step, hp] at h
      obtain rfl := Option.some.inj h
      exact .winch hp
    | _ =>
      rw [step, hp] at h
      cases h
  | tick =>
    cases hp : s.phase with
    | relay framed =>
      rw [step, hp] at h
      by_cases ht : s.nextTick ≤ s.now
      · simp only [if_pos ht] at h
        obtain rfl := Option.some.inj h
        exact step_onTick hp ht
      · simp only [if_neg ht] at h
        cases h
    | _ =>
      rw [step, hp] at h
      cases h
  | resume =>
    cases hp : s.phase with
    | suspended framed actions =>
      rw [step, hp] at h
      obtain rfl := Option.some.inj h
      exact .resume hp
    | _ =>
      rw [step, hp] at h
      cases h
  | wake r =>
    cases hp : s.phase with
    | sleeping deadline =>
      rw [step, hp] at h
      by_cases hw : deadline ≤ s.now ∧ (r = none ∨ r = s.stdin.head?)
      · simp only [if_pos hw] at h
        obtain rfl := Option.some.inj h
        exact step_onWake hp hw.1 hw.2
      · simp only [if_neg hw] at h
        cases h
    | _ =>
      rw [step, hp] at h
      cases h
  | fail =>
    cases hp : s.phase with
    | exited =>
      rw [step, hp] at h
      cases h
    | _ =>
      rw [step, hp] at h
      obtain rfl := Option.some.inj h
      exact .fail (by simp [hp])

end Terminal

end Gritty
