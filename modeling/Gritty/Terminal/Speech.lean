import Gritty.Stream.Turns
import Gritty.Terminal.Sound

/-!
# What the client says

The client follows the protocol of `Dialogue` on each of its connections.  Its state says how far
each of them has come: the one in use by the point where the client waits, and the others are over
or have not begun.

## Main definitions

* `actsOn` : what a run does on one connection.
* `State.posOn` : the position of a connection in a state of the client.
* `Speech` : the protocol, as what the client writes on its connections.

## Main results

* `carries_sent`, `carries_read_over`, `carries_passive` : the kinds of moves.
* `dialogue_step` : what a move does on a connection leads from its position before the move to that
  after it.
* `dialogue` : the client follows the protocol on each of its connections.
* `speech` : what it writes there, in every run.
-/

namespace Gritty

namespace Terminal

open Server (Act IsLast)

/-! ### What is done on connections -/

/-- The connection that the client reads from. -/
def Phase.reads? : Phase → Option Conn
  | .awaiting framed | .relay framed | .reattaching framed => some framed
  | .opening | .requesting _ | .sendEnv _ | .sendResize _ _ | .sendRedraw _ | .sending _ _ _
  | .suspended _ _ | .sleeping _ | .connecting | .attaching _ | .exited _ => none

/-- What a move does on a connection. -/
def actsOf (m : Move State Event) : List (Conn × Act) :=
  match m.lbl with
  | .sent ok => m.src.send?.toList.map fun q => (q.1, .sent q.2 ok)
  | .next (some (.ok f)) => m.src.phase.reads?.toList.map fun c => (c, .read f)
  | _ => []

/-- What the client did on connections, in order. -/
def acts (tr : List (Move State Event)) : List (Conn × Act) := tr.flatMap actsOf

/-- What the client did on the connection `c`, in order. -/
def actsOn (c : Conn) (tr : List (Move State Event)) : List Act := entriesOf c (acts tr)

/-! ### Where a connection is -/

/-- How far the connection in use has come. -/
def Phase.pos (o : Opening) : Phase → Pos
  | .requesting _ | .attaching _ => .asking o
  | .awaiting _ | .reattaching _ => .asked o
  | .sendEnv _ => .accepted o
  | .sendResize _ _ => .greeted o
  | .sendRedraw _ => .sized o
  | .relay _ | .sending _ _ _ | .suspended _ _ => .relaying
  | .opening | .sleeping _ | .connecting | .exited _ => .over

/-- How far a connection has come. -/
def State.posOn (s : State) (c : Conn) : Pos :=
  if s.connections ≤ c then .unopened
  else if s.phase.conn? = some c then s.phase.pos (s.openingOf c)
  else .over

/-- How the connection `c` may be opened. -/
inductive Opens (o : Options) (c : Conn) : Opening → Prop
  | first : c = 0 → Opens o c o.opening
  | again {reply session} : c ≠ 0 → o.command.session? reply = some session →
      Opens o c ⟨.attach session, [], true⟩

variable {o : Options} {s s' : State} {e : Event} {tr : List (Move State Event)} {c framed : Conn}

/-! ### The client follows the protocol -/

theorem posOn_current (hc : s.phase.conn? = some framed) (hl : framed < s.connections) :
    s.posOn framed = s.phase.pos (s.openingOf framed) := by
  rw [State.posOn, if_neg (Nat.not_le.2 hl), if_pos hc]

theorem posOn_other (hc : s.phase.conn? ≠ some c) :
    s.posOn c = if s.connections ≤ c then .unopened else .over := by
  rw [State.posOn, if_neg hc]

theorem actsOf_sent {f : Frame} {ok : Bool} (h : s.send? = some (framed, f)) :
    actsOf ⟨s, .sent ok, s'⟩ = [(framed, .sent f ok)] := by
  simp [actsOf, h]

theorem actsOf_read {f : Frame} (h : s.phase.reads? = some framed) :
    actsOf ⟨s, .next (some (.ok f)), s'⟩ = [(framed, .read f)] := by
  simp [actsOf, h]

theorem actsOf_noFrame {r : Server.NextFrame} (h : NoFrame r) : actsOf ⟨s, .next r, s'⟩ = [] := by
  cases h <;> rfl

theorem accepts_of_session {command : Command} {reply : Frame} {session : String}
    (h : command.session? reply = some session) : Accepts command.request reply := by
  cases command <;> cases reply <;> first | exact .created | exact .attached | cases h

theorem not_accepts_of_session {command : Command} {reply : Frame}
    (h : command.session? reply = none) : ¬ Accepts command.request reply := by
  intro ha
  cases command <;> cases ha <;> cases h

theorem carries_act {O : Opening → Prop} {a : Act} (hi : Sound s)
    (hc : s.phase.conn? = some framed) (hn : s'.connections = s.connections)
    (hc' : s'.phase.conn? = some framed ∨ s'.phase.conn? = none)
    (ha : actsOf ⟨s, e, s'⟩ = [(framed, a)])
    (hs : Dialogue.Carries O (s.phase.pos (s.openingOf framed)) [a] (s'.posOn framed)) :
    Dialogue.Carries O (s.posOn c) (entriesOf c (actsOf ⟨s, e, s'⟩)) (s'.posOn c) := by
  rw [ha]
  by_cases hcf : framed = c
  · subst hcf
    rw [entriesOf_self, posOn_current hc (hi.conn_lt hc)]
    exact hs
  · have h₁ : s.phase.conn? ≠ some c := by simpa [hc] using hcf
    have h₂ : s'.phase.conn? ≠ some c := by
      rcases hc' with hc' | hc'
      · simpa [hc'] using hcf
      · simp [hc']
    rw [entriesOf_of_ne hcf, posOn_other h₁, posOn_other h₂, hn]
    exact .refl

theorem carries_quiet {O : Opening → Prop} (hn : s'.connections = s.connections)
    (ha : actsOf ⟨s, e, s'⟩ = [])
    (hc : s'.phase.conn? = none ∨ s'.phase.conn? = s.phase.conn? ∧
      ∀ c, s'.phase.pos (s'.openingOf c) = s.phase.pos (s.openingOf c)) :
    Dialogue.Carries O (s.posOn c) (entriesOf c (actsOf ⟨s, e, s'⟩)) (s'.posOn c) := by
  rw [ha, entriesOf_nil]
  rcases hc with hc | ⟨hc, hp⟩
  · rw [posOn_other (s := s') (by simp [hc]), hn, State.posOn]
    split
    · exact .refl
    · exact .drop
  · have hpos : s'.posOn c = s.posOn c := by simp only [State.posOn, hn, hc, hp]
    rw [hpos]
    exact .refl

theorem carries_opens {O : Opening → Prop} (hc : s.phase.conn? = none)
    (hn : s'.connections = s.connections + 1) (hc' : s'.phase.conn? = some s.connections)
    (ha : actsOf ⟨s, e, s'⟩ = []) (op : Opening) (hO : c = s.connections → O op)
    (hp : s'.phase.pos (s'.openingOf s.connections) = .asking op) :
    Dialogue.Carries O (s.posOn c) (entriesOf c (actsOf ⟨s, e, s'⟩)) (s'.posOn c) := by
  rw [ha, entriesOf_nil, posOn_other (s := s) (by simp [hc])]
  by_cases hcc : c = s.connections
  · subst hcc
    rw [posOn_current hc' (hn ▸ Nat.lt_succ_self _), hp, if_pos (Nat.le_refl _)]
    exact .opens (hO rfl)
  · have hle : s'.connections ≤ c ↔ s.connections ≤ c := by
      rw [hn]
      exact ⟨Nat.le_of_succ_le, fun h => Nat.lt_of_le_of_ne h (Ne.symm hcc)⟩
    rw [posOn_other (s := s') (by simpa [hc'] using Ne.symm hcc)]
    simp only [hle]
    exact .refl

theorem conn?_of_send {f : Frame} (hf : s.send? = some (framed, f)) :
    s.phase.conn? = some framed := by
  cases hp : s.phase <;> simp_all [State.send?, Phase.conn?]

theorem due_of_send {f : Frame} (hi : Sound s) (hf : s.send? = some (framed, f)) :
    Due (s.phase.pos (s.openingOf framed)) f := by
  cases hp : s.phase with
  | requesting =>
    obtain ⟨rfl, rfl⟩ : _ = framed ∧ _ = f := by simpa [State.send?, hp] using hf
    obtain ⟨rfl, -⟩ := hi.asking_inv (.inl hp)
    exact .request (o := s.options.opening)
  | attaching =>
    obtain ⟨rfl, rfl⟩ : _ = framed ∧ _ = f := by simpa [State.send?, hp] using hf
    obtain ⟨-, hn, -⟩ := hi.attaching_inv (.inl hp)
    rw [openingOf_of_ne hn]
    exact .request (o := ⟨.attach s.session, [], true⟩)
  | sendEnv | sendResize | sendRedraw | sending =>
    obtain ⟨rfl, rfl⟩ : _ = framed ∧ _ = f := by simpa [State.send?, hp] using hf
    obtain ⟨-, he, -, hrel, -⟩ := hi.relay (by rw [hp]; rfl)
    first | exact he ▸ .env | exact .resize | exact .redraw | exact .relayed (hrel _ _ hp)
  | _ => simp [State.send?, hp] at hf

theorem carries_sent {O : Opening → Prop} {f : Frame} (hi : Sound s)
    (hf : s.send? = some (framed, f)) (hn : s'.connections = s.connections)
    (hc' : s'.phase.conn? = some framed)
    (hpos : s'.phase.pos (s'.openingOf framed) = (s.phase.pos (s.openingOf framed)).next) :
    Dialogue.Carries O (s.posOn c) (entriesOf c (actsOf ⟨s, .sent true, s'⟩)) (s'.posOn c) := by
  have hc : s.phase.conn? = some framed := conn?_of_send hf
  refine carries_act hi hc hn (.inl hc') (actsOf_sent hf) ?_
  rw [posOn_current hc' (hn ▸ hi.conn_lt hc), hpos]
  exact .act (.sent (due_of_send hi hf))

theorem carries_read_over {O : Opening → Prop} {f : Frame} (hi : Sound s)
    (hr : s.phase.reads? = some framed) (hn : s'.connections = s.connections)
    (hc' : s'.phase.conn? = none)
    (hh : Hears (s.phase.pos (s.openingOf framed)) f .over) :
    Dialogue.Carries O (s.posOn c) (entriesOf c (actsOf ⟨s, .next (some (.ok f)), s'⟩))
      (s'.posOn c) := by
  have hc : s.phase.conn? = some framed := by
    cases hp : s.phase <;> simp_all [Phase.reads?, Phase.conn?]
  refine carries_act hi hc hn (.inr hc') (actsOf_read hr) ?_
  rw [posOn_other (s := s') (by simp [hc']), if_neg (Nat.not_le.2 (hn ▸ hi.conn_lt hc))]
  exact .act (.read hh)

theorem carries_failed {O : Opening → Prop} {f : Frame} (hi : Sound s)
    (hf : s.send? = some (framed, f)) (hn : s'.connections = s.connections)
    (hc' : s'.phase.conn? = none) :
    Dialogue.Carries O (s.posOn c) (entriesOf c (actsOf ⟨s, .sent false, s'⟩)) (s'.posOn c) := by
  have hc : s.phase.conn? = some framed := conn?_of_send hf
  refine carries_act hi hc hn (.inr hc') (actsOf_sent hf) ?_
  rw [posOn_other (s := s') (by simp [hc']), if_neg (Nat.not_le.2 (hn ▸ hi.conn_lt hc))]
  exact .act (.failed (due_of_send hi hf))

theorem pos_startRelay (s : State) (framed : Conn) (he : s.env = (s.openingOf framed).env) :
    (s.startRelay framed).phase.pos ((s.startRelay framed).openingOf framed) =
      (s.openingOf framed).first ∧ (s.startRelay framed).phase.conn? = some framed ∧
      (s.startRelay framed).connections = s.connections := by
  obtain ⟨p, hs, hp⟩ := startRelay_eq s framed
  rw [hs, Opening.first, ← he]
  rcases hp with ⟨h, rfl⟩ | ⟨h, rfl⟩
  · rw [if_pos h]
    exact ⟨rfl, rfl, rfl⟩
  · rw [if_neg (by simp [h])]
    exact ⟨rfl, rfl, rfl⟩

theorem Performs.conn {p : Phase} (h : Performs framed p) :
    p.conn? = some framed ∨ p.conn? = none := by
  cases h with
  | done | data | suspend => exact .inl rfl
  | detach => exact .inr rfl

theorem posOn_performs (h : Performs framed s.phase) (hl : framed < s.connections) :
    s.posOn framed = .relaying ∨ s.posOn framed = .over := by
  rcases h.conn with hc | hc
  · rw [posOn_current hc hl]
    generalize s.phase = p at h hc
    cases h with
    | done | data | suspend => exact .inl rfl
    | detach => cases hc
  · rw [posOn_other (by simp [hc]), if_neg (Nat.not_le.2 hl)]
    exact .inr rfl

theorem IsPassive.not_last {f : Frame} (h : IsPassive f) : ¬ IsLast f := by
  cases f <;> first | exact not_false | exact h.elim

theorem carries_passive {O : Opening → Prop} {f : Frame} (hi : Sound s)
    (hp : s.phase = .relay framed) (hn : s'.connections = s.connections)
    (hp' : s'.phase = .relay framed) (hf : ¬ IsLast f) :
    Dialogue.Carries O (s.posOn c) (entriesOf c (actsOf ⟨s, .next (some (.ok f)), s'⟩))
      (s'.posOn c) := by
  have hc : s.phase.conn? = some framed := by rw [hp]; rfl
  have hc' : s'.phase.conn? = some framed := by rw [hp']; rfl
  refine carries_act hi hc hn (.inl hc') (actsOf_read (by rw [hp]; rfl)) ?_
  rw [posOn_current hc' (hn ▸ hi.conn_lt hc), hp, hp']
  exact .act (.read (.passive hf))

/-- **What a move does on a connection leads from the position before it to that after it.** -/
theorem dialogue_step (h : Step s e s') (hi : Sound s) :
    Dialogue.Carries (Opens s.options c) (s.posOn c) (entriesOf c (actsOf ⟨s, e, s'⟩))
      (s'.posOn c) := by
  cases h with
  | typed | eof | resized | elapse => exact carries_quiet rfl rfl (.inr ⟨rfl, fun _ => rfl⟩)
  | fail => exact carries_quiet rfl rfl (.inl rfl)
  | @opened ok hp =>
    cases ok with
    | true =>
      cases hi with
      | opening _ hc =>
        refine carries_opens (by rw [hp]; rfl) rfl rfl rfl s.options.opening ?_ ?_
        · exact fun h => .first (h.trans hc)
        · simp [State.onOpened, Phase.pos, State.openingOf, hc]
      | relaying hp' => simp [hp, Phase.relayed?] at hp'
      | asking hp' | away hp' | attaching hp' | exited hp' => simp [hp] at hp'
    | false =>
      rw [State.onOpened]
      cases s.options.command with
      | newSession => exact carries_quiet rfl rfl (.inl rfl)
      | attach => exact carries_quiet rfl rfl (.inr ⟨rfl, fun _ => rfl⟩)
  | @requestSent framed hp =>
    have hf : s.send? = some (framed, s.options.command.request) := by rw [State.send?, hp]
    exact carries_sent hi hf rfl rfl (by rw [hp]; rfl)
  | @requestFailed framed hp =>
    have hf : s.send? = some (framed, s.options.command.request) := by rw [State.send?, hp]
    exact carries_failed hi hf rfl rfl
  | @accepted framed reply session hp hs =>
    obtain ⟨rfl, -⟩ := hi.asking_inv (.inr hp)
    obtain ⟨hpos, hc, hn⟩ := pos_startRelay (s.setUp session) 0 rfl
    have hc₀ : s.phase.conn? = some 0 := by rw [hp]; rfl
    refine carries_act hi hc₀ hn (.inl hc) (actsOf_read (by rw [hp]; rfl)) ?_
    rw [State.enterRun, posOn_current hc ((hi.conn_lt hc₀).trans_eq hn.symm), hpos, hp]
    exact .act (.read (.accept (accepts_of_session hs)))
  | @refused framed reply hp hs =>
    obtain ⟨rfl, -⟩ := hi.asking_inv (.inr hp)
    have hreads : s.phase.reads? = some 0 := by rw [hp]; rfl
    refine carries_read_over hi hreads rfl rfl ?_
    rw [hp]
    exact .refuse (not_accepts_of_session hs)
  | unanswered hp hr => exact carries_quiet rfl (actsOf_noFrame hr) (.inl rfl)
  | @envSent framed hp =>
    have hf : s.send? = some (framed, .env s.env) := by rw [State.send?, hp]
    exact carries_sent hi hf rfl rfl (by rw [hp]; rfl)
  | @resizeSent framed size hp hr =>
    have hf : s.send? = some (framed, .resize size.1 size.2) := by rw [State.send?, hp]
    have hrel : s.phase.relayed? = some framed := by rw [hp]; rfl
    obtain ⟨-, -, hr', -⟩ := hi.relay hrel
    refine carries_sent hi hf rfl rfl ?_
    rw [hp]
    exact (if_neg (by simp [← hr', hr])).symm
  | @resizeSentRedraw framed size hp hr =>
    have hf : s.send? = some (framed, .resize size.1 size.2) := by rw [State.send?, hp]
    have hrel : s.phase.relayed? = some framed := by rw [hp]; rfl
    obtain ⟨-, -, hr', -⟩ := hi.relay hrel
    refine carries_sent hi hf rfl rfl ?_
    rw [hp]
    exact (if_pos (hr'.symm.trans hr)).symm
  | @redrawSent framed hp =>
    have hf : s.send? = some (framed, .data [ctrlL]) := by rw [State.send?, hp]
    exact carries_sent hi hf rfl rfl (by rw [hp]; rfl)
  | @sent framed frame actions hp =>
    have hf : s.send? = some (framed, frame) := by rw [State.send?, hp]
    have hc : s.phase.conn? = some framed := conn?_of_send hf
    have hsays : Says (s.phase.pos (s.openingOf framed)) (.sent frame true) .relaying := by
      have hd := due_of_send hi hf
      rw [hp] at hd ⊢
      exact .sent hd
    obtain ⟨p, hs, hp'⟩ := perform_eq s framed actions
    rw [hs]
    refine carries_act hi hc rfl hp'.conn (actsOf_sent hf) ?_
    rcases posOn_performs (s := { s with phase := p }) hp' (hi.conn_lt hc) with h | h
    · exact h ▸ .act hsays
    · exact h ▸ (Dialogue.Carries.act hsays).trans .drop
  | sendFailed hp hf => exact carries_failed hi hf rfl rfl
  | inputEnded => exact carries_quiet rfl rfl (.inl rfl)
  | @input framed n hp =>
    obtain ⟨escape, p, hs, hp'⟩ := onInput_eq { s with stdin := s.stdin.drop n } framed
      (s.stdin.take n)
    rw [hs]
    refine carries_quiet rfl rfl ?_
    rw [hp]
    cases hp' with
    | done | data | suspend => exact .inr ⟨rfl, fun _ => rfl⟩
    | detach => exact .inl rfl
  | pong hp => exact carries_passive hi hp rfl hp not_false
  | @exit framed code hp =>
    have hreads : s.phase.reads? = some framed := by rw [hp]; rfl
    refine carries_read_over hi hreads rfl rfl ?_
    rw [hp]
    exact .last trivial
  | @detached framed hp =>
    have hreads : s.phase.reads? = some framed := by rw [hp]; rfl
    refine carries_read_over hi hreads rfl rfl ?_
    rw [hp]
    exact .last trivial
  | passive hp hf => exact carries_passive hi hp rfl hp hf.not_last
  | disconnected hp hr => exact carries_quiet rfl (actsOf_noFrame hr) (.inl rfl)
  | timeout => exact carries_quiet rfl rfl (.inl rfl)
  | winch hp | ping hp | resume hp =>
    exact carries_quiet rfl rfl (.inr ⟨by rw [hp]; rfl, fun _ => by rw [hp]; rfl⟩)
  | interrupt | swallow | wake => exact carries_quiet rfl rfl (.inl rfl)
  | @reconnected ok hp =>
    cases ok with
    | false => exact carries_quiet rfl rfl (.inl rfl)
    | true =>
      obtain ⟨hc, -, reply, hk⟩ := hi.away_inv (.inr hp)
      refine carries_opens (by rw [hp]; rfl) rfl rfl rfl ⟨.attach s.session, [], true⟩ ?_ ?_
      · exact fun h => .again (h ▸ hc.ne') hk
      · simp [State.onReconnected, Phase.pos, State.openingOf, hc.ne']
  | @attachSent framed hp =>
    have hf : s.send? = some (framed, .attach s.session) := by rw [State.send?, hp]
    exact carries_sent hi hf rfl rfl (by rw [hp]; rfl)
  | @attachFailed framed hp =>
    have hf : s.send? = some (framed, .attach s.session) := by rw [State.send?, hp]
    exact carries_failed hi hf rfl rfl
  | @reattached framed hp =>
    obtain ⟨-, hn, he, -⟩ := hi.attaching_inv (.inr hp)
    have ho : s.openingOf framed = ⟨.attach s.session, [], true⟩ := openingOf_of_ne hn
    obtain ⟨hpos, hc, hc'⟩ := pos_startRelay { s with redraw := true } framed
      (he.trans (congrArg Opening.env ho).symm)
    have hc₀ : s.phase.conn? = some framed := by rw [hp]; rfl
    refine carries_act hi hc₀ hc' (.inl hc) (actsOf_read (by rw [hp]; rfl)) ?_
    rw [posOn_current hc ((hi.conn_lt hc₀).trans_eq hc'.symm), hpos, hp]
    exact .act (.read (.accept (ho ▸ .attached)))
  | @sessionGone framed message hp =>
    obtain ⟨-, hn, -⟩ := hi.attaching_inv (.inr hp)
    have hreads : s.phase.reads? = some framed := by rw [hp]; rfl
    refine carries_read_over hi hreads rfl rfl ?_
    rw [hp, openingOf_of_ne hn]
    exact .refuse fun h => by cases h
  | @notReattached framed frame hp hf =>
    obtain ⟨-, hn, -⟩ := hi.attaching_inv (.inr hp)
    have hreads : s.phase.reads? = some framed := by rw [hp]; rfl
    refine carries_read_over hi hreads rfl rfl ?_
    rw [hp, openingOf_of_ne hn]
    refine .refuse fun ha => ?_
    cases ha
    exact hf rfl
  | reattachLost hp hr => exact carries_quiet rfl (actsOf_noFrame hr) (.inl rfl)

/-- The client follows the protocol on each of its connections. -/
theorem dialogue (hr : lts.Run (.init o) tr s) (c : Conn) :
    Dialogue (Opens o c) .unopened (actsOn c tr) := by
  have h : Dialogue.Carries (Opens o c) .unopened (actsOn c tr) (s.posOn c) := by
    induction hr with
    | refl => exact .refl
    | @tail tr s s' e hr hst ih =>
      have ha : actsOn c (tr ++ [⟨s, e, s'⟩]) = actsOn c tr ++ entriesOf c (actsOf ⟨s, e, s'⟩) := by
        simp [actsOn, acts]
      rw [ha]
      exact ih.trans (options_eq hr ▸ dialogue_step (step_cases hst) (sound hr))
  exact List.append_nil (actsOn c tr) ▸ h [] .nil

/-! ### What the client writes -/

/-- The frames written on the connections, and those whose sending failed. -/
def written (tr : List (Move State Event)) : List (Conn × Frame) :=
  (acts tr).filterMap fun p => (frame? p.2).map fun f => (p.1, f)

/-- The frame carries variables. -/
def isEnv : Frame → Bool
  | .env _ => true
  | _ => false

/-- What the client writes on its connections. -/
structure Speech (o : Options) (tr : List (Move State Event)) : Prop where
  /-- `NewSession` or `Attach`, at most one `Env`, `Resize`, a Ctrl-L on redraw, and then `Data`,
  `Resize` and `Ping` -/
  frames : ∀ c, ∃ op cols rows rest, Opens o c op ∧ (∀ f ∈ rest, IsRelayed f) ∧
    said (actsOn c tr) <+: op.request :: (op.envFrames ++ .resize cols rows ::
      (op.redrawFrames ++ rest))
  /-- a frame after the request is written after a reply that grants it -/
  granted : ∀ c pre f ok post, actsOn c tr = pre ++ .sent f ok :: post → pre = [] ∨
    ∃ request reply more, pre = .sent request true :: .read reply :: more ∧ Accepts request reply
  /-- nothing is written after a `Detached` or an `Exit` was read -/
  stops : ∀ c pre f post, actsOn c tr = pre ++ .read f :: post → IsLast f → post = []
  /-- `Env` is written once at most, on the first connection of `new_session` -/
  env : ((written tr).filter fun p => isEnv p.2).length ≤ 1 ∧
    ∀ c vars, (c, .env vars) ∈ written tr → c = 0 ∧ ∃ name, o.command = .newSession name

theorem entriesOf_written : entriesOf c (written tr) = said (actsOn c tr) := entriesOf_filterMap

theorem exists_opens (o : Options) (c : Conn) : ∃ op, Opens o c op := by
  by_cases hc : c = 0
  · exact ⟨_, .first hc⟩
  · have hs : ∃ reply session, o.command.session? reply = some session := by
      cases o.command with
      | newSession => exact ⟨.sessionCreated "", "", rfl⟩
      | attach target => exact ⟨.ok, target, rfl⟩
    obtain ⟨reply, session, hs⟩ := hs
    exact ⟨_, .again hc hs⟩

theorem Opens.not_env {op : Opening} (h : Opens o c op) : isEnv op.request = false := by
  cases h with
  | first => cases hc : o.command <;> simp [Options.opening, Command.request, hc, isEnv]
  | again => rfl

theorem Opens.first_of_env {op : Opening} (h : Opens o c op) (he : op.env ≠ []) :
    c = 0 ∧ ∃ name, o.command = .newSession name := by
  cases h with
  | first hc =>
    refine ⟨hc, ?_⟩
    cases hcmd : o.command with
    | newSession name => exact ⟨name, rfl⟩
    | attach => simp [Options.opening, Options.envVars, hcmd] at he
  | again => exact absurd rfl he

theorem IsRelayed.not_env {f : Frame} (h : IsRelayed f) : isEnv f = false := by
  cases h <;> rfl

theorem filter_isEnv {op : Opening} {cols rows : UInt16} {rest : List Frame}
    (hop : isEnv op.request = false) (hr : ∀ f ∈ rest, IsRelayed f) :
    (op.request :: (op.envFrames ++ .resize cols rows :: (op.redrawFrames ++ rest))).filter isEnv =
      op.envFrames := by
  have hrest : rest.filter isEnv = [] :=
    List.filter_eq_nil_iff.2 fun f hf => by simp [(hr f hf).not_env]
  have hredraw : op.redrawFrames.filter isEnv = [] := by
    unfold Opening.redrawFrames
    split <;> rfl
  have henv : op.envFrames.filter isEnv = op.envFrames := by
    unfold Opening.envFrames
    split <;> rfl
  rw [List.filter_cons, hop, List.filter_append, List.filter_cons, List.filter_append, henv,
    hredraw, hrest]
  exact List.append_nil _

theorem frames_of_dialogue {as : List Act} (h : Dialogue (Opens o c) .unopened as) :
    ∃ op cols rows rest, Opens o c op ∧ (∀ f ∈ rest, IsRelayed f) ∧ said as <+:
      op.request :: (op.envFrames ++ .resize cols rows :: (op.redrawFrames ++ rest)) := by
  obtain ⟨op, hop, hd⟩ := h.of_unopened (exists_opens o c)
  obtain ⟨cols, rows, rest, hr, hp⟩ := hd.said_le_script (by simp)
  exact ⟨op, cols, rows, rest, hop, hr, hp⟩

theorem env_of_dialogue {as : List Act} (h : Dialogue (Opens o c) .unopened as) :
    ((said as).filter isEnv).length ≤ 1 ∧
      ∀ vars, .env vars ∈ said as → c = 0 ∧ ∃ name, o.command = .newSession name := by
  obtain ⟨op, cols, rows, rest, hop, hr, hp⟩ := frames_of_dialogue h
  have hf := hp.filter isEnv
  rw [filter_isEnv hop.not_env hr] at hf
  refine ⟨hf.length_le.trans ?_, fun vars hv => hop.first_of_env fun he => ?_⟩
  · unfold Opening.envFrames
    split <;> simp
  · have hv' := hf.subset (List.mem_filter.2 ⟨hv, rfl⟩)
    simp [Opening.envFrames, he] at hv'

/-- **The protocol of a connection, seen from the client.**  In every run, on every connection: the
frames written are a prefix of the request, at most one `Env`, a `Resize`, a Ctrl-L if the
connection is opened to redraw, and any `Data`, `Resize` and `Ping` frames; those after the request
are written after a reply that grants it; and none is written after a `Detached` or an `Exit` was
read.  The connections after the first are opened with `Attach`, and `Env` is written once at most,
on the first connection of `new_session`. -/
theorem speech (hr : lts.Run (.init o) tr s) : Speech o tr where
  frames c := frames_of_dialogue (dialogue hr c)
  granted c pre f ok post ha := by
    obtain ⟨op, -, hd⟩ := (dialogue hr c).of_unopened (exists_opens o c)
    rcases hd.answered with h | ⟨ok', h⟩ | ⟨reply, more, h, hacc⟩
    · simp [h] at ha
    · rcases pre with _ | ⟨a, pre⟩
      · exact .inl rfl
      · simp [h] at ha
    · rw [h] at ha
      rcases pre with _ | ⟨a, _ | ⟨b, pre⟩⟩
      · exact .inl rfl
      · simp at ha
      · simp only [List.cons_append, List.cons.injEq] at ha
        obtain ⟨rfl, rfl, rfl⟩ := ha
        exact .inr ⟨_, _, pre, rfl, hacc.resolve_right (by simp)⟩
  stops c _ _ _ ha hf := (dialogue hr c).stops ha hf
  env := by
    have hmem : ∀ {c vars}, (c, .env vars) ∈ written tr →
        c = 0 ∧ ∃ name, o.command = .newSession name := by
      intro c vars h
      exact (env_of_dialogue (dialogue hr c)).2 vars (entriesOf_written ▸ mem_entriesOf.2 h)
    refine ⟨?_, fun c vars => hmem⟩
    rw [length_filter_entriesOf (c := 0), entriesOf_written]
    · exact (env_of_dialogue (dialogue hr 0)).1
    · rintro ⟨c, f⟩ hp hf
      cases f with
      | env vars => exact (hmem hp).1
      | _ => cases hf

/-- A user creates a session and types, and the connection is lost. -/
def lostEvents : List Event :=
  [.connect true, .sent true, .next (some (.ok (.sessionCreated "0"))), .sent true, .sent true,
    .typed [0x6c, 0x73], .read 2, .sent true, .next none, .elapse 1000, .wake none, .connect true,
    .sent true, .next (some (.ok .ok)), .sent true]

/-- A client with a variable to forward. -/
def lostOptions : Options where
  command := .newSession (some "work")
  noEscape := false
  var k := if k = "TERM" then some "xterm" else none

/-- The second connection attaches to the session. -/
theorem speech_lost :
    ∃ s, LTS.exec step (.init lostOptions) lostEvents = some s ∧
      Speech lostOptions (LTS.trace step (.init lostOptions) lostEvents) ∧
      written (LTS.trace step (.init lostOptions) lostEvents) =
        [(0, .newSession "work"), (0, .env [("TERM", "xterm")]), (0, .resize 0 0),
          (0, .data [0x6c, 0x73]), (1, .attach "0"), (1, .resize 0 0)] := by
  have h : ∃ s, LTS.exec step (.init lostOptions) lostEvents = some s := ⟨_, rfl⟩
  obtain ⟨s, h⟩ := h
  exact ⟨s, h, speech (LTS.run_of_exec h), by rfl⟩

end Terminal

end Gritty
