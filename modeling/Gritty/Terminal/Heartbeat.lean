import Gritty.Terminal.Step

/-!
# The heartbeat of the client

The loop of `relay` sends a Ping at every tick and gives the connection up at a tick that comes more
than `heartbeatTimeout` after the last Pong.  Here it runs beside a server whose Pongs arrive within
`pongDelay`, on one clock: the handlers of the loop take no time, the `select!` waits only while no
branch is ready, and `suspend` lasts as long as the user likes.

A client that was never suspended keeps its connection.  One that was may take a tick before it
reads a Pong, and `last_pong` is then as old as the suspension is long.

## Main definitions

* `Timed` : the client, its Pings that were not answered, and the Pongs that it has not read.
* `Fresh`, `Inv` : while the client has not slept, its last Pong is recent.
* `Overslept` : a tick is taken behind a suspension, before the first Pong.

## Main results

* `beat` : the moves of the two.
* `inv_step`, `inv_of_run` : the invariant.
* `overslept_of_timesOut` : only a client that was suspended gives a connection up.
* `noTimeout_iff` : a run has no timeout if and only if the client never overslept.
* `noTimeout_of_awake` : a client that is never suspended never gives a prompt server up.
-/

namespace Gritty

namespace Terminal

/-- The Pong to a Ping arrives within this time. -/
def pongDelay : ℕ := 10000

/-- In the loop of `relay`. -/
def Phase.looping : Phase → Bool
  | .relay _ | .sending _ _ _ | .suspended _ _ => true
  | _ => false

/-- A Ping is being sent. -/
def Phase.pinging : Phase → Bool
  | .sending _ .ping _ => true
  | _ => false

/-- Stopped by `suspend`. -/
def Phase.stopped : Phase → Bool
  | .suspended _ _ => true
  | _ => false

/-- A Pong is read. -/
def Event.isPong : Event → Bool
  | .next (some (.ok .pong)) => true
  | _ => false

/-- A Ping has been sent. -/
def State.pings (s : State) : Event → Bool
  | .sent true => s.phase.pinging
  | _ => false

/-- The client with its Pings and their Pongs, all given by the times at which the Pings were sent,
oldest first. -/
structure Timed where
  client : State
  /-- no Pong has arrived -/
  due : List ℕ
  /-- the Pong has arrived and was not read -/
  inbox : List ℕ
  /-- the client was suspended and has read no Pong since -/
  slept : Bool

/-- A step of the client, or a Pong that arrives. -/
inductive TimedEvent where
  | client (e : Event)
  /-- a Pong arrives -/
  | pong

namespace Timed

/-- The client is started, and nothing is under way. -/
def init (o : Options) : Timed := ⟨.init o, [], [], false⟩

variable (s : Timed)

/-- The clock may go on to `t`: not past the time of a Pong, not while the `select!` has a Pong or a
tick, and not in the other handlers. -/
def mayAdvance (t : ℕ) : Bool :=
  s.due.all (fun u => decide (t ≤ u + pongDelay)) &&
    match s.client.phase with
    | .relay _ => s.inbox.isEmpty && decide (t ≤ s.client.nextTick)
    | .sending _ _ _ => decide (t ≤ s.client.now)
    | _ => true

/-- The clock does not pass what is due, and a Pong is read after it has arrived. -/
def allows : Event → Bool
  | .elapse ms => s.mayAdvance (s.client.now + ms)
  | e => !e.isPong || !s.inbox.isEmpty

/-- The Pings are forgotten with their connection. -/
def after (e : Event) (client : State) : Timed :=
  if client.phase.looping then
    { client := client
      due := if s.client.pings e then s.due ++ [s.client.now] else s.due
      inbox := if e.isPong then s.inbox.tail else s.inbox
      slept := client.phase.stopped || (s.slept && !e.isPong) }
  else ⟨client, [], [], false⟩

/-- What an event does, when it can happen. -/
def step : TimedEvent → Option Timed
  | .client e => if s.allows e then (Terminal.step s.client e).map (s.after e) else none
  | .pong =>
    match s.due with
    | u :: due => some { s with due := due, inbox := s.inbox ++ [u] }
    | [] => none

/-- The client beside a server that answers in time. -/
def lts : LTS Timed TimedEvent := .ofFun step

end Timed

/-! ### What a move does to the timers -/

/-- What the moves of the client do to its timers, as long as it is in the loop behind them. -/
inductive Beat (s : State) (e : Event) (s' : State) : Prop
  | away : s'.phase.looping = false → Beat s e s'
  | enter : s.phase.looping = false → s.pings e = false → e.isPong = false →
      s'.phase.pinging = false → s'.lastPong = s'.now → s'.nextTick = s'.now + heartbeatInterval →
      Beat s e s'
  | elapse {ms} : e = .elapse ms → s' = { s with now := s.now + ms } → Beat s e s'
  | pong : s.pings e = false → e.isPong = true → s.phase.pinging = false →
      s' = { s with lastPong := s.now } → Beat s e s'
  | tick {framed} : e = .tick → s.phase = .relay framed → s.nextTick ≤ s.now →
      s' = { s with
        nextTick := s.nextTick + heartbeatInterval
        phase := .sending framed .ping [] } →
      Beat s e s'
  | pinged : s.pings e = true → e.isPong = false → s.phase.pinging = true →
      s'.phase.pinging = false → s'.now = s.now →
      s'.lastPong = s.lastPong → s'.nextTick = s.nextTick → Beat s e s'
  | quiet : s.phase.looping = true → s.pings e = false → e.isPong = false →
      s'.phase.pinging = s.phase.pinging → s'.now = s.now → s'.lastPong = s.lastPong →
      s'.nextTick = s.nextTick → Beat s e s'

variable {s s' : State} {e : Event} {framed : Conn}

theorem Performs.pinging {p : Phase} (h : Performs framed p) : p.pinging = false := by
  cases h <;> rfl

theorem looping_of_pinging (h : s.phase.pinging = true) : s.phase.looping = true := by
  cases hp : s.phase with
  | sending => rfl
  | _ =>
    rw [hp] at h
    cases h

theorem Beat.around (hs : s'.phase = s.phase) (hp : s.pings e = false) (hi : e.isPong = false)
    (hn : s'.now = s.now) (hl : s'.lastPong = s.lastPong) (ht : s'.nextTick = s.nextTick) :
    Beat s e s' := by
  by_cases h : s.phase.looping = true
  · exact .quiet h hp hi (by rw [hs]) hn hl ht
  · exact .away (by simpa [hs] using h)

theorem startRelay_looping (s : State) (framed : Conn) :
    (s.startRelay framed).phase.looping = false := by
  obtain ⟨p, hs, ⟨-, rfl⟩ | ⟨-, rfl⟩⟩ := startRelay_eq s framed <;> rw [hs] <;> rfl

theorem onOpened_looping (s : State) (hp : s.phase = .opening) (ok : Bool) :
    (s.onOpened ok).phase.looping = false := by
  unfold State.onOpened
  cases ok with
  | true => rfl
  | false =>
    cases s.options.command with
    | newSession => rfl
    | attach =>
      change s.phase.looping = false
      rw [hp]
      rfl

/-- **Every move is one of these.** -/
theorem beat (h : lts.step s e s') : Beat s e s' := by
  cases step_cases h with
  | typed => exact .around rfl rfl rfl rfl rfl rfl
  | eof => exact .around rfl rfl rfl rfl rfl rfl
  | resized => exact .around rfl rfl rfl rfl rfl rfl
  | elapse => exact .elapse rfl rfl
  | opened hp => exact .away (onOpened_looping s hp _)
  | accepted => exact .away (startRelay_looping _ _)
  | envSent => exact .away rfl
  | resizeSent hp => exact .enter (by rw [hp]; rfl) (by rw [State.pings, hp]; rfl) rfl rfl rfl rfl
  | redrawSent hp => exact .enter (by rw [hp]; rfl) (by rw [State.pings, hp]; rfl) rfl rfl rfl rfl
  | @sent framed frame actions hp =>
    obtain ⟨p, hs, hpf⟩ := perform_eq s framed actions
    rw [hs]
    by_cases hf : s.phase.pinging = true
    · exact .pinged hf rfl hf hpf.pinging rfl rfl rfl
    · have hf : s.phase.pinging = false := by simpa using hf
      exact .quiet (by rw [hp]; rfl) hf rfl (hpf.pinging.trans hf.symm) rfl rfl rfl
  | @input framed n hp =>
    obtain ⟨esc, p, hs, hpf⟩ :=
      onInput_eq { s with stdin := s.stdin.drop n } framed (s.stdin.take n)
    rw [hs]
    exact .quiet (by rw [hp]; rfl) rfl rfl (hpf.pinging.trans (by rw [hp]; rfl)) rfl rfl rfl
  | pong hp => exact .pong rfl rfl (by rw [hp]; rfl) rfl
  | @passive _ frame hp hf =>
    refine .around rfl rfl ?_ rfl rfl rfl
    cases frame with
    | pong => exact hf.elim
    | _ => rfl
  | winch hp => exact .quiet (by rw [hp]; rfl) rfl rfl (by rw [hp]; rfl) rfl rfl rfl
  | ping hp ht => exact .tick rfl hp ht rfl
  | resume hp => exact .quiet (by rw [hp]; rfl) rfl rfl (by rw [hp]; rfl) rfl rfl rfl
  | reconnected =>
    refine .away ?_
    cases ‹Bool› <;> rfl
  | reattached => exact .away (startRelay_looping _ _)
  | _ => exact .away rfl

/-! ### What holds in the loop -/

namespace Timed

/-- The Pings without a Pong that was read. -/
def pending (s : Timed) : List ℕ := s.inbox ++ s.due

/-- What holds whether the client was suspended or not. -/
structure Sane (s : Timed) : Prop where
  sent : ∀ u ∈ s.pending, u ≤ s.client.now
  prompt : ∀ u ∈ s.due, s.client.now ≤ u + pongDelay
  tick : s.client.phase.looping = true → s.client.nextTick ≤ s.client.now + heartbeatInterval
  away : s.client.phase.looping = false → s.pending = []

/-- What holds if it was not: a Ping follows each Pong in time, and its Pong or the next tick is
never far. -/
structure Fresh (s : Timed) : Prop where
  first : ∀ u ∈ s.pending.head?, u ≤ s.client.lastPong + heartbeatInterval
  next : s.pending = [] → s.client.phase.pinging = false →
    s.client.nextTick ≤ s.client.lastPong + heartbeatInterval
  pinging : s.pending = [] → s.client.phase.pinging = true →
    s.client.now ≤ s.client.lastPong + heartbeatInterval
  clock : s.client.now ≤ max s.client.nextTick s.client.lastPong
  waiting : s.inbox ≠ [] → s.client.now ≤ s.client.lastPong + heartbeatTimeout

/-- What holds in every reachable state: while the client has not slept, its last Pong is fresh. -/
structure Inv (s : Timed) : Prop extends Sane s where
  fresh : s.client.phase.looping = true → s.slept = false → Fresh s

variable {s s' : Timed} {o : Options} {tr : List (Move Timed TimedEvent)}

theorem pending_cases (s : Timed) :
    s.inbox ≠ [] ∨ (∃ u ∈ s.due, s.pending.head? = some u) ∨ s.pending = [] := by
  cases hi : s.inbox with
  | cons => exact .inl nofun
  | nil =>
    cases hd : s.due with
    | nil => exact .inr (.inr (by rw [pending, hi, hd]; rfl))
    | cons u => exact .inr (.inl ⟨u, List.mem_cons_self, by rw [pending, hi, hd]; rfl⟩)

/-- **The heartbeat of a client that was not suspended has not run out.** -/
theorem Fresh.inTime (h : Fresh s) (hs : Sane s) :
    s.client.now ≤ s.client.lastPong + heartbeatTimeout := by
  obtain hi | ⟨u, hu, hf⟩ | hp := s.pending_cases
  · exact h.waiting hi
  · have h₁ := h.first u hf
    have h₂ := hs.prompt u hu
    simp only [heartbeatTimeout, heartbeatInterval, pongDelay] at *
    omega
  · have hc := h.clock
    by_cases hping : s.client.phase.pinging = true
    · have h₁ := h.pinging hp hping
      simp only [heartbeatTimeout, heartbeatInterval] at *
      omega
    · have h₁ := h.next hp (by simpa using hping)
      simp only [heartbeatTimeout, heartbeatInterval] at *
      omega

theorem Fresh.first_of_pinged (h : Fresh s) (hp : s.client.phase.pinging = true) :
    ∀ u ∈ (s.pending ++ [s.client.now]).head?, u ≤ s.client.lastPong + heartbeatInterval := by
  intro u hu
  cases hq : s.pending with
  | nil =>
    rw [hq] at hu
    obtain rfl := Option.some.inj hu
    exact h.pinging hq hp
  | cons v rest =>
    rw [hq] at hu
    obtain rfl := Option.some.inj hu
    exact h.first v (by rw [hq]; rfl)

/-! ### Every step keeps it -/

theorem client_of_step {e : Event} (h : lts.step s (.client e) s') :
    s.allows e = true ∧ ∃ c, Terminal.lts.step s.client e c ∧ s' = s.after e c := by
  change (if s.allows e then _ else none) = some s' at h
  by_cases ha : s.allows e = true
  · rw [if_pos ha] at h
    obtain ⟨c, hc, hs⟩ := Option.map_eq_some_iff.1 h
    exact ⟨ha, c, hc, hs.symm⟩
  · rw [if_neg ha] at h
    cases h

theorem pong_of_step (h : lts.step s .pong s') :
    ∃ u due, s.due = u :: due ∧ s' = { s with due := due, inbox := s.inbox ++ [u] } := by
  change (match s.due with | u :: due => _ | [] => none) = some s' at h
  cases hd : s.due with
  | nil =>
    rw [hd] at h
    cases h
  | cons u due =>
    rw [hd] at h
    exact ⟨u, due, rfl, (Option.some.inj h).symm⟩

theorem inv_init (o : Options) : Inv (init o) where
  sent := nofun
  prompt := nofun
  tick := nofun
  away _ := rfl
  fresh := nofun

theorem after_away {c : State} (h : c.phase.looping = false) :
    s.after e c = ⟨c, [], [], false⟩ := by
  rw [after, if_neg (by simp [h])]

theorem inv_away {c : State} (h : c.phase.looping = false) : Inv (s.after e c) := by
  rw [after_away h]
  exact {
    sent := nofun
    prompt := nofun
    tick := fun hl => by simp [h] at hl
    away := fun _ => rfl
    fresh := fun hl => by simp [h] at hl }

theorem inv_quiet {c : State} (hi : Inv s) (hl : c.phase.looping = true)
    (hs : s.client.phase.looping = true) (hp : s.client.pings e = false) (he : e.isPong = false)
    (hph : c.phase.pinging = s.client.phase.pinging) (hn : c.now = s.client.now)
    (hlp : c.lastPong = s.client.lastPong) (ht : c.nextTick = s.client.nextTick) :
    Inv (s.after e c) := by
  have hafter : s.after e c = ⟨c, s.due, s.inbox, c.phase.stopped || s.slept⟩ := by
    simp [after, hl, hp, he]
  rw [hafter]
  refine ⟨⟨?_, ?_, ?_, ?_⟩, ?_⟩
  · exact fun u hu => hn ▸ hi.sent u hu
  · exact fun u hu => hn ▸ hi.prompt u hu
  · exact fun _ => hn ▸ ht ▸ hi.tick hs
  · exact fun h => by simp [hl] at h
  · intro _ h
    have hf := hi.fresh hs (Bool.or_eq_false_iff.1 h).2
    exact {
      first := fun u hu => hlp ▸ hf.first u hu
      next := fun hq h => hlp ▸ ht ▸ hf.next hq (hph ▸ h)
      pinging := fun hq h => hlp ▸ hn ▸ hf.pinging hq (hph ▸ h)
      clock := hlp ▸ hn ▸ ht ▸ hf.clock
      waiting := fun hw => hlp ▸ hn ▸ hf.waiting hw }

theorem inv_enter {c : State} (hi : Inv s) (hl : c.phase.looping = true)
    (hs : s.client.phase.looping = false) (hp : s.client.pings e = false) (he : e.isPong = false)
    (hph : c.phase.pinging = false) (hlp : c.lastPong = c.now)
    (ht : c.nextTick = c.now + heartbeatInterval) : Inv (s.after e c) := by
  have hq := hi.away hs
  obtain ⟨hin, hdue⟩ := List.append_eq_nil_iff.1 hq
  have hafter : s.after e c = ⟨c, [], [], c.phase.stopped || s.slept⟩ := by
    simp [after, hl, hp, he, hin, hdue]
  rw [hafter]
  refine ⟨⟨nofun, nofun, fun _ => Nat.le_of_eq ht, fun _ => rfl⟩, ?_⟩
  intro _ _
  exact {
    first := nofun
    next := fun _ _ => by
      change c.nextTick ≤ c.lastPong + _
      omega
    pinging := fun _ h => by simp [hph] at h
    clock := by
      change c.now ≤ max c.nextTick c.lastPong
      omega
    waiting := fun h => (h rfl).elim }

theorem inv_pong {c : State} (hi : Inv s) (hl : s.client.phase.looping = true)
    (hp : s.client.pings e = false) (he : e.isPong = true) (hph : s.client.phase.pinging = false)
    (hc : c = { s.client with lastPong := s.client.now }) : Inv (s.after e c) := by
  subst hc
  have hafter : s.after e { s.client with lastPong := s.client.now } =
      ⟨{ s.client with lastPong := s.client.now }, s.due, s.inbox.tail,
        s.client.phase.stopped⟩ := by
    simp [after, hl, hp, he]
  rw [hafter]
  have hsub : ∀ u ∈ s.inbox.tail ++ s.due, u ≤ s.client.now := by
    intro u hu
    refine hi.sent u ?_
    rw [pending, List.mem_append] at *
    exact hu.imp_left List.mem_of_mem_tail
  refine ⟨⟨hsub, hi.prompt, hi.tick, fun h => by simp [hl] at h⟩, fun _ _ => ?_⟩
  exact {
    first := fun u hu => Nat.le_add_right_of_le (hsub u (List.mem_of_mem_head? hu))
    next := fun _ _ => hi.tick hl
    pinging := fun _ h => by simp [hph] at h
    clock := Nat.le_max_right _ _
    waiting := fun _ => Nat.le_add_right _ _ }

theorem inv_tick {c : State} (hi : Inv s) (he : e = .tick) (hp : s.client.phase = .relay framed)
    (hle : s.client.nextTick ≤ s.client.now) (hc : c = { s.client with
      nextTick := s.client.nextTick + heartbeatInterval, phase := .sending framed .ping [] }) :
    Inv (s.after e c) := by
  subst hc he
  refine ⟨⟨hi.sent, hi.prompt, fun _ => Nat.add_le_add_right hle _, nofun⟩, fun _ h => ?_⟩
  have hslept : s.slept = false := by
    simpa [after, Phase.stopped, Event.isPong, Phase.looping] using h
  have hf := hi.fresh (by rw [hp]; rfl) hslept
  have hclock := hf.clock
  exact {
    first := hf.first
    next := nofun
    pinging := fun hq _ => by
      have h₁ := hf.next hq (by rw [hp]; rfl)
      change s.client.now ≤ s.client.lastPong + _
      omega
    clock := by
      change s.client.now ≤ max (s.client.nextTick + _) s.client.lastPong
      omega
    waiting := hf.waiting }

theorem inv_pinged {c : State} (hi : Inv s) (hl : c.phase.looping = true)
    (hp : s.client.pings e = true) (he : e.isPong = false) (hph : s.client.phase.pinging = true)
    (hn : c.now = s.client.now) (hlp : c.lastPong = s.client.lastPong)
    (ht : c.nextTick = s.client.nextTick) : Inv (s.after e c) := by
  have hs := looping_of_pinging hph
  have hafter : s.after e c =
      ⟨c, s.due ++ [s.client.now], s.inbox, c.phase.stopped || s.slept⟩ := by
    simp [after, hl, hp, he]
  rw [hafter]
  have hpend : ∀ u ∈ s.inbox ++ (s.due ++ [s.client.now]), u ∈ s.pending ∨ u = s.client.now := by
    intro u hu
    rw [← List.append_assoc] at hu
    exact (List.mem_append.1 hu).imp id List.mem_singleton.1
  have hdue : ∀ u ∈ s.due ++ [s.client.now], s.client.now ≤ u + pongDelay := by
    intro u hu
    rcases List.mem_append.1 hu with hu | hu
    · exact hi.prompt u hu
    · obtain rfl := List.mem_singleton.1 hu
      exact Nat.le_add_right _ _
  refine ⟨⟨?_, ?_, ?_, ?_⟩, ?_⟩
  · intro u hu
    change u ≤ c.now
    rw [hn]
    exact (hpend u hu).elim (hi.sent u) Nat.le_of_eq
  · exact fun u hu => hn ▸ hdue u hu
  · intro _
    change c.nextTick ≤ c.now + _
    rw [hn, ht]
    exact hi.tick hs
  · exact fun h => by simp [hl] at h
  · intro _ h
    have hf := hi.fresh hs (Bool.or_eq_false_iff.1 h).2
    refine ⟨?_, ?_, ?_, ?_, ?_⟩
    · intro u hu
      change u ∈ (s.inbox ++ (s.due ++ [s.client.now])).head? at hu
      rw [← List.append_assoc] at hu
      exact hlp ▸ hf.first_of_pinged hph u hu
    · exact fun h => by simp [pending] at h
    · exact fun h => by simp [pending] at h
    · change c.now ≤ max c.nextTick c.lastPong
      rw [hn, ht, hlp]
      exact hf.clock
    · intro hw
      change c.now ≤ c.lastPong + _
      rw [hn, hlp]
      exact hf.waiting hw

theorem inv_elapse {ms : ℕ} (hi : Inv s) (hl : s.client.phase.looping = true)
    (hm : s.mayAdvance (s.client.now + ms) = true) :
    Inv (s.after (.elapse ms) { s.client with now := s.client.now + ms }) := by
  have hafter : s.after (.elapse ms) { s.client with now := s.client.now + ms } =
      ⟨{ s.client with now := s.client.now + ms }, s.due, s.inbox,
        s.client.phase.stopped || s.slept⟩ := by
    simp [after, hl, State.pings, Event.isPong]
  rw [hafter]
  obtain ⟨hdue, hphase⟩ := Bool.and_eq_true_iff.1 hm
  refine ⟨⟨?_, ?_, ?_, ?_⟩, ?_⟩
  · exact fun u hu => Nat.le_add_right_of_le (hi.sent u hu)
  · exact fun u hu => of_decide_eq_true (List.all_eq_true.1 hdue u hu)
  · intro _
    have h := hi.tick hl
    change s.client.nextTick ≤ s.client.now + ms + _
    omega
  · exact fun h => by simp [hl] at h
  · intro _ h
    obtain ⟨hst, h⟩ := Bool.or_eq_false_iff.1 h
    have hf := hi.fresh hl h
    cases hp : s.client.phase with
    | relay framed =>
      rw [hp] at hphase
      obtain ⟨hin, hnext⟩ := Bool.and_eq_true_iff.1 hphase
      exact {
        first := hf.first
        next := hf.next
        pinging := fun _ h => by simp [hp, Phase.pinging] at h
        clock := Nat.le_trans (of_decide_eq_true hnext) (Nat.le_max_left _ _)
        waiting := fun hw => (hw (List.isEmpty_iff.1 hin)).elim }
    | sending framed frame actions =>
      rw [hp] at hphase
      obtain rfl : ms = 0 := by
        have := of_decide_eq_true hphase
        omega
      exact ⟨hf.first, hf.next, hf.pinging, hf.clock, hf.waiting⟩
    | suspended => simp [hp, Phase.stopped] at hst
    | _ => simp [hp, Phase.looping] at hl

theorem inv_arrive {u : ℕ} {due : List ℕ} (hi : Inv s) (hd : s.due = u :: due) :
    Inv { s with due := due, inbox := s.inbox ++ [u] } := by
  have hpend : pending { s with due := due, inbox := s.inbox ++ [u] } = s.pending := by
    simp [pending, hd]
  refine ⟨⟨?_, ?_, hi.tick, ?_⟩, ?_⟩
  · exact fun v hv => hi.sent v (hpend ▸ hv)
  · exact fun v hv => hi.prompt v (by simp [hd, show v ∈ due from hv])
  · exact fun h => hpend.trans (hi.away h)
  · intro hl h
    have hf := hi.fresh hl h
    refine ⟨?_, ?_, ?_, hf.clock, fun _ => hf.inTime hi.toSane⟩
    · rw [hpend]
      exact hf.first
    · rw [hpend]
      exact hf.next
    · rw [hpend]
      exact hf.pinging

theorem inv_step {e : TimedEvent} (hi : Inv s) (h : lts.step s e s') : Inv s' := by
  cases e with
  | pong =>
    obtain ⟨u, due, hd, rfl⟩ := pong_of_step h
    exact inv_arrive hi hd
  | client e =>
    obtain ⟨hall, c, hst, rfl⟩ := client_of_step h
    cases hl : c.phase.looping with
    | false => exact inv_away hl
    | true =>
      cases beat hst with
      | away h => simp [hl] at h
      | enter hs hp he hph hlp ht => exact inv_enter hi hl hs hp he hph hlp ht
      | elapse he hc =>
        subst he hc
        exact inv_elapse hi hl hall
      | pong hp he hph hc => exact inv_pong hi (by subst hc; exact hl) hp he hph hc
      | tick he hp hle hc => exact inv_tick hi he hp hle hc
      | pinged hp he hph _ hn hlp ht => exact inv_pinged hi hl hp he hph hn hlp ht
      | quiet hs hp he hph hn hlp ht => exact inv_quiet hi hl hs hp he hph hn hlp ht

theorem inv_of_run (h : lts.Run (init o) tr s) : Inv s :=
  h.reachable.invariant (inv_init o) fun _ _ _ hi hst => inv_step hi hst

/-! ### When the client gives a connection up -/

end Timed

/-- A tick is taken. -/
def TimedEvent.isTick : TimedEvent → Bool
  | .client .tick => true
  | _ => false

/-- `relay` returns `None` because of the heartbeat: a tick ends the loop. -/
def TimesOut (m : Move Timed TimedEvent) : Prop :=
  m.lbl.isTick = true ∧ m.dst.client.phase.looping = false

/-- A tick is taken before the first Pong after a suspension, and the last one before it is older
than `heartbeatTimeout`. -/
def Overslept (m : Move Timed TimedEvent) : Prop :=
  m.lbl.isTick = true ∧ m.src.slept = true ∧
    heartbeatTimeout < m.src.client.now - m.src.client.lastPong

instance (m : Move Timed TimedEvent) : Decidable (TimesOut m) :=
  inferInstanceAs (Decidable (_ ∧ _))

instance (m : Move Timed TimedEvent) : Decidable (Overslept m) :=
  inferInstanceAs (Decidable (_ ∧ _))

namespace Timed

variable {s s' : Timed} {o : Options} {tr : List (Move Timed TimedEvent)}
  {m : Move Timed TimedEvent}

theorem tick_of_step {e : TimedEvent} (h : lts.step s e s') (ht : e.isTick = true) :
    s.client.phase.looping = true ∧ (s'.client.phase.looping = false ↔
      heartbeatTimeout < s.client.now - s.client.lastPong) := by
  cases e with
  | pong => cases ht
  | client e =>
    obtain ⟨-, c, hc, rfl⟩ := client_of_step h
    cases step_cases hc with
    | ping hp hle hin =>
      refine ⟨by rw [hp]; rfl, iff_of_false (by simp [after, Phase.looping]) ?_⟩
      exact Nat.not_lt_of_le hin
    | timeout hp hle hlate => exact ⟨by rw [hp]; rfl, iff_of_true rfl hlate⟩
    | _ => cases ht

/-- Only a client that was suspended gives a connection up. -/
theorem overslept_of_timesOut (h : lts.Run (init o) tr s) (hm : m ∈ tr) (hto : TimesOut m) :
    Overslept m := by
  obtain ⟨hst, tr₁, -, -, hr⟩ := h.move hm
  obtain ⟨hl, hiff⟩ := tick_of_step hst hto.1
  have hlate := hiff.1 hto.2
  have hi := inv_of_run hr
  cases hs : m.src.slept with
  | true => exact ⟨hto.1, hs, hlate⟩
  | false =>
    have hin := (hi.fresh hl hs).inTime hi.toSane
    omega

/-- **The heartbeat gives a connection up exactly when the client overslept**: with a server that
answers every Ping in time, a run has no timeout if and only if none of its ticks comes between a
suspension and the first Pong behind it, later than `heartbeatTimeout` after the last Pong. -/
theorem noTimeout_iff (h : lts.Run (init o) tr s) :
    (∀ m ∈ tr, ¬ TimesOut m) ↔ ∀ m ∈ tr, ¬ Overslept m := by
  constructor
  · rintro hto m hm ⟨ht, -, hlate⟩
    exact hto m hm ⟨ht, (tick_of_step (h.move hm).1 ht).2.2 hlate⟩
  · intro hos m hm hto
    exact hos m hm (overslept_of_timesOut h hm hto)

/-- A client attaches, sends a Ping at the first tick, is suspended for `ms` milliseconds while the
Pong comes, and sends its size again; then it does what `rest` says. -/
def suspension (ms : ℕ) (rest : List Event) : List TimedEvent :=
  ([.connect true, .sent true, .next (some (.ok .ok)), .sent true, .elapse 5000, .tick, .sent true,
    .typed [0x7e, 0x1a], .read 2, .elapse 1000].map .client) ++
  .pong :: (.elapse ms :: .resume :: .sent true :: rest).map .client

/-- A client that attaches. -/
def attaching : Timed := .init ⟨.attach "0" false, false, fun _ => none⟩

/-- A client that reads the Pong first may have been suspended for a minute. -/
theorem noTimeout_suspension :
    ∃ tr s, lts.Run attaching tr s ∧ (∃ m ∈ tr, m.dst.slept = true) ∧ ∀ m ∈ tr, ¬ TimesOut m := by
  have hrun : ∃ s, LTS.exec step attaching
      (suspension 60000 [.next (some (.ok .pong)), .tick, .sent true]) = some s := by
    rw [← Option.isSome_iff_exists]
    decide +kernel
  obtain ⟨s, hs⟩ := hrun
  have hr := LTS.run_of_exec hs
  exact ⟨_, s, hr, by decide +kernel, (noTimeout_iff hr).2 (by decide +kernel)⟩

/-- **A prompt server is given up.**  The Pong waits in the socket, but the tick is taken first. -/
theorem timesOut_suspension : ∃ tr s, lts.Run attaching tr s ∧ ∃ m ∈ tr, TimesOut m := by
  have hrun : ∃ s, LTS.exec step attaching (suspension 60000 [.tick]) = some s := by
    rw [← Option.isSome_iff_exists]
    decide +kernel
  obtain ⟨s, hs⟩ := hrun
  refine ⟨_, s, LTS.run_of_exec hs, ?_⟩
  decide +kernel

theorem slept_of_awake (h : lts.Run (init o) tr s)
    (ha : ∀ m ∈ tr, m.dst.client.phase.stopped = false) : s.slept = false := by
  refine h.invariant (I := fun _ s => s.slept = false) ha rfl ?_
  intro _ s e s' hs hst' hst
  cases e with
  | pong =>
    obtain ⟨u, due, -, rfl⟩ := pong_of_step hst
    exact hs
  | client e =>
    obtain ⟨-, c, -, rfl⟩ := client_of_step hst
    unfold after at hst' ⊢
    by_cases hl : c.phase.looping = true
    · simp only [if_pos hl] at hst' ⊢
      rw [hst', hs]
      rfl
    · rw [if_neg hl]

/-- A client that is never suspended never gives a prompt server up. -/
theorem noTimeout_of_awake (h : lts.Run (init o) tr s)
    (ha : ∀ m ∈ tr, m.dst.client.phase.stopped = false) : ∀ m ∈ tr, ¬ TimesOut m := by
  intro m hm hto
  obtain ⟨-, tr₁, tr₂, rfl, hr⟩ := h.move hm
  have hs := slept_of_awake hr fun m hm => ha m (List.mem_append_left _ hm)
  have ho := overslept_of_timesOut h hm hto
  exact absurd ho.2.1 (by simp [hs])

end Timed

end Terminal

end Gritty
