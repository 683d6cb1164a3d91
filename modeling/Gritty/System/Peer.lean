import Gritty.Oneshot.Basic
import Gritty.Terminal.Speech

/-!
# Who talks to the daemon

A peer of the daemon is a client at its terminal or a one-shot command.  What the system needs to
know of either is here: what a move does, it does on connections that the peer has made, and a peer
makes its connections one by one.

## Main definitions

* `Peer`, `Start` : a peer, and what it is started as.
* `step` : one move of a peer.
* `acts` : what a peer has done on its connections.
* `terminalRun`, `oneshotRun` : the moves of the client, or of the command, that the peer is.

## Main results

* `Step.actsOf_cases` : a move does one thing at most, on a connection that the peer has made.
* `Step.connections`, `Step.connects` : connections are made one by one.
* `terminal_run`, `oneshot_run` : a peer runs what it was started as.
-/

namespace Gritty

namespace Terminal

/-- A move does one thing at most, on the connection in use. -/
theorem actsOf_cases (m : Move State Event) :
    actsOf m = [] ∨ ∃ c a, actsOf m = [(c, a)] ∧ m.src.phase.conn? = some c := by
  obtain ⟨s, e, s'⟩ := m
  cases e with
  | sent ok =>
    cases hs : s.send? with
    | none => exact .inl (by simp [actsOf, hs])
    | some q => exact .inr ⟨q.1, .sent q.2 ok, by simp [actsOf, hs], conn?_of_send hs⟩
  | next r =>
    rcases r with _ | _ | f
    · exact .inl rfl
    · exact .inl rfl
    · cases hs : s.phase.reads? with
      | none => exact .inl (by simp [actsOf, hs])
      | some c =>
        refine .inr ⟨c, .read f, by simp [actsOf, hs], ?_⟩
        show s.phase.conn? = some c
        cases hp : s.phase <;> simp_all [Phase.reads?, Phase.conn?]
  | _ => exact .inl rfl

end Terminal

namespace System

open Server (Act)

/-- A client at its terminal, or a one-shot command. -/
inductive Peer where
  | terminal (s : Terminal.State)
  | oneshot (s : Oneshot.State)

namespace Peer

/-- A step of the one or of the other. -/
inductive Event where
  | terminal (e : Terminal.Event)
  | oneshot (e : Oneshot.Event)

/-- How a peer is started. -/
inductive Start where
  | terminal (o : Terminal.Options)
  | oneshot (command : Oneshot.Command)

/-- A peer that is just started. -/
def init : Start → Peer
  | .terminal o => .terminal (.init o)
  | .oneshot command => .oneshot (.init command)

/-- `UnixStream::connect` succeeds. -/
def connect : Peer → Event
  | .terminal _ => .terminal (.connect true)
  | .oneshot _ => .oneshot (.connect true)

/-- What an event does, when it is one of this peer. -/
def step : Peer → Event → Option Peer
  | .terminal s, .terminal e => (Terminal.step s e).map .terminal
  | .oneshot s, .oneshot e => (Oneshot.step s e).map .oneshot
  | _, _ => none

/-- A peer as a transition system. -/
def lts : LTS Peer Event := .ofFun step

/-- How many connections a peer has made. -/
def connections : Peer → ℕ
  | .terminal s => s.connections
  | .oneshot s => s.connections

/-- What a move does on connections. -/
def actsOf (m : Move Peer Event) : List (Conn × Act) :=
  match m.src, m.lbl, m.dst with
  | .terminal s, .terminal e, .terminal s' => Terminal.actsOf ⟨s, e, s'⟩
  | .oneshot s, .oneshot e, .oneshot s' => Oneshot.actsOf ⟨s, e, s'⟩
  | _, _, _ => []

/-- What a peer did on connections, in order. -/
def acts (tr : List (Move Peer Event)) : List (Conn × Act) := tr.flatMap actsOf

/-- The moves of a peer. -/
inductive Step : Peer → Event → Peer → Prop
  | terminal {s e s'} : Terminal.lts.step s e s' →
      Step (.terminal s) (.terminal e) (.terminal s')
  | oneshot {s e s'} : Oneshot.lts.step s e s' → Step (.oneshot s) (.oneshot e) (.oneshot s')

variable {p p' : Peer} {e : Event} {start : Start} {c : Conn} {tr : List (Move Peer Event)}

theorem step_cases (h : lts.step p e p') : Step p e p' := by
  change step p e = some p' at h
  cases p with
  | terminal s =>
    cases e with
    | terminal e =>
      obtain ⟨s', hs, rfl⟩ := Option.map_eq_some_iff.1 h
      exact .terminal hs
    | oneshot e => cases h
  | oneshot s =>
    cases e with
    | terminal e => cases h
    | oneshot e =>
      obtain ⟨s', hs, rfl⟩ := Option.map_eq_some_iff.1 h
      exact .oneshot hs

theorem Step.lts_step (h : Step p e p') : lts.step p e p' := by
  cases h with
  | terminal h => exact congrArg (Option.map Peer.terminal) h
  | oneshot h => exact congrArg (Option.map Peer.oneshot) h

/-- What a peer relies on. -/
inductive Sound : Peer → Prop
  | terminal {s} : Terminal.Sound s → Sound (.terminal s)
  | oneshot {s tr} : Oneshot.lts.Run (.init s.command) tr s → Sound (.oneshot s)

theorem sound_init : Sound (init start) := by
  cases start with
  | terminal o => exact .terminal (.opening rfl rfl)
  | oneshot command => exact .oneshot .refl

theorem Step.sound (h : Step p e p') (hi : Sound p) : Sound p' := by
  cases h with
  | terminal h =>
    cases hi with
    | terminal hi => exact .terminal (Terminal.sound_step (Terminal.step_cases h) hi)
  | oneshot h =>
    cases hi with
    | oneshot hr =>
      have hr' := hr.tail h
      exact .oneshot ((Oneshot.spoke hr').1 ▸ hr')

/-- A move does one thing at most, on a connection that the peer has made. -/
theorem Step.actsOf_cases (h : Step p e p') (hi : Sound p) : actsOf ⟨p, e, p'⟩ = [] ∨
    ∃ c a, actsOf ⟨p, e, p'⟩ = [(c, a)] ∧ c < p.connections := by
  cases h with
  | @terminal s e s' h =>
    cases hi with
    | terminal hi =>
      rcases Terminal.actsOf_cases ⟨s, e, s'⟩ with ha | ⟨c, a, ha, hc⟩
      · exact .inl ha
      · exact .inr ⟨c, a, ha, hi.conn_lt hc⟩
  | @oneshot s e s' h =>
    cases hi with
    | oneshot hr =>
      rcases Oneshot.actsOf_cases ⟨s, e, s'⟩ with ha | ⟨c, a, ha, hp⟩
      · exact .inl ha
      · refine .inr ⟨c, a, ha, ?_⟩
        have hs := (Oneshot.spoke hr).2
        show c < s.connections
        generalize s.connections = n at hs ⊢
        rcases hp with hp | hp <;>
          (change s.phase = _ at hp; rw [hp] at hs; cases hs; exact Nat.one_pos)

/-- Connections are made one by one. -/
theorem Step.connections (h : Step p e p') : p'.connections = p.connections ∨
    p'.connections = p.connections + 1 ∧ actsOf ⟨p, e, p'⟩ = [] := by
  cases h with
  | @terminal s e s' h =>
    show s'.connections = s.connections ∨
      s'.connections = s.connections + 1 ∧ Terminal.actsOf ⟨s, e, s'⟩ = []
    cases Terminal.step_cases h with
    | @opened ok hp =>
      cases ok
      · rw [Terminal.State.onOpened]
        cases s.options.command <;> exact .inl rfl
      · exact .inr ⟨rfl, rfl⟩
    | @reconnected ok => cases ok <;> first | exact .inl rfl | exact .inr ⟨rfl, rfl⟩
    | @accepted framed reply session =>
      obtain ⟨p, hs, -⟩ := Terminal.startRelay_eq (s.setUp session) framed
      rw [Terminal.State.enterRun, hs]
      exact .inl rfl
    | @reattached framed =>
      obtain ⟨p, hs, -⟩ := Terminal.startRelay_eq { s with redraw := true } framed
      rw [hs]
      exact .inl rfl
    | @sent framed _ actions =>
      obtain ⟨p, hs, -⟩ := Terminal.perform_eq s framed actions
      rw [hs]
      exact .inl rfl
    | @input framed n =>
      obtain ⟨escape, p, hs, -⟩ := Terminal.onInput_eq { s with stdin := s.stdin.drop n } framed
        (s.stdin.take n)
      rw [hs]
      exact .inl rfl
    | _ => exact .inl rfl
  | @oneshot s e s' h =>
    show s'.connections = s.connections ∨
      s'.connections = s.connections + 1 ∧ Oneshot.actsOf ⟨s, e, s'⟩ = []
    cases Oneshot.step_cases h with
    | connected hp => exact .inr ⟨rfl, by simp [Oneshot.actsOf, hp]⟩
    | _ => exact .inl rfl

/-- A peer that connects has one connection more. -/
theorem Step.connects (h : Step p p.connect p') :
    p'.connections = p.connections + 1 ∧ actsOf ⟨p, p.connect, p'⟩ = [] := by
  cases p with
  | terminal s =>
    change Step (.terminal s) (.terminal (.connect true)) p' at h
    cases h with
    | terminal h =>
      cases Terminal.step_cases h with
      | opened hp => exact ⟨rfl, rfl⟩
      | reconnected hp => exact ⟨rfl, rfl⟩
  | oneshot s =>
    change Step (.oneshot s) (.oneshot (.connect true)) p' at h
    cases h with
    | oneshot h =>
      cases Oneshot.step_cases h with
      | connected hp =>
        refine ⟨rfl, ?_⟩
        show Oneshot.actsOf ⟨s, .connect true, _⟩ = []
        simp [Oneshot.actsOf, hp]

/-! ### The two kinds of peers -/

/-- The move of a client in a move of a peer. -/
def terminalMoveOf (m : Move Peer Event) : List (Move Terminal.State Terminal.Event) :=
  match m.src, m.lbl, m.dst with
  | .terminal s, .terminal e, .terminal s' => [⟨s, e, s'⟩]
  | _, _, _ => []

/-- The run of a client. -/
def terminalRun (tr : List (Move Peer Event)) : List (Move Terminal.State Terminal.Event) :=
  tr.flatMap terminalMoveOf

/-- The move of a one-shot command in a move of a peer. -/
def oneshotMoveOf (m : Move Peer Event) : List (Move Oneshot.State Oneshot.Event) :=
  match m.src, m.lbl, m.dst with
  | .oneshot s, .oneshot e, .oneshot s' => [⟨s, e, s'⟩]
  | _, _, _ => []

/-- The run of a one-shot command. -/
def oneshotRun (tr : List (Move Peer Event)) : List (Move Oneshot.State Oneshot.Event) :=
  tr.flatMap oneshotMoveOf

/-- A peer that is started as a client runs one. -/
theorem terminal_run {o : Terminal.Options} (hr : lts.Run (init (.terminal o)) tr p) :
    ∃ s, p = .terminal s ∧ Terminal.lts.Run (.init o) (terminalRun tr) s ∧
      Terminal.acts (terminalRun tr) = acts tr := by
  induction hr with
  | refl => exact ⟨_, rfl, .refl, rfl⟩
  | @tail tr p p' e _ hst ih =>
    obtain ⟨s, rfl, hs, ha⟩ := ih
    cases step_cases hst with
    | @terminal _ e s' h =>
      refine ⟨s', rfl, ?_, ?_⟩
      · simpa [terminalRun, terminalMoveOf] using hs.tail h
      · simp only [terminalRun, acts, Terminal.acts, List.flatMap_append] at ha ⊢
        rw [ha]
        simp [terminalMoveOf, actsOf]

/-- A peer that is started as a one-shot command runs it. -/
theorem oneshot_run {command : Oneshot.Command} (hr : lts.Run (init (.oneshot command)) tr p) :
    ∃ s, p = .oneshot s ∧ Oneshot.lts.Run (.init command) (oneshotRun tr) s ∧
      Oneshot.acts (oneshotRun tr) = acts tr := by
  induction hr with
  | refl => exact ⟨_, rfl, .refl, rfl⟩
  | @tail tr p p' e _ hst ih =>
    obtain ⟨s, rfl, hs, ha⟩ := ih
    cases step_cases hst with
    | @oneshot _ e s' h =>
      refine ⟨s', rfl, ?_, ?_⟩
      · simpa [oneshotRun, oneshotMoveOf] using hs.tail h
      · simp only [oneshotRun, acts, Oneshot.acts, List.flatMap_append] at ha ⊢
        rw [ha]
        simp [oneshotMoveOf, actsOf]

end Peer

end System

end Gritty
