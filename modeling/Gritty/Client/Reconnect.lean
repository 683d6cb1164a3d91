import Gritty.Client.Step
import Gritty.Daemon.Connections
import Gritty.Daemon.Designation

/-!
# Coming back to the same session

A client that reconnects sends the daemon the string it kept, and the daemon resolves it anew.  The
session that the client was first attached to may be gone by then, and another one may answer to
the string: its name is in use again, or its id is the name of another session.

A run goes astray (`Astray`) when the daemon serves the request of a reconnect while another session
that runs answers to the string.  A connection of the client is bound (`Bound`) to its session from
the request to the hand-off, and the binding is kept by each move that does not go astray.

## Main results

* `served_iff` : one request is served right if and only if no other session answers.
* `Bound.step`, `Homed.step` : what each move keeps.
* `sameSession_iff` : in a run, the client comes back to its own session, or is told that it is
  gone, exactly when it does not go astray.
-/

namespace Gritty

namespace Client

open Daemon (TaskId Answers)

variable {s s' : State} {e : Event} {m : Move State Event} {tr : List (Move State Event)}
  {d d' : Daemon.State} {framed : Conn} {session : String} {home : TaskId}

/-- The daemon serves an `Attach` of the reconnecting client. -/
def ServesReconnect (m : Move State Event) (framed : Conn) (session : String) (home : TaskId) :
    Prop :=
  m.src.client = .attaching framed session home ∧ m.src.daemon.control = .reading framed ∧
    m.lbl = .daemon (.request (some (.ok (.attach session))))

/-- The session of a task has ended or was killed: its task dropped the channel, or it is not in the
table. -/
def Gone (d : Daemon.State) (home : TaskId) : Prop :=
  (d.tasks home).isClosed = true ∨
    ∀ id state, d.sessions.lookup id = some state → state.handle ≠ home

/-- A session other than the home of the client runs and answers to the string. -/
def OtherAnswers (d : Daemon.State) (session : String) (home : TaskId) : Prop :=
  ∃ id state, Answers d.reap.sessions session id ∧ d.reap.sessions.lookup id = some state ∧
    state.handle ≠ home ∧ (d.tasks state.handle).isClosed = false

/-- The daemon serves a reconnect while another session answers to the client's string. -/
def Astray (m : Move State Event) : Prop :=
  ∃ framed session home, ServesReconnect m framed session home ∧
    OtherAnswers m.src.daemon session home

/-- The client comes back to its own session in a run. -/
structure SameSession (tr : List (Move State Event)) : Prop where
  /-- When the daemon answers `Ok` to a reconnect, the connection is bound for the home session. -/
  served : ∀ m ∈ tr, ∀ framed session home, ServesReconnect m framed session home → ∀ next,
    m.dst.daemon.control = .replying framed .ok next → next = .handOff home
  /-- When the client receives `Ok`, its connection was handed to the home session and to no
  other. -/
  handed : ∀ m ∈ tr, ∀ framed session home, m.src.client = .attaching framed session home →
    m.lbl = .reply (some (.ok .ok)) → ∀ k, (framed, k) ∈ m.src.daemon.handOffs ↔ k = home
  /-- When the home session is gone, the daemon answers `Error`. -/
  gone : ∀ m ∈ tr, ∀ framed session home, ServesReconnect m framed session home →
    Gone m.src.daemon home →
      m.dst.daemon.control = .replying framed (Daemon.noSuchSession session) .again
  /-- When the client receives `Error`, it exits. -/
  exits : ∀ m ∈ tr, ∀ framed session home message, m.src.client = .attaching framed session home →
    m.lbl = .reply (some (.ok (.error message))) → m.dst.client = .exited 1

/-! ### The daemon serves the reconnect -/

theorem serves_step (hs : ServesReconnect m framed session home) (h : lts.step m.src m.lbl m.dst) :
    Daemon.lts.step m.src.daemon (.request (some (.ok (.attach session)))) m.dst.daemon := by
  obtain ⟨-, -, hl⟩ := hs
  obtain ⟨src, lbl, dst⟩ := m
  obtain rfl : lbl = _ := hl
  have hst : Step src _ dst := step_cases h
  cases hst with
  | daemon _ hd => exact hd

theorem attach_answer (hn : Daemon.NamesDistinct d.reap.sessions) (hc : d.control = .reading framed)
    (h : Daemon.lts.step d (.request (some (.ok (.attach session)))) d') :
    (∃ id state, Answers d.reap.sessions session id ∧ d.reap.sessions.lookup id = some state ∧
        (d.tasks state.handle).isClosed = false ∧
        d'.control = .replying framed .ok (.handOff state.handle)) ∨
      d'.control = .replying framed (Daemon.noSuchSession session) .again := by
  cases Daemon.serve_of_step hc h with
  | attachNone | attachClosed => exact .inr rfl
  | attached hr hl hop =>
    exact .inl ⟨_, _, (Daemon.resolveSession_eq_some_iff hn).1 hr, hl, hop, rfl⟩
  | unexpected hno => exact absurd trivial hno

/-- The daemon does right by a reconnect exactly when no other session answers. -/
theorem served_iff (hn : Daemon.NamesDistinct d.reap.sessions) (hc : d.control = .reading framed)
    (h : Daemon.lts.step d (.request (some (.ok (.attach session)))) d') :
    (∀ next, d'.control = .replying framed .ok next → next = .handOff home) ↔
      ¬ OtherAnswers d session home := by
  constructor
  · rintro hs ⟨id, state, ha, hl, hne, hop⟩
    have hr := (Daemon.resolveSession_eq_some_iff hn).2 ha
    obtain ⟨-, hopen, -⟩ := Daemon.attach_step hc hr hl h
    obtain ⟨-, hc'⟩ := hopen hop
    have heq := hs _ hc'
    cases heq
    exact hne rfl
  · intro hno next hc'
    rcases attach_answer hn hc h with ⟨id, state, ha, hl, hop, hok⟩ | herr
    · have hhome : state.handle = home := by
        by_contra hne
        exact hno ⟨id, state, ha, hl, hne, hop⟩
      rw [hok] at hc'
      cases hc'
      rw [hhome]
    · rw [herr] at hc'
      cases hc'

theorem gone_step (hn : Daemon.NamesDistinct d.reap.sessions) (hc : d.control = .reading framed)
    (h : Daemon.lts.step d (.request (some (.ok (.attach session)))) d')
    (hno : ¬ OtherAnswers d session home) (hg : Gone d home) :
    d'.control = .replying framed (Daemon.noSuchSession session) .again := by
  rcases attach_answer hn hc h with ⟨id, state, ha, hl, hop, -⟩ | herr
  · exfalso
    by_cases hhome : state.handle = home
    · rcases hg with hcl | habs
      · rw [hhome, hcl] at hop
        cases hop
      · exact habs id state (Daemon.lookup_reap.1 hl).1 hhome
    · exact hno ⟨id, state, ha, hl, hhome, hop⟩
  · exact herr

/-! ### From the answer to the client -/

/-- A reply that is due binds its connection to a task: it is followed by a hand-off to no other,
and an `Ok` is followed by the hand-off. -/
def BindsTo (reply : Frame) (next : Daemon.Next) (home : TaskId) : Prop :=
  (∀ k, next = .handOff k → k = home) ∧ (reply = .ok → next = .handOff home)

/-- Whatever the daemon says or does on a connection binds it to one task: it is handed to no other,
and an `Ok` comes with the hand-off. -/
structure Bound (d : Daemon.State) (framed : Conn) (home : TaskId) : Prop where
  handOffs : ∀ k, (framed, k) ∈ d.handOffs → k = home
  replies : (framed, .ok) ∈ d.replies → (framed, home) ∈ d.handOffs
  replying : ∀ reply next, d.control = .replying framed reply next → BindsTo reply next home

theorem bound_connect (hk : Daemon.Known d) (h : Daemon.lts.step d .connect d') (home : TaskId) :
    Bound d' d.connected home := by
  cases Daemon.step_cases h with
  | connect =>
    refine ⟨?_, ?_, ?_⟩
    · intro k hm
      exact absurd (hk.handOffs _ hm) (Nat.lt_irrefl _)
    · intro hm
      exact absurd (hk.replies _ hm) (Nat.lt_irrefl _)
    · intro reply next hc
      have hc' : d.control = .replying d.connected reply next := hc
      exact absurd (hk.control d.connected (by rw [hc']; rfl)) (Nat.lt_irrefl _)

/-- A bound connection stays bound while the answers to its requests are. -/
theorem Bound.step {e : Daemon.Event} (hb : Bound d framed home) (h : Daemon.Step d e d')
    (hs : ∀ frame, d.control = .reading framed → e = .request (some (.ok frame)) →
      ∀ reply next, d'.control = .replying framed reply next → BindsTo reply next home) :
    Bound d' framed home := by
  rcases Daemon.logs_step h with ⟨c, reply, next, ok, hc, -, hrep, hho, hno⟩ | ⟨hrep, hho, hdue⟩
  -- a reply is sent on `c`, which may be another connection
  · have hdue : framed = c → BindsTo reply next home :=
      fun hf => hb.replying reply next (hf ▸ hc)
    refine ⟨?_, ?_, fun reply' next' hc' => absurd hc' (hno _ _ _)⟩
    · intro k hm
      rw [hho] at hm
      rcases List.mem_append.1 hm with hm | hm
      · exact hb.handOffs k hm
      · obtain ⟨hf, hnext⟩ := Daemon.mem_handOffs.1 hm
        exact (hdue hf).1 k hnext
    · intro hm
      rw [hho, List.mem_append]
      have hm' : (framed, Frame.ok) ∈ d.replies ∨ framed = c ∧ reply = .ok := by
        rw [hrep] at hm
        cases ok
        · exact .inl hm
        · rcases List.mem_append.1 hm with hm | hm
          · exact .inl hm
          · obtain ⟨hf, hok⟩ := Prod.mk.inj (List.mem_singleton.1 hm)
            exact .inr ⟨hf, hok.symm⟩
      rcases hm' with hm' | ⟨hf, hok⟩
      · exact .inl (hb.replies hm')
      · exact .inr (Daemon.mem_handOffs.2 ⟨hf, (hdue hf).2 hok⟩)
  -- no reply is sent; a reply that becomes due answers a request
  · refine ⟨hho ▸ hb.handOffs, hrep ▸ hho ▸ hb.replies, ?_⟩
    intro reply next hc
    rcases hdue framed reply next hc with hc' | ⟨frame, hread, he⟩
    · exact hb.replying reply next hc'
    · exact hs frame hread he reply next hc

theorem attach_due (hn : Daemon.NamesDistinct d.reap.sessions) (hc : d.control = .reading framed)
    (h : Daemon.lts.step d (.request (some (.ok (.attach session)))) d')
    (hno : ¬ OtherAnswers d session home) (reply : Frame) (next : Daemon.Next)
    (hdue : d'.control = .replying framed reply next) : BindsTo reply next home := by
  rcases attach_answer hn hc h with ⟨id, state, -, -, -, hok⟩ | herr
  · obtain ⟨-, rfl, rfl⟩ := Daemon.Control.replying.inj (hok.symm.trans hdue)
    have hnext := (served_iff hn hc h).2 hno _ hdue
    obtain rfl := Daemon.Next.handOff.inj hnext
    exact ⟨fun k hk => (Daemon.Next.handOff.inj hk).symm, fun _ => rfl⟩
  · obtain ⟨-, rfl, rfl⟩ := Daemon.Control.replying.inj (herr.symm.trans hdue)
    exact ⟨fun k hk => (by cases hk), fun hok => (by cases hok)⟩

/-- The connection of a reconnecting client is bound to its home. -/
def Homed (s : State) : Prop :=
  ∀ framed session home, s.client = .attaching framed session home → Bound s.daemon framed home

theorem eq_attach_of_permits {frame : Frame} (hc : s.client = .attaching framed session home)
    (hd : s.daemon.control = .reading framed)
    (h : s.permits (.request (some (.ok frame))) = true) : frame = .attach session := by
  simpa [State.permits, hd, hc, Phase.pending] using h

theorem namesDistinct_reap (h : lts.Reachable .init s) :
    Daemon.NamesDistinct s.daemon.reap.sessions :=
  ((Daemon.TableInv.of_reachable (daemon_reachable h)).of_shrinks Daemon.shrinks_reap).distinct

theorem opened_ne_attaching {c : Conn} {request : Frame} {r : Server.NextFrame} {client : Phase}
    (h : opened d c request r = some client) : client ≠ .attaching framed session home := by
  unfold opened at h
  split at h
  · split at h
    · obtain ⟨home', -, rfl⟩ := Option.map_eq_some_iff.1 h
      simp
    · cases h
      simp
  · cases h
    simp

theorem reattached_ne_attaching {c : Conn} {session' : String} {home' : TaskId}
    {r : Server.NextFrame} : reattached c session' home' r ≠ .attaching framed session home := by
  unfold reattached
  split <;> simp

/-- **Each move that does not go astray keeps the connection bound.** -/
theorem Homed.step (hi : Homed s) (hr : lts.Reachable .init s) (h : lts.step s e s')
    (ha : ¬ Astray ⟨s, e, s'⟩) : Homed s' := by
  intro framed session home hc
  cases step_cases h with
  | @daemon e' d hp hd =>
    have hc' : s.client = .attaching framed session home := hc
    refine (hi framed session home hc').step (Daemon.step_cases hd) ?_
    -- the daemon reads a request on the connection: it is the client's `Attach`
    intro frame hread he
    subst he
    obtain rfl := eq_attach_of_permits hc' hread hp
    have hno : ¬ OtherAnswers s.daemon session home := by
      intro ho
      exact ha ⟨framed, session, home, ⟨hc', hread, rfl⟩, ho⟩
    exact attach_due (namesDistinct_reap hr) hread hd hno
  | start => cases hc
  | opened _ _ ho => exact absurd hc (opened_ne_attaching ho)
  | reattached => exact absurd hc reattached_ne_attaching
  | finished | interrupt | lost => cases hc
  | connect hc' hd =>
    cases hc
    exact bound_connect (Daemon.Known.of_reachable (daemon_reachable hr)) hd home

theorem homed_run (hr : lts.Run .init tr s) (ha : ∀ m ∈ tr, ¬ Astray m) : Homed s := by
  have h : lts.Reachable .init s ∧ Homed s := by
    refine hr.invariant (I := fun _ s => lts.Reachable .init s ∧ Homed s) ha
      ⟨.refl _, fun _ _ _ hc => by cases hc⟩ ?_
    intro tr s e s' hi ha hst
    exact ⟨hi.1.tail hst, hi.2.step hi.1 hst ha⟩
  exact h.2

theorem handed_step (hi : Homed s) (hc : s.client = .attaching framed session home)
    (h : lts.step s (.reply (some (.ok .ok))) s') (k : TaskId) :
    (framed, k) ∈ s.daemon.handOffs ↔ k = home := by
  cases step_cases h with
  | opened hc' => simp [hc] at hc'
  | reattached hc' hd =>
    have hb := hi framed session home hc
    rw [hc] at hc'
    cases hc'
    have hm : (framed, Frame.ok) ∈ s.daemon.replies := by simpa [State.delivers] using hd
    refine ⟨hb.handOffs k, ?_⟩
    rintro rfl
    exact hb.replies hm

theorem exits_step {message : String} (hc : s.client = .attaching framed session home)
    (h : lts.step s (.reply (some (.ok (.error message)))) s') : s'.client = .exited 1 := by
  cases step_cases h with
  | opened hc' => simp [hc] at hc'
  | reattached => rfl

/-- **A reconnecting client comes back to its own session exactly when it is not led astray.**  In
every run of a client beside a daemon that serves any other clients, an `Ok` to a reconnect means
that the connection is handed to the session of the client's first connection, and a session that is
gone is answered with `Error`, on which the client exits, if and only if no reconnect is served
while another running session answers to the client's string. -/
theorem sameSession_iff (hr : lts.Run .init tr s) :
    SameSession tr ↔ ∀ m ∈ tr, ¬ Astray m := by
  constructor
  · rintro hv m hm ⟨framed, session, home, hs, ho⟩
    obtain ⟨hst, _, _, -, hm'⟩ := hr.move hm
    exact (served_iff (namesDistinct_reap hm'.reachable) hs.2.1 (serves_step hs hst)).1
      (hv.served m hm framed session home hs) ho
  · intro ha
    have hno : ∀ m ∈ tr, ∀ framed session home, ServesReconnect m framed session home →
        ¬ OtherAnswers m.src.daemon session home :=
      fun m hm framed session home hs ho => ha m hm ⟨framed, session, home, hs, ho⟩
    constructor
    case served =>
      intro m hm framed session home hs
      obtain ⟨hst, _, _, -, hm'⟩ := hr.move hm
      exact (served_iff (namesDistinct_reap hm'.reachable) hs.2.1 (serves_step hs hst)).2
        (hno m hm framed session home hs)
    case handed =>
      intro m hm framed session home hc hl
      obtain ⟨hst, tr₁, tr₂, htr, hm'⟩ := hr.move hm
      -- no earlier move went astray, so the connection is bound to the home
      have hi : Homed m.src := homed_run hm' fun m' hm' => ha m' (by simp [htr, hm'])
      exact handed_step hi hc (hl ▸ hst)
    case gone =>
      intro m hm framed session home hs
      obtain ⟨hst, _, _, -, hm'⟩ := hr.move hm
      exact gone_step (namesDistinct_reap hm'.reachable) hs.2.1 (serves_step hs hst)
        (hno m hm framed session home hs)
    case exits =>
      intro m hm framed session home message hc hl
      obtain ⟨hst, -⟩ := hr.move hm
      exact exits_step hc (hl ▸ hst)

/-! ### Two runs -/

/-- The home of a client that was attached. -/
def Phase.home? : Phase → Option TaskId
  | .relaying _ _ home | .reconnecting _ home | .attaching _ _ home => some home
  | _ => none

/-- The daemon serves one request on the connection that is next. -/
def serveEvents (request : Frame) : List Event :=
  [.daemon .reap, .daemon (.accept true), .daemon (.request (some (.ok request))),
    .daemon (.replied true)]

/-- Another client makes one request. -/
def otherEvents (request : Frame) : List Event := .daemon .connect :: serveEvents request

/-- A client creates a session, loses its connection and comes back. -/
def returnEvents : List Event :=
  .start (.newSession "work") :: serveEvents (.newSession "work") ++
    [.reply (some (.ok (.sessionCreated "0"))), .relayed none, .connect] ++
    serveEvents (.attach "0") ++ [.reply (some (.ok .ok))]

/-- The client is back in its session. -/
theorem sameSession_iff_return :
    ∃ s, LTS.exec step .init returnEvents = some s ∧ s.client = .relaying 1 "0" 0 ∧
      SameSession (LTS.trace step .init returnEvents) := by
  have h : ∃ s, LTS.exec step .init returnEvents = some s ∧ s.client = .relaying 1 "0" 0 :=
    ⟨_, rfl, rfl⟩
  obtain ⟨s, h, hc⟩ := h
  refine ⟨s, h, hc, (sameSession_iff (LTS.run_of_exec h)).2 ?_⟩
  -- there is no session but the client's own
  have hone : ∀ m ∈ LTS.trace step .init returnEvents, ∀ e ∈ m.src.daemon.sessions.entries,
      e.2.handle = 0 := by decide
  have hhome : ∀ m ∈ LTS.trace step .init returnEvents, ∀ k ∈ m.src.client.home?, k = 0 := by decide
  rintro m hm ⟨framed, session, home, ⟨hcl, -⟩, id, state, -, hl, hne, -⟩
  have hzero : home = 0 := hhome m hm home (by rw [hcl]; rfl)
  rw [hzero] at hne
  exact hne (hone m hm _ (Table.lookup_eq_some_iff.1 (Daemon.lookup_reap.1 hl).1))

/-- A client attaches to the session `work`.  The session is killed, another one gets its name, and
the client loses its connection and asks for `work`. -/
def reuseEvents : List Event :=
  otherEvents (.newSession "work") ++
    .start (.attach "work") :: serveEvents (.attach "work") ++ [.reply (some (.ok .ok))] ++
    otherEvents (.killSession "work") ++ otherEvents (.newSession "work") ++
    [.relayed none, .connect] ++ serveEvents (.attach "work")

/-- The session is gone, and yet the client receives `Ok` and is in the other session. -/
theorem not_sameSession_reuse :
    ∃ tr s s', lts.Run .init tr s ∧ s.client = .attaching 4 "work" 0 ∧ Gone s.daemon 0 ∧
      lts.step s (.reply (some (.ok .ok))) s' ∧ s'.client = .relaying 4 "work" 0 ∧
      (4, 1) ∈ s.daemon.handOffs ∧ ¬ SameSession (tr ++ [⟨s, .reply (some (.ok .ok)), s'⟩]) := by
  have h : ∃ s s', LTS.exec step .init reuseEvents = some s ∧ s.client = .attaching 4 "work" 0 ∧
      s.daemon.sessions.entries = [⟨1, ⟨1, some "work"⟩⟩] ∧
      lts.step s (.reply (some (.ok .ok))) s' ∧ s'.client = .relaying 4 "work" 0 ∧
      (4, 1) ∈ s.daemon.handOffs := ⟨_, _, rfl, rfl, rfl, rfl, rfl, by decide⟩
  obtain ⟨s, s', h, hc, hs, hst, hc', hm⟩ := h
  have hg : Gone s.daemon 0 := by
    refine .inr ?_
    intro id state hl
    have he := Table.lookup_eq_some_iff.1 hl
    rw [hs] at he
    cases List.mem_singleton.1 he
    decide
  refine ⟨_, s, s', LTS.run_of_exec h, hc, hg, hst, hc', hm, ?_⟩
  intro hv
  have hhanded := hv.handed ⟨s, .reply (some (.ok .ok)), s'⟩ (by simp) 4 "work" 0 hc rfl 1
  exact absurd (hhanded.1 hm) (by decide)

end Client

end Gritty
