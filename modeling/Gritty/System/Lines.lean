import Gritty.System.Step

/-!
# The lines between the peers and the daemon

A connection of a peer leads to a connection of the daemon of its own, once and for all.  So the run
of the system is a run of each of its parts, and what is written on the wires of a line is what the
peer and the daemon did on its two ends.

## Main definitions

* `Sane` : no two connections of peers lead to the same connection of the daemon.
* `daemonRun`, `peerRun` : the moves of the daemon and of one peer in a run.
* `upRun`, `downRun` : what a run does on the two wires of a connection.
* `Ends` : what each party did at its end of a line.

## Main results

* `Sane.step`, `sane` : where the connections lead.
* `daemon_run`, `peer_run` : the run of the system is a run of the daemon and of each peer.
* `up_run`, `down_run` : it is a run of each wire.
* `ends` : what happens on a wire is what the parties do at its ends.
-/

namespace Gritty

namespace Daemon

variable {s s' : State} {e : Event}

theorem connected_step (h : Step s e s') : s'.connected = s.connected ∨
    e = .connect ∧ s'.connected = s.connected + 1 := by
  cases h with
  | connect => exact .inr ⟨rfl, rfl⟩
  | request hc hs =>
    obtain ⟨-, -, -, -, hcon⟩ := serve_logs hs
    exact .inl hcon
  | @replied framed reply next ok hc =>
    obtain ⟨-, -, -, hcon, -⟩ := @proceed_logs
      { s with replies := if ok then s.replies ++ [(framed, reply)] else s.replies } framed next
    exact .inl hcon
  | _ => exact .inl rfl

theorem connected_of_connect (h : lts.step s .connect s') : s'.connected = s.connected + 1 := by
  cases step_cases h with
  | connect => rfl

theorem actsOf_connect : actsOf ⟨s, .connect, s'⟩ = [] := rfl

end Daemon

namespace System

open FrameCodec (frameCodec)
open Server (Act)

/-- What the parties rely on, and where the connections lead. -/
structure Sane (s : State) : Prop where
  sound : ∀ i, (s.peers i).Sound
  /-- only connections that were made lead anywhere -/
  dial : ∀ i c d, s.dial i c = some d → c < (s.peers i).connections ∧ d < s.daemon.connected
  /-- no two of them lead to the same place -/
  inj : ∀ i c i' c' d, s.dial i c = some d → s.dial i' c' = some d → i = i' ∧ c = c'
  strangers : ∀ d ∈ s.strangers, d < s.daemon.connected ∧ ∀ i c, s.dial i c ≠ some d

variable {starts : ℕ → Peer.Start} {s s' : State} {e : Event} {tr : List (Move State Event)}
  {i : ℕ} {c d : Conn}

theorem dialed_dial {j : ℕ} : (s.dialed j).dial i c =
    if i = j ∧ c = (s.peers j).connections then some s.daemon.connected else s.dial i c := by
  unfold State.dialed
  by_cases hi : i = j
  · subst hi
    by_cases hc : c = (s.peers i).connections <;> simp [hc]
  · simp [hi]

/-- A move makes no connection. -/
structure Settled (s s' : State) : Prop where
  dial : s'.dial = s.dial
  strangers : s'.strangers = s.strangers
  connected : s'.daemon.connected = s.daemon.connected
  peers : ∀ i, (s.peers i).connections ≤ (s'.peers i).connections
  sound : (∀ i, (s.peers i).Sound) → ∀ i, (s'.peers i).Sound

theorem Settled.sane (h : Settled s s') (hi : Sane s) : Sane s' where
  sound := h.sound hi.sound
  dial i c d hd := by
    rw [h.dial] at hd
    obtain ⟨hc, hd'⟩ := hi.dial i c d hd
    exact ⟨hc.trans_le (h.peers i), h.connected ▸ hd'⟩
  inj i c i' c' d hd hd' := by
    rw [h.dial] at hd hd'
    exact hi.inj i c i' c' d hd hd'
  strangers d hd := by
    rw [h.strangers] at hd
    rw [h.connected, h.dial]
    exact hi.strangers d hd

theorem setPeer_connections {p : Peer} {e : Peer.Event} (h : Peer.Step (s.peers i) e p) (j : ℕ) :
    (s.peers j).connections ≤ ((s.setPeer i p).peers j).connections := by
  by_cases hj : j = i
  · subst hj
    rw [setPeer_peers_self]
    rcases h.connections with hc | ⟨hc, -⟩ <;> rw [hc]
    exact Nat.le_succ _
  · rw [setPeer_peers_of_ne s p hj]

theorem setPeer_sound {p : Peer} {e : Peer.Event} (h : Peer.Step (s.peers i) e p)
    (hs : ∀ i, (s.peers i).Sound) (j : ℕ) : ((s.setPeer i p).peers j).Sound := by
  by_cases hj : j = i
  · subst hj
    rw [setPeer_peers_self]
    exact h.sound (hs j)
  · rw [setPeer_peers_of_ne s p hj]
    exact hs j

/-- A move makes no connection, or one. -/
theorem settled_or (h : Step s e s') : Settled s s' ∨ (∃ i, e = .connect i) ∨ e = .stranger := by
  cases h with
  | daemonQuiet he hst | daemonRead he hst | daemonSent he hst =>
    have hc := (Daemon.connected_step (Daemon.step_cases hst)).resolve_right fun h => he h.1
    exact .inl ⟨rfl, rfl, hc, fun _ => Nat.le_refl _, fun hs => hs⟩
  | peerQuiet hp | peerRead hp | peerSent hp | peerAstray hp =>
    exact .inl ⟨rfl, rfl, rfl, setPeer_connections hp, setPeer_sound hp⟩
  | connect => exact .inr (.inl ⟨_, rfl⟩)
  | stranger => exact .inr (.inr rfl)
  | inject => exact .inl ⟨rfl, rfl, rfl, fun _ => Nat.le_refl _, fun hs => hs⟩

theorem Sane.init : Sane (.init starts) where
  sound _ := Peer.sound_init
  dial _ _ _ h := by cases h
  inj _ _ _ _ _ h := by cases h
  strangers _ h := by cases h

theorem Sane.connect {p : Peer} {daemon : Daemon.State} (hi : Sane s)
    (hp : Peer.Step (s.peers i) (s.peers i).connect p)
    (hd : Daemon.lts.step s.daemon .connect daemon) :
    Sane { (s.dialed i).setPeer i p with daemon := daemon } := by
  have hcon := Daemon.connected_of_connect hd
  obtain ⟨hn, -⟩ := hp.connects
  have hpeers : ∀ j, (s.peers j).connections ≤
      (((s.dialed i).setPeer i p).peers j).connections := setPeer_connections hp
  have hnew : (((s.dialed i).setPeer i p).peers i).connections = (s.peers i).connections + 1 := by
    rw [setPeer_peers_self, hn]
  have hdial : ∀ j c d, ((s.dialed i).setPeer i p).dial j c = some d →
      (j = i ∧ c = (s.peers i).connections ∧ d = s.daemon.connected) ∨ s.dial j c = some d := by
    intro j c d h
    change (s.dialed i).dial j c = some d at h
    rw [dialed_dial] at h
    split at h
    · next hjc => exact .inl ⟨hjc.1, hjc.2, (Option.some.inj h).symm⟩
    · exact .inr h
  refine ⟨setPeer_sound hp hi.sound, ?_, ?_, ?_⟩
  · intro j c d h
    show c < (((s.dialed i).setPeer i p).peers j).connections ∧ d < daemon.connected
    rw [hcon]
    rcases hdial j c d h with ⟨rfl, rfl, rfl⟩ | h
    · exact ⟨hnew.symm ▸ Nat.lt_succ_self _, Nat.lt_succ_self _⟩
    · obtain ⟨hc, hd'⟩ := hi.dial j c d h
      exact ⟨hc.trans_le (hpeers j), Nat.lt_succ_of_lt hd'⟩
  · intro j c j' c' d h h'
    rcases hdial j c d h with ⟨rfl, rfl, hd₁⟩ | h₁
    · rcases hdial j' c' d h' with ⟨rfl, rfl, -⟩ | h₂
      · exact ⟨rfl, rfl⟩
      · exact absurd (hi.dial _ _ _ h₂).2 (hd₁ ▸ Nat.lt_irrefl _)
    · rcases hdial j' c' d h' with ⟨rfl, rfl, hd₂⟩ | h₂
      · exact absurd (hi.dial _ _ _ h₁).2 (hd₂ ▸ Nat.lt_irrefl _)
      · exact hi.inj _ _ _ _ _ h₁ h₂
  · intro d h
    obtain ⟨hlt, hno⟩ := hi.strangers d h
    refine ⟨hcon ▸ Nat.lt_succ_of_lt hlt, fun j c hjc => ?_⟩
    rcases hdial j c d hjc with ⟨-, -, rfl⟩ | hjc
    · exact Nat.lt_irrefl _ hlt
    · exact hno j c hjc

theorem Sane.stranger {daemon : Daemon.State} (hi : Sane s)
    (hd : Daemon.lts.step s.daemon .connect daemon) :
    Sane { s with daemon := daemon, strangers := s.strangers ++ [s.daemon.connected] } := by
  have hcon := Daemon.connected_of_connect hd
  refine ⟨hi.sound, ?_, hi.inj, ?_⟩
  · intro j c d h
    obtain ⟨hc, hd'⟩ := hi.dial j c d h
    exact ⟨hc, hcon ▸ Nat.lt_succ_of_lt hd'⟩
  · intro d h
    show d < daemon.connected ∧ _
    rw [hcon]
    rcases List.mem_append.1 h with h | h
    · obtain ⟨hlt, hno⟩ := hi.strangers d h
      exact ⟨Nat.lt_succ_of_lt hlt, hno⟩
    · obtain rfl := List.mem_singleton.1 h
      exact ⟨Nat.lt_succ_self _, fun j c hjc => Nat.lt_irrefl _ (hi.dial j c _ hjc).2⟩

theorem Sane.step (hi : Sane s) (hst : lts.step s e s') : Sane s' := by
  have h := step_cases hi.sound hst
  rcases settled_or h with hs | ⟨i, rfl⟩ | rfl
  · exact hs.sane hi
  · cases h with
    | connect hp hd => exact hi.connect hp hd
  · cases h with
    | stranger hd => exact hi.stranger hd

theorem sane (hr : lts.Run (.init starts) tr s) : Sane s :=
  hr.reachable.invariant .init fun _ _ _ hi hst => hi.step hst

/-! ### The runs of the parts -/

/-- The move of the daemon in a move of the system. -/
def daemonMovesOf (m : Move State Event) : List (Move Daemon.State Daemon.Event) :=
  match m.lbl with
  | .daemon e _ => [⟨m.src.daemon, e, m.dst.daemon⟩]
  | .connect _ | .stranger => [⟨m.src.daemon, .connect, m.dst.daemon⟩]
  | .peer _ _ _ | .inject _ _ => []

/-- The run of the daemon in a run of the system. -/
def daemonRun (tr : List (Move State Event)) : List (Move Daemon.State Daemon.Event) :=
  tr.flatMap daemonMovesOf

/-- The move of the peer `i` in a move of the system. -/
def peerMovesOf (i : ℕ) (m : Move State Event) : List (Move Peer Peer.Event) :=
  match m.lbl with
  | .peer j e _ => if j = i then [⟨m.src.peers i, e, m.dst.peers i⟩] else []
  | .connect j => if j = i then [⟨m.src.peers i, (m.src.peers i).connect, m.dst.peers i⟩] else []
  | .daemon _ _ | .stranger | .inject _ _ => []

/-- The run of the peer `i` in a run of the system. -/
def peerRun (i : ℕ) (tr : List (Move State Event)) : List (Move Peer Peer.Event) :=
  tr.flatMap (peerMovesOf i)

/-- What the daemon does on the connection `d` in a move of the system. -/
def daemonEnd (d : Conn) (m : Move State Event) : List Act :=
  match m.lbl with
  | .daemon e _ => entriesOf d (Daemon.actsOf ⟨m.src.daemon, e, m.dst.daemon⟩)
  | .peer _ _ _ | .connect _ | .stranger | .inject _ _ => []

/-- What a peer does on the connection `d` of the daemon in a move of the system. -/
def peerEnd (d : Conn) (m : Move State Event) : List Act :=
  match m.lbl with
  | .peer i e _ =>
    entriesOf (some d) ((Peer.actsOf ⟨m.src.peers i, e, m.dst.peers i⟩).map fun q =>
      (m.src.dial i q.1, q.2))
  | .daemon _ _ | .connect _ | .stranger | .inject _ _ => []

/-- The bytes that a stranger puts on the connection `d`. -/
def strangerEnd (d : Conn) (m : Move State Event) : List (Wire.Label UInt8 Frame) :=
  match m.lbl with
  | .inject d' bytes => if d' = d then [.inject bytes] else []
  | .daemon _ _ | .peer _ _ _ | .connect _ | .stranger => []

/-- How much of a frame is sent when a send fails. -/
def cutOf (m : Move State Event) : ℕ :=
  match m.lbl with
  | .daemon _ cut | .peer _ _ cut => cut
  | .connect _ | .stranger | .inject _ _ => 0

/-- What reading an act is for the wire. -/
def readLabel : Act → List (Wire.Label UInt8 Frame)
  | .read f => [.read f]
  | .sent _ _ => []

/-- What writing an act is for the wire. -/
def writeLabel (cut : ℕ) : Act → List (Wire.Label UInt8 Frame)
  | .sent f ok => [.write f ok cut]
  | .read _ => []

/-- What a move does on the wire to the daemon. -/
def upLabelsOf (d : Conn) (m : Move State Event) : List (Wire.Label UInt8 Frame) :=
  (daemonEnd d m).flatMap readLabel ++ (peerEnd d m).flatMap (writeLabel (cutOf m)) ++
    strangerEnd d m

/-- What a move does on the wire from the daemon. -/
def downLabelsOf (d : Conn) (m : Move State Event) : List (Wire.Label UInt8 Frame) :=
  (daemonEnd d m).flatMap (writeLabel (cutOf m)) ++ (peerEnd d m).flatMap readLabel

/-- The run of the wire to the daemon. -/
def upRun (d : Conn) (tr : List (Move State Event)) :
    List (Move (Wire UInt8) (Wire.Label UInt8 Frame)) :=
  tr.flatMap fun m => (upLabelsOf d m).map fun l => ⟨m.src.up d, l, m.dst.up d⟩

/-- The run of the wire from the daemon. -/
def downRun (d : Conn) (tr : List (Move State Event)) :
    List (Move (Wire UInt8) (Wire.Label UInt8 Frame)) :=
  tr.flatMap fun m => (downLabelsOf d m).map fun l => ⟨m.src.down d, l, m.dst.down d⟩

theorem daemon_step (h : Step s e s') :
    Daemon.lts.Run s.daemon (daemonMovesOf ⟨s, e, s'⟩) s'.daemon := by
  cases h with
  | daemonQuiet _ hst | daemonRead _ hst | daemonSent _ hst => exact .single hst
  | connect _ hst | stranger hst => exact .single hst
  | peerQuiet | peerRead | peerSent | peerAstray | inject => exact .refl

/-- The run of the system is a run of the daemon. -/
theorem daemon_run (hr : lts.Run (.init starts) tr s) :
    Daemon.lts.Run .init (daemonRun tr) s.daemon := by
  have h := hr.project (B := Daemon.lts) (f := State.daemon) (g := daemonMovesOf) (I := Sane)
    .init (fun _ _ _ hi hst => hi.step hst)
    fun _ _ _ hi hst => daemon_step (step_cases hi.sound hst)
  exact h

theorem peer_step (h : Step s e s') (i : ℕ) :
    Peer.lts.Run (s.peers i) (peerMovesOf i ⟨s, e, s'⟩) (s'.peers i) := by
  have hset : ∀ {j : ℕ} {e : Peer.Event} {p : Peer}, Peer.Step (s.peers j) e p →
      Peer.lts.Run (s.peers i)
        (if j = i then [⟨s.peers i, e, (s.setPeer j p).peers i⟩] else [])
        ((s.setPeer j p).peers i) := by
    intro j e p hp
    by_cases hj : j = i
    · subst hj
      rw [if_pos rfl, setPeer_peers_self]
      exact .single hp.lts_step
    · rw [if_neg hj, setPeer_peers_of_ne s p (Ne.symm hj)]
      exact .refl
  cases h with
  | daemonQuiet | daemonRead | daemonSent | stranger | inject => exact .refl
  | peerQuiet hp | peerRead hp | peerSent hp | peerAstray hp => exact hset hp
  | @connect j p daemon hp =>
    by_cases hj : j = i
    · subst hj
      have h := hset hp
      rw [if_pos rfl] at h
      simp only [peerMovesOf, if_pos]
      exact h
    · have h := hset hp
      rw [if_neg hj] at h
      simp only [peerMovesOf, if_neg hj]
      exact h

/-- The run of the system is a run of each peer. -/
theorem peer_run_from (hr : lts.Run s tr s') (hi : Sane s) (i : ℕ) :
    Peer.lts.Run (s.peers i) (peerRun i tr) (s'.peers i) := by
  have h := hr.project (B := Peer.lts) (f := fun s => s.peers i) (g := peerMovesOf i) (I := Sane)
    hi (fun _ _ _ hi hst => hi.step hst)
    fun _ _ _ hi hst => peer_step (step_cases hi.sound hst) i
  exact h

theorem peer_run (hr : lts.Run (.init starts) tr s) (i : ℕ) :
    Peer.lts.Run (.init (starts i)) (peerRun i tr) (s.peers i) := peer_run_from hr .init i

/-! ### The wires -/

/-- **What a move does on the lines.**  It does one thing at most, at one end of one line. -/
inductive Ends (m : Move State Event) : Prop
  | quiet : (∀ d, daemonEnd d m = []) → (∀ d, peerEnd d m = []) → (∀ d, strangerEnd d m = []) →
      m.dst.up = m.src.up → m.dst.down = m.src.down → Ends m
  | daemonRead {d f w} : (∀ d', daemonEnd d' m = entriesOf d' [(d, .read f)]) →
      (∀ d, peerEnd d m = []) → (∀ d, strangerEnd d m = []) →
      (m.src.up d).read frameCodec f = some w → m.dst.up = Function.update m.src.up d w →
      m.dst.down = m.src.down → Ends m
  | daemonSent {d f ok w} : (∀ d', daemonEnd d' m = entriesOf d' [(d, .sent f ok)]) →
      (∀ d, peerEnd d m = []) → (∀ d, strangerEnd d m = []) →
      (m.src.down d).write frameCodec f ok (cutOf m) = some w → m.dst.up = m.src.up →
      m.dst.down = Function.update m.src.down d w → Ends m
  | peerRead {d f w} : (∀ d, daemonEnd d m = []) →
      (∀ d', peerEnd d' m = entriesOf d' [(d, .read f)]) → (∀ d, strangerEnd d m = []) →
      (m.src.down d).read frameCodec f = some w → m.dst.up = m.src.up →
      m.dst.down = Function.update m.src.down d w → Ends m
  | peerSent {d f ok w} : (∀ d, daemonEnd d m = []) →
      (∀ d', peerEnd d' m = entriesOf d' [(d, .sent f ok)]) → (∀ d, strangerEnd d m = []) →
      (m.src.up d).write frameCodec f ok (cutOf m) = some w →
      m.dst.up = Function.update m.src.up d w → m.dst.down = m.src.down → Ends m
  | inject {d bytes} : d ∈ m.src.strangers → (∀ d, daemonEnd d m = []) →
      (∀ d, peerEnd d m = []) →
      (∀ d', strangerEnd d' m = if d = d' then [.inject bytes] else []) →
      m.dst.up = Function.update m.src.up d ((m.src.up d).inject bytes) →
      m.dst.down = m.src.down → Ends m

theorem peerEnd_of {j cut : ℕ} {e : Peer.Event} {p : Peer} {a : Act} (hp : s'.peers j = p)
    (ha : Peer.actsOf ⟨s.peers j, e, p⟩ = [(c, a)]) :
    peerEnd d ⟨s, .peer j e cut, s'⟩ = entriesOf (some d) [(s.dial j c, a)] := by
  simp [peerEnd, hp, ha]

theorem entriesOf_some {d' : Conn} {a : Act} :
    entriesOf (some d') [(some d, a)] = entriesOf d' [(d, a)] := by
  by_cases hd : d = d'
  · subst hd
    rw [entriesOf_self, entriesOf_self]
  · rw [entriesOf_of_ne hd, entriesOf_of_ne (by simpa using hd)]

theorem ends (h : Step s e s') : Ends ⟨s, e, s'⟩ := by
  cases h with
  | daemonQuiet _ _ ha =>
    exact .quiet (fun d => by simp [daemonEnd, ha]) (fun _ => rfl) (fun _ => rfl) rfl rfl
  | daemonRead _ _ ha hw =>
    exact .daemonRead (fun d => by simp [daemonEnd, ha]) (fun _ => rfl) (fun _ => rfl) hw rfl rfl
  | daemonSent _ _ ha hw =>
    exact .daemonSent (fun d => by simp [daemonEnd, ha]) (fun _ => rfl) (fun _ => rfl) hw rfl rfl
  | peerQuiet _ ha =>
    exact .quiet (fun _ => rfl) (fun d => by simp [peerEnd, ha]) (fun _ => rfl) rfl rfl
  | peerRead _ ha hd hw =>
    refine .peerRead (fun _ => rfl) (fun d' => ?_) (fun _ => rfl) hw rfl rfl
    refine (peerEnd_of ?_ ha).trans (by rw [hd, entriesOf_some])
    exact setPeer_peers_self s _ _
  | peerSent _ ha hd hw =>
    refine .peerSent (fun _ => rfl) (fun d' => ?_) (fun _ => rfl) hw rfl rfl
    refine (peerEnd_of ?_ ha).trans (by rw [hd, entriesOf_some])
    exact setPeer_peers_self s _ _
  | peerAstray _ ha hd =>
    refine .quiet (fun _ => rfl) (fun d' => ?_) (fun _ => rfl) rfl rfl
    refine (peerEnd_of ?_ ha).trans (by rw [hd, entriesOf_of_ne (by simp)])
    exact setPeer_peers_self s _ _
  | connect | stranger =>
    exact .quiet (fun _ => rfl) (fun _ => rfl) (fun _ => rfl) rfl rfl
  | @inject d bytes hd =>
    exact .inject hd (fun _ => rfl) (fun _ => rfl) (fun _ => rfl) rfl rfl

theorem wire_step {ws ws' : Conn → Wire UInt8} {w : Wire UInt8} {l : Wire.Label UInt8 Frame}
    {d' : Conn} (h : Wire.step frameCodec (ws d) l = some w) (hws : ws' = Function.update ws d w) :
    (Wire.lts frameCodec).Run (ws d')
      ((if d = d' then [l] else []).map fun l => ⟨ws d', l, ws' d'⟩) (ws' d') := by
  subst hws
  by_cases hd : d = d'
  · subst hd
    rw [if_pos rfl, Function.update_self]
    exact .single h
  · rw [if_neg hd, Function.update_of_ne (Ne.symm hd)]
    exact .refl

theorem wire_refl {ws ws' : Conn → Wire UInt8} (h : ws' = ws) :
    (Wire.lts frameCodec).Run (ws d) [] (ws' d) := by
  rw [h]
  exact .refl

theorem readLabel_entriesOf {d' : Conn} {a : Act} :
    (entriesOf d' [(d, a)]).flatMap readLabel = if d = d' then readLabel a else [] := by
  by_cases hd : d = d'
  · subst hd
    simp
  · simp [entriesOf_of_ne hd, hd]

theorem writeLabel_entriesOf {d' : Conn} {a : Act} {cut : ℕ} :
    (entriesOf d' [(d, a)]).flatMap (writeLabel cut) = if d = d' then writeLabel cut a else [] := by
  by_cases hd : d = d'
  · subst hd
    simp
  · simp [entriesOf_of_ne hd, hd]

theorem up_step (h : Ends ⟨s, e, s'⟩) (d : Conn) : (Wire.lts frameCodec).Run (s.up d)
    ((upLabelsOf d ⟨s, e, s'⟩).map fun l => ⟨s.up d, l, s'.up d⟩) (s'.up d) := by
  unfold upLabelsOf
  cases h with
  | quiet hd hp hx hu =>
    simp only [hd, hp, hx, List.flatMap_nil, List.append_nil, List.map_nil]
    exact wire_refl hu
  | daemonRead hd hp hx hw hu =>
    simp only [hd, hp, hx, List.flatMap_nil, List.append_nil, readLabel_entriesOf]
    exact wire_step hw hu
  | daemonSent hd hp hx _ hu =>
    simp only [hd, hp, hx, List.flatMap_nil, List.append_nil, readLabel_entriesOf, readLabel,
      ite_self, List.map_nil]
    exact wire_refl hu
  | peerRead hd hp hx _ hu =>
    simp only [hd, hp, hx, List.flatMap_nil, List.append_nil, writeLabel_entriesOf, writeLabel,
      ite_self, List.map_nil]
    exact wire_refl hu
  | peerSent hd hp hx hw hu =>
    simp only [hd, hp, hx, List.flatMap_nil, List.append_nil, List.nil_append,
      writeLabel_entriesOf]
    exact wire_step hw hu
  | inject _ hd hp hx hu =>
    simp only [hd, hp, hx, List.flatMap_nil, List.nil_append]
    exact wire_step rfl hu

theorem down_step (h : Ends ⟨s, e, s'⟩) (d : Conn) : (Wire.lts frameCodec).Run (s.down d)
    ((downLabelsOf d ⟨s, e, s'⟩).map fun l => ⟨s.down d, l, s'.down d⟩) (s'.down d) := by
  unfold downLabelsOf
  cases h with
  | quiet hd hp _ _ hu | inject _ hd hp _ _ hu =>
    simp only [hd, hp, List.flatMap_nil, List.append_nil, List.map_nil]
    exact wire_refl hu
  | daemonRead hd hp _ _ _ hu =>
    simp only [hd, hp, List.flatMap_nil, List.append_nil, writeLabel_entriesOf, writeLabel,
      ite_self, List.map_nil]
    exact wire_refl hu
  | daemonSent hd hp _ hw _ hu =>
    simp only [hd, hp, List.flatMap_nil, List.append_nil, writeLabel_entriesOf]
    exact wire_step hw hu
  | peerRead hd hp _ hw _ hu =>
    simp only [hd, hp, List.flatMap_nil, List.nil_append, readLabel_entriesOf]
    exact wire_step hw hu
  | peerSent hd hp _ _ _ hu =>
    simp only [hd, hp, List.flatMap_nil, List.append_nil, readLabel_entriesOf, readLabel,
      ite_self, List.map_nil]
    exact wire_refl hu

/-- The run of the system is a run of each wire to the daemon. -/
theorem up_run (hr : lts.Run (.init starts) tr s) (d : Conn) :
    (Wire.lts frameCodec).Run .empty (upRun d tr) (s.up d) := by
  have h := hr.project (B := Wire.lts frameCodec) (f := fun s => s.up d)
    (g := fun m => (upLabelsOf d m).map fun l => ⟨m.src.up d, l, m.dst.up d⟩) (I := Sane)
    .init (fun _ _ _ hi hst => hi.step hst)
    fun _ _ _ hi hst => up_step (ends (step_cases hi.sound hst)) d
  exact h

/-- The run of the system is a run of each wire from the daemon. -/
theorem down_run (hr : lts.Run (.init starts) tr s) (d : Conn) :
    (Wire.lts frameCodec).Run .empty (downRun d tr) (s.down d) := by
  have h := hr.project (B := Wire.lts frameCodec) (f := fun s => s.down d)
    (g := fun m => (downLabelsOf d m).map fun l => ⟨m.src.down d, l, m.dst.down d⟩) (I := Sane)
    .init (fun _ _ _ hi hst => hi.step hst)
    fun _ _ _ hi hst => down_step (ends (step_cases hi.sound hst)) d
  exact h

end System

end Gritty
