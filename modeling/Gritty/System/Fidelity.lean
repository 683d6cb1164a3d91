import Gritty.System.Lines

/-!
# What passes between a peer and the daemon

A connection of a peer that leads to the daemon carries frames in both directions.  The wires carry
bytes, and a send that fails leaves a part of a frame on them, but each side reads what the other
one wrote, in order, and no byte of it is ever decoded to an error.

What the peer does on its end and the daemon on the other one is read off the run of the system as
runs of two wires, so that the laws of the wires apply.

## Main definitions

* `peerActsOn` : what a peer does on one of its connections.
* `Carried` : what is read is a prefix of what was written, and what has arrived is readable.

## Main results

* `dial_stable` : where a connection leads is settled when it is made.
* `failuresStick` : once a send of the daemon has failed, no later one on the connection succeeds.
* `carried_up`, `carried_down` : the two directions.
* `fidelity` : both of them, for every run of the system.
* `no_decodeError` : no side of such a line ever reads an error of the decoder.
-/

namespace Gritty

namespace System

open FrameCodec (frameCodec frameDecoder Representable)
open Server (Act)
open Terminal (said)

/-- What the peer `i` did on its connection `c`, in order. -/
def peerActsOn (i : ℕ) (c : Conn) (tr : List (Move State Event)) : List Act :=
  entriesOf c (Peer.acts (peerRun i tr))

/-- What was done on one end of a wire, and on the other end: what was written is what was read, in
order, followed by what is on the wire; and what has arrived is never decoded to an error. -/
structure Carried (w : Wire UInt8) (written read : List Frame) : Prop where
  queue : written = read ++ (frameDecoder.drain w.elems).items
  readable : ∀ p, p <+: w.elems → ∀ e rest, FrameCodec.decode p ≠ (.error e, rest)

variable {starts : ℕ → Peer.Start} {s s' : State} {e : Event} {tr tr' : List (Move State Event)}
  {i : ℕ} {c d : Conn}

/-! ### The ends of a line -/

/-- Where a connection leads is settled when it is made. -/
theorem dial_stable (hr : lts.Run s tr s') (hi : Sane s) (hc : c < (s.peers i).connections) :
    s'.dial i c = s.dial i c := by
  have h : Sane s' ∧ c < (s'.peers i).connections ∧ s'.dial i c = s.dial i c := by
    refine hr.invariant (P := fun _ => True)
      (I := fun _ s' => Sane s' ∧ c < (s'.peers i).connections ∧ s'.dial i c = s.dial i c)
      (fun _ _ => trivial) ⟨hi, hc, rfl⟩ ?_
    rintro tr s₁ e s₂ ⟨hs, hc, hd⟩ - hst
    have h := step_cases hs.sound hst
    refine ⟨hs.step hst, ?_⟩
    rcases settled_or h with hset | ⟨j, rfl⟩ | rfl
    · exact ⟨hc.trans_le (hset.peers i), by rw [hset.dial, hd]⟩
    · cases h with
      | @connect _ p daemon hp =>
        refine ⟨hc.trans_le (setPeer_connections hp i), ?_⟩
        show (s₁.dialed j).dial i c = _
        rw [dialed_dial, if_neg, hd]
        rintro ⟨rfl, rfl⟩
        exact Nat.lt_irrefl _ hc
    · cases h with
      | stranger => exact ⟨hc, hd⟩
  exact h.2.2

/-- A connection that the daemon has led where it leads from the beginning. -/
theorem dial_old (hr : lts.Run s tr s') (hi : Sane s) (hd : d < s.daemon.connected)
    (h : s'.dial i c = some d) : s.dial i c = some d := by
  have hall : Sane s' ∧ d < s'.daemon.connected ∧
      (s'.dial i c = some d → s.dial i c = some d) := by
    refine hr.invariant (P := fun _ => True)
      (I := fun _ s' => Sane s' ∧ d < s'.daemon.connected ∧
        (s'.dial i c = some d → s.dial i c = some d)) (fun _ _ => trivial) ⟨hi, hd, id⟩ ?_
    rintro tr s₁ e s₂ ⟨hs, hlt, hold⟩ - hst
    have h := step_cases hs.sound hst
    refine ⟨hs.step hst, ?_⟩
    rcases settled_or h with hset | ⟨j, rfl⟩ | rfl
    · exact ⟨hset.connected ▸ hlt, hset.dial ▸ hold⟩
    · cases h with
      | connect hp hdaemon =>
        refine ⟨Daemon.connected_of_connect hdaemon ▸ Nat.lt_succ_of_lt hlt, fun hnew => hold ?_⟩
        change (s₁.dialed j).dial i c = some d at hnew
        rw [dialed_dial] at hnew
        split at hnew
        · exact absurd hlt ((Option.some.inj hnew) ▸ Nat.lt_irrefl _)
        · exact hnew
    · cases h with
      | stranger hdaemon =>
        exact ⟨Daemon.connected_of_connect hdaemon ▸ Nat.lt_succ_of_lt hlt, hold⟩
  exact hall.2.2 h

theorem strangers_stable (hr : lts.Run s tr s') (hi : Sane s) (hd : d ∈ s.strangers) :
    d ∈ s'.strangers := by
  have h : Sane s' ∧ d ∈ s'.strangers := by
    refine hr.invariant (P := fun _ => True) (I := fun _ s' => Sane s' ∧ d ∈ s'.strangers)
      (fun _ _ => trivial) ⟨hi, hd⟩ ?_
    rintro tr s₁ e s₂ ⟨hs, hd⟩ - hst
    have h := step_cases hs.sound hst
    refine ⟨hs.step hst, ?_⟩
    rcases settled_or h with hset | ⟨j, rfl⟩ | rfl
    · exact hset.strangers ▸ hd
    · cases h with
      | connect => exact hd
    · cases h with
      | stranger => exact List.mem_append_left _ hd
  exact h.2

theorem daemonEnd_eq (d : Conn) (tr : List (Move State Event)) :
    tr.flatMap (daemonEnd d) = Daemon.actsOn d (daemonRun tr) := by
  rw [Daemon.actsOn, daemonRun, List.flatMap_assoc, entriesOf_flatMap]
  refine List.flatMap_congr fun m _ => ?_
  obtain ⟨s, e, s'⟩ := m
  cases e <;> simp [daemonEnd, daemonMovesOf, Daemon.actsOf_connect]

theorem peer_of_step {cut : ℕ} {e : Peer.Event} (h : Step s (.peer i e cut) s') :
    Peer.Step (s.peers i) e (s'.peers i) := by
  cases h with
  | peerQuiet hp | peerAstray hp => exact (setPeer_peers_self s i _).symm ▸ hp
  | peerRead hp | peerSent hp =>
    show Peer.Step _ _ ((s.setPeer i _).peers i)
    exact (setPeer_peers_self s i _).symm ▸ hp

theorem connect_of_step (h : Step s (.connect i) s') :
    Peer.Step (s.peers i) (s.peers i).connect (s'.peers i) := by
  cases h with
  | connect hp =>
    show Peer.Step _ _ ((s.setPeer i _).peers i)
    exact (setPeer_peers_self s i _).symm ▸ hp

theorem peerEnd_eq (hr : lts.Run (.init starts) tr s) (hd : s.dial i c = some d) :
    tr.flatMap (peerEnd d) = peerActsOn i c tr := by
  rw [peerActsOn, Peer.acts, peerRun, List.flatMap_assoc, entriesOf_flatMap]
  refine List.flatMap_congr fun m hm => ?_
  obtain ⟨tr₁, tr₂, rfl⟩ := List.append_of_mem hm
  obtain ⟨hr₁, hst, hr₂⟩ := hr.cut_at
  obtain ⟨s₁, e, s₂⟩ := m
  have hi : Sane s₁ := sane hr₁
  cases e with
  | peer j e cut =>
    have hp := peer_of_step (step_cases hi.sound hst)
    have hrest : lts.Run s₁ ([⟨s₁, .peer j e cut, s₂⟩] ++ tr₂) s := (LTS.Run.single hst).append hr₂
    rcases hp.actsOf_cases (hi.sound j) with ha | ⟨c', a, ha, hlt⟩
    · by_cases hj : j = i
      · subst hj
        simp [peerEnd, peerMovesOf, ha]
      · simp [peerEnd, peerMovesOf, ha, hj]
    · -- the line of the connection is known, and no other connection has the same one
      have hdial : s₁.dial j c' = s.dial j c' := (dial_stable hrest hi hlt).symm
      rw [peerEnd_of rfl ha, hdial]
      by_cases hjc : j = i ∧ c' = c
      · obtain ⟨rfl, rfl⟩ := hjc
        simp [peerMovesOf, ha, hd]
      · have hne : s.dial j c' ≠ some d := fun h => hjc ((sane hr).inj _ _ _ _ _ h hd)
        rw [entriesOf_of_ne hne]
        by_cases hj : j = i
        · subst hj
          have hc : c' ≠ c := fun h => hjc ⟨rfl, h⟩
          simp [peerMovesOf, ha, entriesOf_of_ne hc]
        · simp [peerMovesOf, hj]
  | connect j =>
    obtain ⟨-, ha⟩ := (connect_of_step (step_cases hi.sound hst)).connects
    by_cases hj : j = i
    · subst hj
      simp [peerEnd, peerMovesOf, ha]
    · simp [peerEnd, peerMovesOf, hj]
  | _ => rfl

/-! ### The wires of a line -/

/-- What a peer reads and writes on its end, and the daemon on the other one, is what happens on the
wires. -/
theorem written_writeLabel (as : List Act) (cut : ℕ) :
    (as.flatMap (writeLabel cut)).flatMap Wire.Label.written = as.filterMap Act.written? := by
  induction as with
  | nil => rfl
  | cons a as ih =>
    rw [List.flatMap_cons, List.flatMap_append, ih]
    rcases a with f | ⟨f, _ | _⟩ <;> rfl

theorem taken_writeLabel (as : List Act) (cut : ℕ) :
    (as.flatMap (writeLabel cut)).flatMap Wire.Label.taken = [] := by
  induction as with
  | nil => rfl
  | cons a as ih =>
    rw [List.flatMap_cons, List.flatMap_append, ih]
    rcases a with f | ⟨f, _ | _⟩ <;> rfl

theorem written_readLabel (as : List Act) :
    (as.flatMap readLabel).flatMap Wire.Label.written = [] := by
  induction as with
  | nil => rfl
  | cons a as ih =>
    rw [List.flatMap_cons, List.flatMap_append, ih]
    cases a <;> rfl

theorem taken_readLabel (as : List Act) :
    (as.flatMap readLabel).flatMap Wire.Label.taken = as.filterMap Act.read? := by
  induction as with
  | nil => rfl
  | cons a as ih =>
    rw [List.flatMap_cons, List.flatMap_append, ih]
    cases a <;> rfl

theorem good_writeLabel {as : List Act} {cut : ℕ} {l : Wire.Label UInt8 Frame}
    (h : ∀ f ∈ said as, Representable f) (hl : l ∈ as.flatMap (writeLabel cut)) :
    l.Good frameCodec := by
  obtain ⟨a, ha, hl⟩ := List.mem_flatMap.1 hl
  cases a with
  | read => cases hl
  | sent f ok =>
    obtain rfl := List.mem_singleton.1 hl
    exact h f (List.mem_filterMap.2 ⟨_, ha, rfl⟩)

theorem good_readLabel {as : List Act} {l : Wire.Label UInt8 Frame}
    (hl : l ∈ as.flatMap readLabel) : l.Good frameCodec := by
  obtain ⟨a, -, hl⟩ := List.mem_flatMap.1 hl
  cases a with
  | read => exact List.mem_singleton.1 hl ▸ trivial
  | sent => cases hl

theorem strangerEnd_eq (hr : lts.Run (.init starts) tr s) (hd : s.dial i c = some d)
    {m : Move State Event} (hm : m ∈ tr) : strangerEnd d m = [] := by
  obtain ⟨tr₁, tr₂, rfl⟩ := List.append_of_mem hm
  obtain ⟨hr₁, hst, hr₂⟩ := hr.cut_at
  obtain ⟨s₁, e, s₂⟩ := m
  have hi : Sane s₁ := sane hr₁
  cases e with
  | inject d' bytes =>
    have hd' : d' ∈ s₁.strangers := by
      cases step_cases hi.sound hst with
      | inject hd' => exact hd'
    have hne : d' ≠ d := by
      rintro rfl
      have hrest := strangers_stable ((LTS.Run.single hst).append hr₂) hi hd'
      exact ((sane hr).strangers d' hrest).2 i c hd
    exact if_neg hne
  | _ => rfl

theorem Carried.isPrefix {w : Wire UInt8} {written read : List Frame} (h : Carried w written read) :
    read <+: written := ⟨_, h.queue.symm⟩

/-- The frame that is read first was written first. -/
theorem Carried.head? {w : Wire UInt8} {written read : List Frame} {f : Frame}
    (h : Carried w written read) (hf : read.head? = some f) : written.head? = some f := by
  obtain ⟨rest, rfl⟩ := h.isPrefix
  cases read with
  | nil => cases hf
  | cons g gs => exact hf

theorem Carried.of_queue {w : Wire UInt8} {written read pending : List Frame}
    (hw : Wire.Holds frameCodec w pending) (hq : written = read ++ pending) :
    Carried w written read where
  queue := by
    obtain ⟨rest, hd⟩ := hw.drain
    change frameDecoder.drain w.elems = _ at hd
    rw [hd, hq]
  readable := by
    rintro p ⟨t, ht⟩ e rest he
    obtain ⟨rest', he'⟩ := frameDecoder.error_append he t
    have hd := hw.decode
    change (FrameCodec.decode w.elems).1 = _ at hd
    change FrameCodec.decode (p ++ t) = _ at he'
    rw [← ht, he'] at hd
    cases hd

theorem written_upRun (d : Conn) (tr : List (Move State Event)) :
    Wire.written (upRun d tr) = (tr.flatMap (peerEnd d)).filterMap Act.written? := by
  simp only [Wire.written, upRun, List.flatMap_assoc, List.filterMap_flatMap]
  refine List.flatMap_congr fun m _ => ?_
  have hx : (strangerEnd d m).flatMap Wire.Label.written = [] := by
    unfold strangerEnd
    split
    · split <;> rfl
    all_goals rfl
  rw [List.flatMap_map, upLabelsOf, List.flatMap_append, List.flatMap_append, written_readLabel,
    written_writeLabel, hx, List.append_nil, List.nil_append]

theorem taken_upRun (d : Conn) (tr : List (Move State Event)) :
    Wire.taken (upRun d tr) = (tr.flatMap (daemonEnd d)).filterMap Act.read? := by
  simp only [Wire.taken, upRun, List.flatMap_assoc, List.filterMap_flatMap]
  refine List.flatMap_congr fun m _ => ?_
  have hx : (strangerEnd d m).flatMap Wire.Label.taken = [] := by
    unfold strangerEnd
    split
    · split <;> rfl
    all_goals rfl
  rw [List.flatMap_map, upLabelsOf, List.flatMap_append, List.flatMap_append, taken_readLabel,
    taken_writeLabel, hx, List.append_nil, List.append_nil]

theorem written_downRun (d : Conn) (tr : List (Move State Event)) :
    Wire.written (downRun d tr) = (tr.flatMap (daemonEnd d)).filterMap Act.written? := by
  simp only [Wire.written, downRun, List.flatMap_assoc, List.filterMap_flatMap]
  refine List.flatMap_congr fun m _ => ?_
  rw [List.flatMap_map, downLabelsOf, List.flatMap_append, written_readLabel, written_writeLabel,
    List.append_nil]

theorem taken_downRun (d : Conn) (tr : List (Move State Event)) :
    Wire.taken (downRun d tr) = (tr.flatMap (peerEnd d)).filterMap Act.read? := by
  simp only [Wire.taken, downRun, List.flatMap_assoc, List.filterMap_flatMap]
  refine List.flatMap_congr fun m _ => ?_
  rw [List.flatMap_map, downLabelsOf, List.flatMap_append, taken_readLabel, taken_writeLabel,
    List.nil_append]

theorem sticks_of_labels {a b : Act} {cut cut' : ℕ}
    (h : ∀ l ∈ writeLabel cut a, ∀ l' ∈ writeLabel cut' b, l.Failed → l'.written = []) :
    ∀ f, a = .sent f false → b.written? = none := by
  rintro f rfl
  cases b with
  | read => rfl
  | sent g ok =>
    have hw := h _ (List.mem_singleton.2 rfl) _ (List.mem_singleton.2 rfl) rfl
    cases ok with
    | false => rfl
    | true => cases hw

/-- Once a send of the daemon on a connection failed, no later one succeeds. -/
theorem failuresStick (hr : lts.Run (.init starts) tr s) :
    Daemon.FailuresStick (daemonRun tr) := by
  intro d
  have hlbl : (downRun d tr).map Move.lbl = tr.flatMap (downLabelsOf d) := by
    rw [downRun, List.map_flatMap]
    refine List.flatMap_congr fun m _ => ?_
    rw [List.map_map]
    exact List.map_id _
  have hp := Wire.failures_stick (down_run hr d)
  rw [hlbl, List.pairwise_flatMap] at hp
  obtain ⟨hwithin, hacross⟩ := hp
  rw [← daemonEnd_eq, List.pairwise_flatMap]
  refine ⟨fun m hm => ?_, hacross.imp fun {m n} h a ha b hb => ?_⟩
  · have hsends := (List.pairwise_append.1 (hwithin m hm)).1
    rw [List.pairwise_flatMap] at hsends
    exact hsends.2.imp sticks_of_labels
  · refine sticks_of_labels fun l (hl : l ∈ writeLabel (cutOf m) a) l'
      (hl' : l' ∈ writeLabel (cutOf n) b) => ?_
    exact h l (List.mem_append_left _ (List.mem_flatMap.2 ⟨a, ha, hl⟩)) l'
      (List.mem_append_left _ (List.mem_flatMap.2 ⟨b, hb, hl'⟩))

/-- **From a peer to the daemon.** -/
theorem carried_up (hr : lts.Run (.init starts) tr s) (hd : s.dial i c = some d)
    (hg : ∀ f ∈ said (peerActsOn i c tr), Representable f) :
    Carried (s.up d) ((peerActsOn i c tr).filterMap Act.written?)
      (Daemon.framesRead d (daemonRun tr)) := by
  have hgood : ∀ m ∈ upRun d tr, m.lbl.Good frameCodec := by
    intro m hm
    obtain ⟨n, hn, hm⟩ := List.mem_flatMap.1 hm
    obtain ⟨l, hl, rfl⟩ := List.mem_map.1 hm
    show l.Good frameCodec
    rw [upLabelsOf, strangerEnd_eq hr hd hn, List.append_nil] at hl
    rcases List.mem_append.1 hl with hl | hl
    · exact good_readLabel hl
    · refine good_writeLabel (fun f hf => hg f ?_) hl
      rw [← peerEnd_eq hr hd, said, List.filterMap_flatMap]
      exact List.mem_flatMap.2 ⟨n, hn, hf⟩
  obtain ⟨pending, hh, hq⟩ := Wire.queue (up_run hr d) hgood
  rw [written_upRun, taken_upRun, peerEnd_eq hr hd, daemonEnd_eq] at hq
  exact .of_queue hh hq

/-- **From the daemon to a peer.** -/
theorem carried_down (hr : lts.Run (.init starts) tr s) (hd : s.dial i c = some d)
    (hg : ∀ f ∈ said (Daemon.actsOn d (daemonRun tr)), Representable f) :
    Carried (s.down d) (Daemon.framesWritten d (daemonRun tr))
      ((peerActsOn i c tr).filterMap Act.read?) := by
  have hgood : ∀ m ∈ downRun d tr, m.lbl.Good frameCodec := by
    intro m hm
    obtain ⟨n, hn, hm⟩ := List.mem_flatMap.1 hm
    obtain ⟨l, hl, rfl⟩ := List.mem_map.1 hm
    show l.Good frameCodec
    rcases List.mem_append.1 hl with hl | hl
    · refine good_writeLabel (fun f hf => hg f ?_) hl
      rw [← daemonEnd_eq, said, List.filterMap_flatMap]
      exact List.mem_flatMap.2 ⟨n, hn, hf⟩
    · exact good_readLabel hl
  obtain ⟨pending, hh, hq⟩ := Wire.queue (down_run hr d) hgood
  rw [written_downRun, taken_downRun, peerEnd_eq hr hd, daemonEnd_eq] at hq
  exact .of_queue hh hq

/-- **Fidelity of a line.**  In every run of the system, whatever its parties send, lose and read in
whatever order, and whatever strangers write on their own connections: when the frames of a line are
representable, each side of it reads the frames that the other one wrote, in order and without a
decoding error, and the frames that were written and not read are on the wires. -/
theorem fidelity (hr : lts.Run (.init starts) tr s) (hd : s.dial i c = some d)
    (hup : ∀ f ∈ said (peerActsOn i c tr), Representable f)
    (hdown : ∀ f ∈ said (Daemon.actsOn d (daemonRun tr)), Representable f) :
    Carried (s.up d) ((peerActsOn i c tr).filterMap Act.written?)
        (Daemon.framesRead d (daemonRun tr)) ∧
      Carried (s.down d) (Daemon.framesWritten d (daemonRun tr))
        ((peerActsOn i c tr).filterMap Act.read?) :=
  ⟨carried_up hr hd hup, carried_down hr hd hdown⟩

theorem conn_of_errorOn {framed : Option Conn} {r : Server.NextFrame} {err : DecodeError}
    (h : errorOn framed r = some (d, err)) : framed = some d := by
  rcases r with _ | (_ | err' | _) | f
  case some.error.decode =>
    obtain ⟨d', rfl, heq⟩ := Option.map_eq_some_iff.1 h
    rw [(Prod.mk.inj heq).1]
  all_goals cases h

theorem lt_connected_of_error {s : Daemon.State} {tr : List (Move Daemon.State Daemon.Event)}
    {e : Daemon.Event} {err : DecodeError} (hr : Daemon.lts.Run .init tr s)
    (he : daemonError? s e = some (d, err)) : d < s.connected := by
  have hknown := (Daemon.answered_nodup hr).2 d
  have htask : ∀ {k : Daemon.TaskId}, (s.tasks k).server.phase.holds.head? = some d →
      d < s.connected := by
    intro k hhead
    have hheld := Server.holds_sublist_held.subset (List.mem_of_mem_head? hhead)
    have hhanded := (Server.held_sublist_handed (Daemon.run_serverRun hr k)).subset hheld
    rw [Daemon.handed_serverRun hr k, Daemon.mem_handedTo] at hhanded
    exact hknown (List.mem_append_right _
      ((Daemon.handOffs_sublist_answered hr).subset (List.mem_map.2 ⟨_, hhanded, rfl⟩)))
  cases e with
  | request r =>
    exact hknown (List.mem_append_left _ (Daemon.mem_owned_of_conn? (conn_of_errorOn he)))
  | task k e =>
    cases e with
    | firstFrame r =>
      cases r with
      | none => cases he
      | some r => exact htask (conn_of_errorOn he)
    | next r => exact htask (conn_of_errorOn he)
    | _ => cases he
  | _ => cases he

theorem Carried.not_errs {w : Wire UInt8} {written read : List Frame} (h : Carried w written read)
    (err : DecodeError) : errs w err = false := by
  unfold errs
  cases hd : FrameCodec.decode w.elems with
  | mk answer rest =>
    cases answer with
    | error e => exact absurd hd (h.readable _ (List.prefix_refl _) e rest)
    | ok => rfl

/-- **No side of such a line ever reads an error of the decoder.** -/
theorem no_decodeError {tr₁ tr₂ : List (Move State Event)} {m : Move State Event}
    (hr : lts.Run (.init starts) (tr₁ ++ m :: tr₂) s) (hd : s.dial i c = some d)
    (hup : ∀ f ∈ said (peerActsOn i c tr₁), Representable f)
    (hdown : ∀ f ∈ said (Daemon.actsOn d (daemonRun tr₁)), Representable f) (cut : ℕ)
    (err : DecodeError) :
    (∀ e, m.lbl = .daemon e cut → daemonError? m.src.daemon e ≠ some (d, err)) ∧
      ∀ e, m.lbl = .peer i e cut → peerError? (m.src.peers i) e ≠ some (c, err) := by
  obtain ⟨hr₁, hst, hr₂⟩ := hr.cut_at
  have hi : Sane m.src := sane hr₁
  have hrest : lts.Run m.src ([⟨m.src, m.lbl, m.dst⟩] ++ tr₂) s := (LTS.Run.single hst).append hr₂
  obtain ⟨hans, -⟩ := answers_of_step hst
  refine ⟨fun e hl herr => ?_, fun e hl herr => ?_⟩
  · have hdial : m.src.dial i c = some d :=
      dial_old hrest hi (lt_connected_of_error (daemon_run hr₁) herr) hd
    rw [hl, State.answers, herr] at hans
    change errs (m.src.up d) err = true at hans
    rw [(carried_up hr₁ hdial hup).not_errs] at hans
    cases hans
  · rw [hl, State.answers, herr] at hans
    change ((m.src.dial i c).map fun d => errs (m.src.down d) err).getD false = true at hans
    cases hc : m.src.dial i c with
    | none =>
      rw [hc] at hans
      cases hans
    | some d' =>
      have hdial : s.dial i c = some d' := by
        rw [dial_stable hrest hi (hi.dial _ _ _ hc).1, hc]
      obtain rfl := Option.some.inj (hdial.symm.trans hd)
      rw [hc, Option.map_some, Option.getD_some, (carried_down hr₁ hc hdown).not_errs] at hans
      cases hans

/-- A stranger writes half a frame, and a session is killed that does not exist. -/
def killEvents : List Event :=
  [.stranger, .connect 0, .inject 0 [2, 0, 0], .peer 0 (.oneshot (.sent true)) 0, .daemon .reap 0,
    .daemon (.accept false) 0, .daemon .reap 0, .daemon (.accept true) 0,
    .daemon (.request (some (.ok (.killSession "x")))) 0, .daemon (.replied true) 0,
    .peer 0 (.oneshot (.next (some (.ok (.error "no such session: x"))))) 0]

theorem fidelity_kill :
    ∃ s, LTS.exec step (.init fun _ => .oneshot (.killSession "x")) killEvents = some s ∧
      Carried (s.up 1) [.killSession "x"] [.killSession "x"] ∧
      Carried (s.down 1) [.error "no such session: x"] [.error "no such session: x"] := by
  have h : ∃ s, LTS.exec step (.init fun _ => .oneshot (.killSession "x")) killEvents = some s ∧
      s.dial 0 0 = some 1 := ⟨_, rfl, rfl⟩
  obtain ⟨s, h, hd⟩ := h
  refine ⟨s, h, fidelity (LTS.run_of_exec h) hd (fun f hf => ?_) fun f hf => ?_⟩
  · obtain rfl : f = .killSession "x" := List.mem_singleton.1 hf
    exact ⟨by decide, trivial⟩
  · obtain rfl : f = .error "no such session: x" := List.mem_singleton.1 hf
    exact ⟨by decide, trivial⟩

end System

end Gritty
