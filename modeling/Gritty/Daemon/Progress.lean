import Gritty.Daemon.Connections
import Gritty.LTS.Leads

/-!
# What the control loop waits for

`Net` puts the control loop among its peers: what they have sent, whether they take a reply, and
whether a signal is pending.  `Net.loop` is the next step that the loop makes without any of them.
Inside the `select!` the loop waits for everybody, but the first frame and the reply of a connection
are awaited outside of it, so a peer that is not prompt keeps all others waiting.

## Main definitions

* `Net.loop` : where the loop goes by itself.
* `NotStalled` : the loop can go on, take a pending signal, and take each complete request that
  waits.
* `ClearAhead` : the connections ahead of one are prompt.

## Main results

* `daemon_step` : what happens among the peers is a step of the daemon or does not touch it.
* `leads_takes` : the loop comes to a connection if those ahead of it are prompt, and only then.
* `notStalled_iff` : in every reachable state, the loop is not stalled exactly when the connection
  that it works on is prompt and so are those ahead of a waiting request.
-/

namespace Gritty

namespace Daemon

open FrameCodec (decode encode)

/-! ### The peers -/

/-- The other end of a connection. -/
structure Peer where
  /-- bytes sent and not read yet -/
  inbox : List UInt8
  closed : Bool
  /-- the socket takes a reply without the peer reading more -/
  writable : Bool
  sameUid : Bool

/-- What `framed.next()` resolves to, if it does not wait for the peer. -/
def Peer.next? (p : Peer) : Option Server.NextFrame :=
  match (decode p.inbox).1 with
  | .ok (some frame) => some (some (.ok frame))
  | .error e => some (some (.error (.decode e)))
  | .ok none =>
    if p.closed then some (if p.inbox = [] then none else some (.error .bytesRemaining)) else none

/-- The frame is taken off the buffer. -/
def Peer.read (p : Peer) : Peer := { p with inbox := (decode p.inbox).2 }

/-- The daemon and its peers. -/
structure Net where
  daemon : State
  peers : Conn → Peer
  /-- SIGTERM or SIGINT is pending -/
  signalled : Bool

/-- Nobody has connected; `sameUid` says who will pass the check of the peer. -/
def Net.init (sameUid : Conn → Bool) : Net where
  daemon := .init
  peers := fun c => ⟨[], false, true, sameUid c⟩
  signalled := false

/-- The daemon takes a step of its own. -/
def Net.perform (s : Net) (e : Event) : Option Net :=
  (step s.daemon e).map fun daemon => { s with daemon := daemon }

/-- The next step of the control loop, signals apart, if it does not wait for anybody. -/
def Net.loop (s : Net) : Option Net :=
  match s.daemon.control with
  | .top => s.perform .reap
  | .accepting =>
    match s.daemon.backlog with
    | framed :: _ => s.perform (.accept (s.peers framed).sameUid)
    | [] => none
  | .reading framed =>
    match (s.peers framed).next? with
    | some r =>
      (s.perform (.request r)).map fun s' =>
        { s' with peers := Function.update s.peers framed (s.peers framed).read }
    | none => none
  | .replying framed _ _ =>
    if (s.peers framed).closed then s.perform (.replied false)
    else if (s.peers framed).writable then s.perform (.replied true)
    else none
  | .returned _ | .panicked => none

/-- What can happen: a step of the loop, a signal, or something among the peers. -/
inductive NetEvent where
  | loop
  /-- the `select!` takes a pending signal -/
  | signal
  | acceptErr
  /-- the tasks and the `HashMap` move, or someone connects -/
  | beside (e : Event)
  | send (framed : Conn) (bytes : List UInt8)
  | close (framed : Conn)
  /-- the peer reads, or its buffer fills up -/
  | room (framed : Conn) (writable : Bool)
  | raise

/-- The events that are not steps of the control loop. -/
def Event.isBeside : Event → Bool
  | .task _ _ | .finish _ | .rehash _ | .connect => true
  | .reap | .accept _ | .acceptErr | .signal | .request _ | .replied _ => false

/-- Replace a peer. -/
def Net.setPeer (s : Net) (framed : Conn) (p : Peer) : Net :=
  { s with peers := Function.update s.peers framed p }

/-- What an event does, when it can happen. -/
def Net.step (s : Net) : NetEvent → Option Net
  | .loop => s.loop
  | .signal =>
    if s.signalled then (s.perform .signal).map fun s' => { s' with signalled := false } else none
  | .acceptErr => s.perform .acceptErr
  | .beside e => if e.isBeside then s.perform e else none
  | .send framed bytes =>
    let p := s.peers framed
    if p.closed then none else some (s.setPeer framed { p with inbox := p.inbox ++ bytes })
  | .close framed => some (s.setPeer framed { s.peers framed with closed := true })
  | .room framed writable => some (s.setPeer framed { s.peers framed with writable := writable })
  | .raise => some { s with signalled := true }

/-- The control loop among its peers, as a transition system. -/
def netLts : LTS Net NetEvent := .ofFun Net.step

/-! ### Stalled states -/

/-- The `select!` is next, or `run` returned. -/
def Net.AtSelect (s : Net) : Prop :=
  s.daemon.control = .accepting ∨ ∃ ok, s.daemon.control = .returned ok

/-- The connection `c` is served next, or `run` returned. -/
def Net.Takes (c : Conn) (s : Net) : Prop :=
  s.daemon.control = .reading c ∨ ∃ ok, s.daemon.control = .returned ok

/-- A complete request of another connection waits. -/
def Net.Waiting (s : Net) (c : Conn) : Prop :=
  c ∈ s.daemon.backlog ∧ (s.peers c).sameUid = true ∧
    ∃ frame, (s.peers c).next? = some (some (.ok frame))

/-- The control loop needs no accepted connection to send or to read more. -/
structure NotStalled (s : Net) : Prop where
  select : LTS.Leads Net.loop Net.AtSelect s
  /-- a pending signal can be taken -/
  signal : s.signalled = true →
    LTS.Leads Net.loop (fun s => (s.step .signal).isSome ∨ ∃ ok, s.daemon.control = .returned ok) s
  /-- a complete request that waits on another connection can be taken -/
  request : ∀ c, s.Waiting c → LTS.Leads Net.loop (Net.Takes c) s

/-- A reply can be sent at once, or fails at once. -/
def Peer.Answerable (p : Peer) : Prop := p.closed = true ∨ p.writable = true

/-- The first frame is there, or is known not to come, and the reply to it can be sent. -/
def Peer.Ready (p : Peer) : Prop :=
  ∃ r, p.next? = some r ∧ ∀ frame, r = some (.ok frame) → p.Answerable

/-- The peer asks the daemon to end. -/
def Peer.Kills (p : Peer) : Prop := p.next? = some (some (.ok .killServer))

/-- The connections are served without waiting for them, up to one that ends the daemon. -/
def ClearAhead (peers : Conn → Peer) : List Conn → Prop
  | [] => True
  | framed :: ahead =>
    ((peers framed).sameUid = true → (peers framed).Ready) ∧
      ((peers framed).sameUid = true ∧ (peers framed).Kills ∨ ClearAhead peers ahead)

/-- The connections ahead of a complete request are prompt. -/
def Net.WaitingClear (s : Net) : Prop :=
  ∀ ahead c rest, s.daemon.backlog = ahead ++ c :: rest → s.Waiting c → ClearAhead s.peers ahead

/-- The connection that the loop works on is prompt, and so are those ahead of a request. -/
def Net.Clear (s : Net) : Prop :=
  match s.daemon.control with
  | .top | .accepting => s.WaitingClear
  | .reading framed => (s.peers framed).Ready ∧ ((s.peers framed).Kills ∨ s.WaitingClear)
  | .replying framed _ next => (s.peers framed).Answerable ∧ (next = .quit ∨ s.WaitingClear)
  | .returned _ | .panicked => True

variable {s s' : Net} {c d : Conn} {G : Net → Prop}

/-! ### The steps of the loop -/

theorem loop_top (hc : s.daemon.control = .top) :
    s.loop = some { s with daemon := { s.daemon.reap with control := .accepting } } := by
  simp [Net.loop, Net.perform, step, hc]

theorem loop_accepting {backlog : List Conn} (hc : s.daemon.control = .accepting)
    (hb : s.daemon.backlog = d :: backlog) : s.loop =
      some { s with daemon := { s.daemon with
        backlog := backlog, control := if (s.peers d).sameUid then .reading d else .top } } := by
  simp [Net.loop, Net.perform, step, hc, hb]

theorem quit_iff_of_serve {s s' : State} {frame reply : Frame} {next : Next}
    (h : Serve s d frame s') (hc : s'.control = .replying d reply next) :
    next = .quit ↔ frame = .killServer := by
  cases h with
  | unexpected hn =>
    cases hc
    refine iff_of_false (by simp) ?_
    rintro rfl
    exact hn trivial
  | _ =>
    cases hc
    simp

theorem loop_reading (hc : s.daemon.control = .reading d) {r : Server.NextFrame}
    (hr : (s.peers d).next? = some r) : ∃ s', s.loop = some s' ∧
      s'.daemon.backlog = s.daemon.backlog ∧ s'.signalled = s.signalled ∧
      (∀ c, c ≠ d → s'.peers c = s.peers c) ∧
      ((s'.peers d).Answerable ↔ (s.peers d).Answerable) ∧
      ((∃ frame reply next, r = some (.ok frame) ∧ s'.daemon.control = .replying d reply next ∧
          (next = .quit ↔ frame = .killServer)) ∨
        ((∀ frame, r ≠ some (.ok frame)) ∧ s'.daemon.control = .top)) := by
  have hloop : ∀ daemon, step s.daemon (.request r) = some daemon → s.loop =
      some ⟨daemon, Function.update s.peers d (s.peers d).read, s.signalled⟩ := by
    intro daemon hs
    simp [Net.loop, Net.perform, hc, hr, hs]
  have hpeers : ∀ c, c ≠ d → Function.update s.peers d (s.peers d).read c = s.peers c :=
    fun c hcd => Function.update_of_ne hcd _ _
  have hans : (Function.update s.peers d (s.peers d).read d).Answerable ↔
      (s.peers d).Answerable := by
    rw [Function.update_self]
    rfl
  by_cases hok : ∃ frame, r = some (.ok frame)
  · obtain ⟨frame, rfl⟩ := hok
    have hs : step s.daemon (.request (some (.ok frame))) = some (s.daemon.serve d frame) := by
      simp [step, hc]
    have hserve := serve_cases (s := s.daemon) d frame
    obtain ⟨⟨reply, next, hrep⟩, -, -, hb, -⟩ := serve_logs hserve
    refine ⟨_, hloop _ hs, hb, rfl, hpeers, hans, .inl ?_⟩
    exact ⟨frame, reply, next, rfl, hrep, quit_iff_of_serve hserve hrep⟩
  · have hno : ∀ frame, r ≠ some (.ok frame) := fun frame h => hok ⟨frame, h⟩
    have hs : step s.daemon (.request r) = some { s.daemon with control := .top } := by
      rcases r with _ | _ | frame
      · simp [step, hc]
      · simp [step, hc]
      · exact absurd rfl (hno frame)
    exact ⟨_, hloop _ hs, rfl, rfl, hpeers, hans, .inr ⟨hno, rfl⟩⟩

theorem loop_replying {reply : Frame} {next : Next} (hc : s.daemon.control = .replying d reply next)
    (ha : (s.peers d).Answerable) : ∃ s', s.loop = some s' ∧
      s'.daemon.backlog = s.daemon.backlog ∧ s'.signalled = s.signalled ∧ s'.peers = s.peers ∧
      ((next = .quit ∧ s'.daemon.control = .returned true) ∨
        (next ≠ .quit ∧ s'.daemon.control = .top)) := by
  have hloop : ∃ replies, s.loop =
      some { s with daemon := { s.daemon with replies := replies }.proceed d next } := by
    by_cases hcl : (s.peers d).closed = true
    · exact ⟨s.daemon.replies, by simp [Net.loop, Net.perform, step, hc, hcl]⟩
    · have hw : (s.peers d).writable = true := ha.resolve_left hcl
      exact ⟨s.daemon.replies ++ [(d, reply)], by simp [Net.loop, Net.perform, step, hc, hcl, hw]⟩
  obtain ⟨replies, hloop⟩ := hloop
  refine ⟨_, hloop, ?_, rfl, rfl, ?_⟩
  · cases next <;> rfl
  · cases next <;> simp [State.proceed]

/-! ### Where the loop goes -/

/-- A goal that the loop only meets in the `select!`, at a connection or at its end. -/
structure IsGoal (G : Net → Prop) : Prop where
  top : ∀ s, s.daemon.control = .top → ¬ G s
  replying : ∀ s d reply next, s.daemon.control = .replying d reply next → ¬ G s
  returned : ∀ s ok, s.daemon.control = .returned ok → G s

theorem leads_replying (hG : IsGoal G) {reply : Frame} {next : Next}
    (hc : s.daemon.control = .replying d reply next) :
    ∃ s', s'.daemon.control = .top ∧ s'.daemon.backlog = s.daemon.backlog ∧
      s'.signalled = s.signalled ∧ s'.peers = s.peers ∧
      (LTS.Leads Net.loop G s ↔
        (s.peers d).Answerable ∧ (next = .quit ∨ LTS.Leads Net.loop G s')) := by
  have hno : ¬ G s := hG.replying s d reply next hc
  by_cases ha : (s.peers d).Answerable
  · obtain ⟨s', hs', hb, hsig, hp, hcase⟩ := loop_replying hc ha
    rw [LTS.leads_iff_of_some hs' hno]
    rcases hcase with ⟨rfl, hc'⟩ | ⟨hn, hc'⟩
    · refine ⟨{ s with daemon := { s.daemon with control := .top } }, rfl, rfl, rfl, rfl, ?_⟩
      exact iff_of_true (.here (hG.returned s' true hc')) ⟨ha, .inl rfl⟩
    · refine ⟨s', hc', hb, hsig, hp, ?_⟩
      simp [ha, hn]
  -- the peer does not take the reply
  · refine ⟨{ s with daemon := { s.daemon with control := .top } }, rfl, rfl, rfl, rfl, ?_⟩
    have hs : s.loop = none := by
      simp only [Peer.Answerable, not_or] at ha
      simp [Net.loop, hc, ha.1, ha.2]
    rw [LTS.leads_iff_of_none hs]
    exact iff_of_false hno fun h => ha h.1

theorem ready_iff {p : Peer} {r : Server.NextFrame} (hr : p.next? = some r) :
    p.Ready ↔ ∀ frame, r = some (.ok frame) → p.Answerable := by
  constructor
  · rintro ⟨r', hr', h⟩
    obtain rfl := Option.some.inj (hr.symm.trans hr')
    exact h
  · exact fun h => ⟨r, hr, h⟩

theorem leads_reading (hG : IsGoal G) (hc : s.daemon.control = .reading d) (hno : ¬ G s) :
    ∃ s', s'.daemon.control = .top ∧ s'.daemon.backlog = s.daemon.backlog ∧
      s'.signalled = s.signalled ∧ (∀ c, c ≠ d → s'.peers c = s.peers c) ∧
      (LTS.Leads Net.loop G s ↔
        (s.peers d).Ready ∧ ((s.peers d).Kills ∨ LTS.Leads Net.loop G s')) := by
  cases hr : (s.peers d).next? with
  -- the first frame is not there
  | none =>
    refine ⟨{ s with daemon := { s.daemon with control := .top } }, rfl, rfl, rfl,
      fun _ _ => rfl, ?_⟩
    have hs : s.loop = none := by simp [Net.loop, hc, hr]
    rw [LTS.leads_iff_of_none hs]
    refine iff_of_false hno ?_
    rintro ⟨⟨r, hr', -⟩, -⟩
    simp [hr] at hr'
  | some r =>
    obtain ⟨s₁, hs₁, hb, hsig, hp, hans, hcase⟩ := loop_reading hc hr
    rw [LTS.leads_iff_of_some hs₁ hno]
    rcases hcase with ⟨frame, reply, next, rfl, hc₁, hquit⟩ | ⟨hno', hc₁⟩
    · obtain ⟨s₂, hc₂, hb₂, hsig₂, hp₂, hiff⟩ := leads_replying hG hc₁
      refine ⟨s₂, hc₂, hb₂.trans hb, hsig₂.trans hsig, fun c hcd => ?_, ?_⟩
      · rw [hp₂, hp c hcd]
      · have hready : (s.peers d).Ready ↔ (s.peers d).Answerable := by
          simp [ready_iff hr]
        have hkills : (s.peers d).Kills ↔ frame = .killServer := by
          simp [Peer.Kills, hr]
        rw [hiff, hans, hready, hkills, hquit]
    · refine ⟨s₁, hc₁, hb, hsig, hp, ?_⟩
      have hready : (s.peers d).Ready := (ready_iff hr).2 fun frame h => absurd h (hno' frame)
      have hkills : ¬ (s.peers d).Kills := fun h => hno' _ (Option.some.inj (hr.symm.trans h))
      simp [hready, hkills]

/-! ### The way to a waiting request -/

theorem isGoal_atSelect : IsGoal Net.AtSelect where
  top s hc := by simp [Net.AtSelect, hc]
  replying s d reply next hc := by simp [Net.AtSelect, hc]
  returned s ok hc := .inr ⟨ok, hc⟩

theorem isGoal_takes : IsGoal (Net.Takes c) where
  top s hc := by simp [Net.Takes, hc]
  replying s d reply next hc := by simp [Net.Takes, hc]
  returned s ok hc := .inr ⟨ok, hc⟩

theorem clearAhead_congr {peers peers' : Conn → Peer} {ahead : List Conn}
    (h : ∀ d ∈ ahead, peers' d = peers d) : ClearAhead peers' ahead ↔ ClearAhead peers ahead := by
  induction ahead with
  | nil => exact Iff.rfl
  | cons d ahead ih =>
    rw [ClearAhead, ClearAhead, h d List.mem_cons_self,
      ih fun d hd => h d (List.mem_cons_of_mem _ hd)]

theorem leads_takes_head {backlog : List Conn}
    (hc : s.daemon.control = .top ∨ s.daemon.control = .accepting)
    (hb : s.daemon.backlog = d :: backlog) :
    ∃ s', s'.daemon.backlog = backlog ∧ s'.peers = s.peers ∧
      s'.daemon.control = (if (s.peers d).sameUid then .reading d else .top) ∧
      (LTS.Leads Net.loop (Net.Takes c) s ↔ LTS.Leads Net.loop (Net.Takes c) s') := by
  rcases hc with hc | hc
  · let s₁ : Net := { s with daemon := { s.daemon.reap with control := .accepting } }
    have h₂ := loop_accepting (s := s₁) rfl hb
    refine ⟨_, ?_, ?_, ?_, (LTS.leads_iff_of_some (loop_top hc) (isGoal_takes.top s hc)).trans
      (LTS.leads_iff_of_some h₂ (by simp [Net.Takes]))⟩ <;> rfl
  · have hno : ¬ s.Takes c := by simp [Net.Takes, hc]
    refine ⟨_, ?_, ?_, ?_, LTS.leads_iff_of_some (loop_accepting hc hb) hno⟩ <;> rfl

/-- **The loop comes to a connection if those ahead of it are prompt**, and only then. -/
theorem leads_takes (ahead : List Conn) {rest : List Conn} (hu : (s.peers c).sameUid = true)
    (hc : s.daemon.control = .top ∨ s.daemon.control = .accepting)
    (hb : s.daemon.backlog = ahead ++ c :: rest) (hd : s.daemon.backlog.Nodup) :
    LTS.Leads Net.loop (Net.Takes c) s ↔ ClearAhead s.peers ahead := by
  induction ahead generalizing s with
  | nil =>
    obtain ⟨s', -, -, hc', hiff⟩ := leads_takes_head (c := c) hc hb
    rw [if_pos hu] at hc'
    rw [hiff]
    exact iff_of_true (.here (.inl hc')) trivial
  | cons d ahead ih =>
    obtain ⟨s', hb', hp', hc', hiff⟩ := leads_takes_head (c := c) hc hb
    rw [hb, List.cons_append] at hd
    obtain ⟨hout, hd'⟩ := List.nodup_cons.1 hd
    rw [hiff, ClearAhead, ← hp']
    rw [← hp'] at hu hc'
    by_cases hud : (s'.peers d).sameUid = true
    · rw [if_pos hud] at hc'
      have hcd : c ≠ d := by
        rintro rfl
        exact hout (by simp)
      have hno : ¬ s'.Takes c := by simp [Net.Takes, hc', Ne.symm hcd]
      obtain ⟨s₂, hc₂, hb₂, -, hp₂, hiff₂⟩ := leads_reading isGoal_takes hc' hno
      have hahead : ClearAhead s₂.peers ahead ↔ ClearAhead s'.peers ahead := by
        refine clearAhead_congr fun d' hd' => hp₂ d' ?_
        rintro rfl
        exact hout (List.mem_append_left _ hd')
      rw [hiff₂, ih (hp₂ c hcd ▸ hu) (.inl hc₂) (hb₂.trans hb') (hb₂.trans hb' ▸ hd'), hahead]
      simp [hud]
    · rw [if_neg hud] at hc'
      rw [ih hu (.inl hc') hb' (hb' ▸ hd')]
      simp [hud]

theorem leads_atSelect (hc : s.daemon.control = .top) : LTS.Leads Net.loop Net.AtSelect s :=
  .step (loop_top hc) (.here (.inl rfl))

theorem perform_step {e : Event} (h : s.perform e = some s') :
    lts.step s.daemon e s'.daemon ∧ s'.signalled = s.signalled := by
  obtain ⟨daemon, hs, rfl⟩ := Option.map_eq_some_iff.1 h
  exact ⟨hs, rfl⟩

theorem loop_step (h : s.loop = some s') :
    (∃ e, lts.step s.daemon e s'.daemon) ∧ s'.signalled = s.signalled := by
  have hperform : ∀ {e}, s.perform e = some s' →
      (∃ e, lts.step s.daemon e s'.daemon) ∧ s'.signalled = s.signalled :=
    fun h => ⟨⟨_, (perform_step h).1⟩, (perform_step h).2⟩
  unfold Net.loop at h
  split at h
  · exact hperform h
  · split at h
    · exact hperform h
    · cases h
  · split at h
    · obtain ⟨s₁, hs₁, rfl⟩ := Option.map_eq_some_iff.1 h
      obtain ⟨hst, hsig⟩ := perform_step hs₁
      exact ⟨⟨_, hst⟩, hsig⟩
    · cases h
  · split at h
    · exact hperform h
    · split at h
      · exact hperform h
      · cases h
  · cases h
  · cases h

/-- What happens among the peers is a step of the daemon or does not touch it. -/
theorem daemon_step {e : NetEvent} (h : netLts.step s e s') :
    s'.daemon = s.daemon ∨ ∃ e', lts.step s.daemon e' s'.daemon := by
  change s.step e = some s' at h
  cases e with
  | loop => exact .inr (loop_step h).1
  | signal =>
    by_cases hs : s.signalled = true
    · rw [Net.step, if_pos hs] at h
      obtain ⟨s₁, hs₁, rfl⟩ := Option.map_eq_some_iff.1 h
      exact .inr ⟨_, (perform_step hs₁).1⟩
    · rw [Net.step, if_neg hs] at h
      cases h
  | acceptErr => exact .inr ⟨_, (perform_step h).1⟩
  | beside e =>
    by_cases he : e.isBeside = true
    · rw [Net.step, if_pos he] at h
      exact .inr ⟨_, (perform_step h).1⟩
    · rw [Net.step, if_neg he] at h
      cases h
  | send framed bytes =>
    by_cases hcl : (s.peers framed).closed = true
    · simp [Net.step, hcl] at h
    · obtain rfl : s.setPeer framed _ = s' := by simpa [Net.step, hcl] using h
      exact .inl rfl
  | close | room | raise =>
    obtain rfl := Option.some.inj h
    exact .inl rfl

theorem reachable_daemon {u : Conn → Bool} (h : netLts.Reachable (.init u) s) :
    lts.Reachable .init s.daemon := by
  refine h.invariant (I := fun s => lts.Reachable .init s.daemon) (.refl _) fun s e s' hi hst => ?_
  rcases daemon_step hst with he | ⟨e', he⟩
  · rw [he]
    exact hi
  · exact hi.tail he

theorem leads_signal (h : LTS.Leads Net.loop Net.AtSelect s) (hs : s.signalled = true) :
    LTS.Leads Net.loop
      (fun s => (s.step .signal).isSome ∨ ∃ ok, s.daemon.control = .returned ok) s := by
  refine h.mono (I := fun s => s.signalled = true) hs
    (fun s s' hs hl => (loop_step hl).2.trans hs) fun s hs hg => ?_
  rcases hg with hc | hret
  · exact .inl (by simp [Net.step, hs, Net.perform, step, hc])
  · exact .inr hret

theorem notStalled_iff_of_leads {A B : Prop} (hselect : LTS.Leads Net.loop Net.AtSelect s ↔ A)
    (htakes : ∀ ahead c rest, s.daemon.backlog = ahead ++ c :: rest → s.Waiting c →
      (LTS.Leads Net.loop (Net.Takes c) s ↔ A ∧ (B ∨ ClearAhead s.peers ahead))) :
    NotStalled s ↔ A ∧ (B ∨ s.WaitingClear) := by
  constructor
  · intro hn
    refine ⟨hselect.1 hn.select, ?_⟩
    by_cases hB : B
    · exact .inl hB
    · refine .inr fun ahead c rest hb hw => ?_
      exact ((htakes ahead c rest hb hw).1 (hn.request c hw)).2.resolve_left hB
  · rintro ⟨hA, hclear⟩
    have hsel := hselect.2 hA
    refine ⟨hsel, leads_signal hsel, fun c hw => ?_⟩
    obtain ⟨ahead, rest, hb⟩ := List.append_of_mem hw.1
    exact (htakes ahead c rest hb hw).2 ⟨hA, hclear.imp_right fun h => h ahead c rest hb hw⟩

theorem leads_takes_of_peers {ahead rest : List Conn} (hw : s.Waiting c)
    (hb : s.daemon.backlog = ahead ++ c :: rest) (hd : s.daemon.backlog.Nodup)
    (hc' : s'.daemon.control = .top) (hb' : s'.daemon.backlog = s.daemon.backlog)
    (hp : ∀ d ∈ s.daemon.backlog, s'.peers d = s.peers d) :
    LTS.Leads Net.loop (Net.Takes c) s' ↔ ClearAhead s.peers ahead := by
  have hu : (s'.peers c).sameUid = true := by rw [hp c hw.1]; exact hw.2.1
  rw [leads_takes ahead hu (.inl hc') (hb'.trans hb) (hb' ▸ hd)]
  exact clearAhead_congr fun d hd => hp d (hb ▸ List.mem_append_left _ hd)

/-- **What keeps the loop waiting.**  In every reachable state: the loop can go on, take a pending
signal and take each complete request that waits, without an accepted connection sending or reading
more, if and only if the connection that it works on is prompt and so are those ahead of a waiting
request. -/
theorem notStalled_iff {u : Conn → Bool} (h : netLts.Reachable (.init u) s) :
    NotStalled s ↔ s.Clear := by
  obtain ⟨tr, hr⟩ := reachable_daemon h
  have hd : s.daemon.owned.Nodup := (List.nodup_append.1 (answered_nodup hr).1).1
  obtain ⟨hdb, -, hdis⟩ := List.nodup_append.1 hd
  -- the connection that the loop works on does not wait
  have hout : ∀ d, s.daemon.control.conn? = some d → ∀ c ∈ s.daemon.backlog, c ≠ d :=
    fun d hd c hc => hdis c hc d (by simp [hd])
  unfold Net.Clear
  split
  · next hc =>
    rw [notStalled_iff_of_leads (A := True) (B := False) (iff_of_true (leads_atSelect hc) trivial)
      fun ahead c rest hb hw => by simp [leads_takes ahead hw.2.1 (.inl hc) hb hdb]]
    simp
  · next hc =>
    rw [notStalled_iff_of_leads (A := True) (B := False) (iff_of_true (.here (.inl hc)) trivial)
      fun ahead c rest hb hw => by simp [leads_takes ahead hw.2.1 (.inr hc) hb hdb]]
    simp
  · next d hc =>
    have hne := hout d (by rw [hc]; rfl)
    refine notStalled_iff_of_leads ?_ fun ahead c rest hb hw => ?_
    · have hno : ¬ s.AtSelect := by simp [Net.AtSelect, hc]
      obtain ⟨s', hc', -, -, -, hiff⟩ := leads_reading isGoal_atSelect hc hno
      simp [hiff, leads_atSelect hc']
    · obtain ⟨s', hc', hb', -, hp, hiff⟩ := leads_reading (isGoal_takes (c := c)) hc
        (by simp [Net.Takes, hc, (hne c hw.1).symm])
      rw [hiff, leads_takes_of_peers hw hb hdb hc' hb' fun c hc => hp c (hne c hc)]
  · next d reply next hc =>
    refine notStalled_iff_of_leads ?_ fun ahead c rest hb hw => ?_
    · obtain ⟨s', hc', -, -, -, hiff⟩ := leads_replying isGoal_atSelect hc
      simp [hiff, leads_atSelect hc']
    · obtain ⟨s', hc', hb', -, hp, hiff⟩ := leads_replying (isGoal_takes (c := c)) hc
      rw [hiff, leads_takes_of_peers hw hb hdb hc' hb' fun c _ => by rw [hp]]
  · next ok hc =>
    refine iff_of_true ⟨.here (.inr ⟨ok, hc⟩), leads_signal (.here (.inr ⟨ok, hc⟩)), ?_⟩ trivial
    exact fun c _ => .here (.inr ⟨ok, hc⟩)
  · next hc => exact absurd hc (control_ne_panicked hr.reachable)

/-- Someone connects and sends nothing; a signal comes. -/
def silentEvents : List NetEvent := [.beside .connect, .loop, .loop, .raise]

/-- The signal is not taken. -/
theorem not_notStalled_silent :
    ∃ s, LTS.exec Net.step (.init fun _ => true) silentEvents = some s ∧ s.signalled = true ∧
      ¬ NotStalled s := by
  have h : ∃ s, LTS.exec Net.step (.init fun _ => true) silentEvents = some s ∧
      s.signalled = true ∧ s.daemon.control = .reading 0 ∧ s.loop = none := ⟨_, rfl, rfl, rfl, rfl⟩
  obtain ⟨s, h, hsig, hc, hl⟩ := h
  refine ⟨s, h, hsig, fun hn => ?_⟩
  have hsel := (LTS.leads_iff_of_none hl).1 hn.select
  simp [Net.AtSelect, hc] at hsel

/-- A request is there when its connection is accepted, and another connection waits behind it. -/
def promptEvents : List NetEvent :=
  [.beside .connect, .send 0 (encode .listSessions []), .beside .connect, .loop, .loop, .raise]

/-- The signal and the second connection are taken. -/
theorem notStalled_iff_prompt :
    ∃ s, LTS.exec Net.step (.init fun _ => true) promptEvents = some s ∧ NotStalled s := by
  have h : ∃ s, LTS.exec Net.step (.init fun _ => true) promptEvents = some s ∧
      s.daemon.control = .reading 0 ∧ s.daemon.backlog = [1] ∧
      s.peers 0 = ⟨encode .listSessions [], false, true, true⟩ := ⟨_, rfl, rfl, rfl, rfl⟩
  obtain ⟨s, h, hc, hb, hp⟩ := h
  refine ⟨s, h, (notStalled_iff (LTS.run_of_exec h).reachable).2 ?_⟩
  have hdec : decode (encode .listSessions []) = (.ok (some .listSessions), []) := by rfl
  have hready : (s.peers 0).Ready :=
    ⟨some (.ok .listSessions), by rw [hp, Peer.next?, hdec], fun _ _ => by rw [hp]; exact .inr rfl⟩
  have hclear : s.WaitingClear := by
    intro ahead c rest hb'
    rw [hb] at hb'
    cases ahead with
    | nil => exact fun _ => trivial
    | cons d ahead => simp at hb'
  simp only [Net.Clear, hc]
  exact ⟨hready, .inr hclear⟩

end Daemon

end Gritty
