import Gritty.Daemon.Life
import Gritty.System.Understood

/-!
# The one-shot commands take effect at one point

What a one-shot command reports is what the daemon did at one moment between its request and its
reply: a session that it reports killed was in the table and is taken out of it then, and the rows
that it lists are those of the table then.

A move of the daemon serves a connection when it reads a request there (`Serves`).  A connection is
served once, so that there is one moment only.

## Main definitions

* `Effect` : what the daemon did, for each result that a command may return with.
* `Fits` : the replies of the daemon to the command fit a frame.
* `Serves` : a move reads and serves the request of a connection.

## Main results

* `served_once`, `Serves.unique` : a connection is served by one move.
* `written_before` : the peer has written the request that the daemon reads.
* `served_at` : where a peer has read a reply, its request was served.
* `takes_effect` : exactly one move serves a command that has read its reply, and what the command
  returns with is what this move did.
-/

namespace Gritty

namespace System

open Bytes FrameCodec
open Daemon (Brief framesRead framesWritten)
open Oneshot (Command Failure Success Spoke)
open Server (Act)
open Terminal (said)

/-- What serving a command does to the daemon, and what the command reports then. -/
inductive Effect (s s' : Daemon.State) : Command → Except Failure Success → Prop
  | listed : s'.sessions = s.reap.sessions → s'.tasks = s.tasks →
      Effect s s' .listSessions
        (.ok (.listed (Daemon.buildSessionEntries s.tasks s.reap.sessions)))
  | killed {target id state} : Daemon.Answers s.reap.sessions target id →
      s.reap.sessions.lookup id = some state → s'.sessions = s.reap.sessions.erase id →
      (s'.tasks state.handle).aborted = true →
      (∀ k, k ≠ state.handle → s'.tasks k = s.tasks k) →
      Effect s s' (.killSession target) (.ok (.sessionKilled target))
  | noSession {target} : (∀ id, ¬ Daemon.Answers s.reap.sessions target id) →
      s'.sessions = s.reap.sessions → s'.tasks = s.tasks →
      Effect s s' (.killSession target) (.error (.message ("no such session: " ++ target)))
  | shutdown : s'.sessions = ∅ →
      (∀ id state, s.sessions.lookup id = some state → (s'.tasks state.handle).aborted = true) →
      Effect s s' .killServer (.ok .serverKilled)

/-- The replies to a command fit: the target leaves room for a refusal, and so do the rows of a
listing. -/
def Fits (tr : List (Move Daemon.State Daemon.Event)) : Command → Prop
  | .listSessions => ∀ m ∈ tr, m.lbl = .request (some (.ok .listSessions)) →
      Representable (.sessionInfo (Daemon.buildSessionEntries m.src.tasks m.src.reap.sessions))
  | .killSession target => Brief (.killSession target)
  | .killServer => True

variable {starts : ℕ → Peer.Start} {s s' : State} {tr : List (Move State Event)} {i : ℕ}
  {c d : Conn} {command : Command} {reply : Frame} {next : Daemon.Next}

theorem effect_of_serve {s s' : Daemon.State} (hi : Daemon.TableInv s)
    (h : Daemon.Serve s d command.request s') (hc : s'.control = .replying d reply next) :
    Effect s s' command (command.conclude reply) := by
  have hanswers : ∀ {target : String} {id : UInt32},
      Daemon.resolveSession s.reap.sessions target = some id ↔
        Daemon.Answers s.reap.sessions target id :=
    Daemon.resolveSession_eq_some_iff (hi.of_shrinks Daemon.shrinks_reap).distinct
  cases command with
  | listSessions =>
    cases h with
    | listed =>
      cases hc
      exact .listed rfl rfl
    | unexpected hn => exact absurd trivial hn
  | killSession target =>
    cases h with
    | killNone hr =>
      cases hc
      refine .noSession (fun id hid => ?_) rfl rfl
      rw [hanswers.2 hid] at hr
      cases hr
    | @killed _ id state hr hl =>
      cases hc
      refine .killed (hanswers.1 hr) hl rfl ?_ fun k hk => Function.update_of_ne hk _ _
      show (Function.update s.tasks state.handle _ state.handle).aborted = true
      rw [Function.update_self]
    | unexpected hn => exact absurd trivial hn
  | killServer =>
    cases h with
    | shutdown =>
      cases hc
      exact .shutdown rfl fun id state hl => Life.aborted_shutdown hl
    | unexpected hn => exact absurd trivial hn

/-- The run of the command. -/
def commandRun (i : ℕ) (tr : List (Move State Event)) :
    List (Move Oneshot.State Oneshot.Event) := Peer.oneshotRun (peerRun i tr)

theorem command_run (hr : lts.Run (.init starts) tr s) (hs : starts i = .oneshot command) :
    ∃ t, s.peers i = .oneshot t ∧ Oneshot.lts.Run (.init command) (commandRun i tr) t ∧
      peerActsOn i c tr = entriesOf c (Oneshot.acts (commandRun i tr)) := by
  have hp := peer_run hr i
  rw [hs] at hp
  obtain ⟨t, ht, hrun, ha⟩ := Peer.oneshot_run hp
  exact ⟨t, ht, hrun, by rw [peerActsOn, ← ha]; rfl⟩

theorem mem_said_of_written {as : List Act} {f : Frame} (h : f ∈ as.filterMap Act.written?) :
    f ∈ said as := by
  obtain ⟨a, ha, hfa⟩ := List.mem_filterMap.1 h
  refine List.mem_filterMap.2 ⟨a, ha, ?_⟩
  rcases a with _ | ⟨g, _ | _⟩
  · cases hfa
  · cases hfa
  · exact hfa

theorem said_command (hr : lts.Run (.init starts) tr s) (hs : starts i = .oneshot command)
    {f : Frame} (hf : f ∈ said (peerActsOn i c tr)) : f = command.request := by
  obtain ⟨t, -, hrun, ha⟩ := command_run (c := c) hr hs
  rw [ha] at hf
  obtain ⟨a, hm, hfa⟩ := List.mem_filterMap.1 hf
  obtain ⟨-, ⟨ok, rfl⟩ | ⟨reply, rfl, -⟩⟩ := (Oneshot.spoke hrun).2.mem (mem_entriesOf.1 hm)
  · exact (Option.some.inj hfa).symm
  · cases hfa

theorem returned_of_read (hr : lts.Run (.init starts) tr s) (hs : starts i = .oneshot command)
    (hf : .read reply ∈ peerActsOn i c tr) : c = 0 ∧
      peerActsOn i 0 tr = [.sent command.request true, .read reply] ∧
      ∃ t, s.peers i = .oneshot t ∧ t.phase = .returned (command.conclude reply) := by
  obtain ⟨t, ht, hrun, ha⟩ := command_run (c := c) hr hs
  rw [ha] at hf
  obtain ⟨rfl, ⟨ok, h⟩ | ⟨reply', h, hp, has⟩⟩ := (Oneshot.spoke hrun).2.mem (mem_entriesOf.1 hf)
  · cases h
  · obtain rfl := Act.read.inj h
    refine ⟨rfl, ?_, t, ht, hp⟩
    rw [ha, has]
    rfl

theorem representable_request {tr : List (Move Daemon.State Daemon.Event)}
    (hf : Fits tr command) : Representable command.request := by
  cases command with
  | listSessions | killServer => exact ⟨by decide, trivial⟩
  | killSession target =>
    refine ⟨?_, trivial⟩
    have hb : Brief (.killSession target) := hf
    unfold Brief at hb
    show (payload (.killSession target)).length ≤ maxFrameSize
    omega

theorem reply_of_listSessions {s s' : Daemon.State} (h : Daemon.Serve s d .listSessions s')
    (hc : s'.control = .replying d reply next) :
    reply = .sessionInfo (Daemon.buildSessionEntries s.tasks s.reap.sessions) := by
  cases h with
  | listed => exact (Daemon.Control.replying.inj hc).2.1.symm
  | unexpected hn => exact absurd trivial hn

theorem representable_answer {s : Daemon.State} {tr : List (Move Daemon.State Daemon.Event)}
    (hr : Daemon.lts.Run .init tr s) (hf : Fits tr command)
    (h : Daemon.RepliesWith tr d command.request reply next) : Representable reply := by
  cases command with
  | killSession target => exact h.representable hr hf (by simp [Command.request])
  | killServer =>
    exact h.representable hr (show (_ : ℕ) ≤ _ by decide) (by simp [Command.request])
  | listSessions =>
    obtain ⟨m, hm, hc, hl, hrep⟩ := h
    obtain ⟨hst, -⟩ := hr.move hm
    have hfits := hf m hm hl
    rw [hl] at hst
    rw [reply_of_listSessions (Daemon.serve_of_step hc hst) hrep]
    exact hfits

theorem carried_command (hr : lts.Run (.init starts) tr s) (hs : starts i = .oneshot command)
    (hf' : Fits (daemonRun tr) command) (hd : s.dial i c = some d) :
    Carried (s.up d) ((peerActsOn i c tr).filterMap Act.written?) (framesRead d (daemonRun tr)) ∧
      Carried (s.down d) (framesWritten d (daemonRun tr))
        ((peerActsOn i c tr).filterMap Act.read?) := by
  have hup := carried_up hr hd fun f hf => by
    rw [said_command hr hs hf]
    exact representable_request hf'
  refine ⟨hup, carried_down hr hd ?_⟩
  refine Daemon.representable_of_reply (daemon_run hr) fun frame reply next hframe hrep => ?_
  have hframe' := mem_said_of_written (List.mem_of_mem_head? (hup.head? hframe))
  obtain rfl := said_command hr hs hframe'
  exact representable_answer (daemon_run hr) hf' hrep

theorem Fits.of_append {tr₁ tr₂ : List (Move Daemon.State Daemon.Event)}
    (h : Fits (tr₁ ++ tr₂) command) : Fits tr₁ command := by
  cases command with
  | listSessions => exact fun m hm => h m (List.mem_append_left _ hm)
  | killSession => exact h
  | killServer => trivial

/-- What the peer says and what it is told has room in frames. -/
inductive Small (tr : List (Move Daemon.State Daemon.Event)) : Peer.Start → Prop
  | terminal {o : Terminal.Options} : Modest o → Small tr (.terminal o)
  | oneshot {command : Command} : Fits tr command → Small tr (.oneshot command)

theorem Small.of_append {tr₁ tr₂ : List (Move Daemon.State Daemon.Event)} {st : Peer.Start}
    (h : Small (tr₁ ++ tr₂) st) : Small tr₁ st := by
  cases h with
  | terminal ho => exact .terminal ho
  | oneshot hf => exact .oneshot hf.of_append

theorem carried_small (hr : lts.Run (.init starts) tr s) (hs : Small (daemonRun tr) (starts i))
    (hd : s.dial i c = some d) :
    Carried (s.up d) ((peerActsOn i c tr).filterMap Act.written?) (framesRead d (daemonRun tr)) ∧
      Carried (s.down d) (framesWritten d (daemonRun tr))
        ((peerActsOn i c tr).filterMap Act.read?) := by
  generalize hst : starts i = st at hs
  cases hs with
  | terminal ho => exact carried hr hst ho hd
  | oneshot hf => exact carried_command hr hst hf hd

/-! ### The moment of a command -/

/-- In this move the daemon serves a request of the connection. -/
def Serves (d : Conn) (frame : Frame) (m : Move State Event) : Prop :=
  m.src.daemon.control = .reading d ∧ ∃ cut, m.lbl = .daemon (.request (some (.ok frame))) cut

theorem stuck_of_over {t : Oneshot.State} {p : Peer} {tr : List (Move Peer Peer.Event)}
    (hr : Peer.lts.Run (.oneshot t) tr p) (ht : (∃ r, t.phase = .returned r) ∨ t.phase = .killed) :
    tr = [] ∧ p = .oneshot t := by
  induction hr with
  | refl => exact ⟨rfl, rfl⟩
  | tail hr hst ih =>
    obtain ⟨-, rfl⟩ := ih
    cases Peer.step_cases hst with
    | oneshot h =>
      cases Oneshot.step_cases h with
      | killed h₁ h₂ =>
        rcases ht with ⟨r, hp⟩ | hp
        · exact absurd hp (h₁ r)
        · exact absurd hp h₂
      | connected hp | noDaemon hp | requested hp | requestFailed hp | replied hp | notReplied hp =>
        rcases ht with ⟨r, hp'⟩ | hp' <;> rw [hp] at hp' <;> cases hp'

theorem actsOn_of_reading {s : Daemon.State} {tr : List (Move Daemon.State Daemon.Event)}
    (hr : Daemon.lts.Run .init tr s) (hc : s.control = .reading d) : Daemon.actsOn d tr = [] := by
  have hno : d ∉ Daemon.answered tr :=
    Daemon.not_answered_of_owned hr (Daemon.mem_owned_of_conn? (by rw [hc]; rfl))
  cases Daemon.stage hr d with
  | early _ _ ha => exact ha
  | due _ hc' => rw [hc] at hc'; cases hc'
  | closed ha => exact absurd ha hno
  | handed ha => exact absurd ha hno

theorem serving_move {m : Move Daemon.State Daemon.Event} (hm : m ∈ daemonRun tr)
    {r : Server.NextFrame} (hl : m.lbl = .request r) :
    ∃ tr₁ n tr₂ cut, tr = tr₁ ++ n :: tr₂ ∧ n.lbl = .daemon (.request r) cut ∧
      n.src.daemon = m.src ∧ n.dst.daemon = m.dst := by
  obtain ⟨n, hn, hmn⟩ := List.mem_flatMap.1 hm
  obtain ⟨tr₁, tr₂, htr⟩ := List.append_of_mem hn
  obtain ⟨s₁, e, s₂⟩ := n
  cases e with
  | daemon e cut =>
    obtain rfl := List.mem_singleton.1 hmn
    obtain rfl : e = .request r := hl
    exact ⟨tr₁, _, tr₂, cut, htr, rfl, rfl, rfl⟩
  | connect | stranger =>
    obtain rfl := List.mem_singleton.1 hmn
    cases hl
  | peer | inject => cases hmn

theorem peerActsOn_daemon {tr₁ : List (Move State Event)} {m : Move State Event}
    {e : Daemon.Event} {cut : ℕ} (hl : m.lbl = .daemon e cut) :
    peerActsOn i c (tr₁ ++ [m]) = peerActsOn i c tr₁ := by
  obtain ⟨s, l, s'⟩ := m
  obtain rfl : l = .daemon e cut := hl
  have hpr : peerRun i (tr₁ ++ [⟨s, .daemon e cut, s'⟩]) = peerRun i tr₁ := by
    simp [peerRun, peerMovesOf]
  rw [peerActsOn, hpr]
  rfl

theorem framesRead_request {tr₁ : List (Move State Event)} {m : Move State Event} {frame : Frame}
    (h : Serves d frame m) :
    framesRead d (daemonRun (tr₁ ++ [m])) = framesRead d (daemonRun tr₁) ++ [frame] := by
  obtain ⟨s, l, s'⟩ := m
  obtain ⟨hc, cut, hl⟩ := h
  obtain rfl : l = .daemon (.request (some (.ok frame))) cut := hl
  change s.daemon.control = .reading d at hc
  have hrun : daemonRun (tr₁ ++ [⟨s, .daemon (.request (some (.ok frame))) cut, s'⟩]) =
      daemonRun tr₁ ++ [⟨s.daemon, .request (some (.ok frame)), s'.daemon⟩] := by
    simp [daemonRun, daemonMovesOf]
  rw [hrun, framesRead, Daemon.actsOn_append_single, List.filterMap_append]
  simp [Daemon.actsOf, hc, Daemon.Control.conn?, Act.read?, framesRead]

/-- **A connection is served once.** -/
theorem served_once (hr : lts.Run (.init starts) tr s) {p p' : ℕ} {m m' : Move State Event}
    {frame frame' : Frame} (hm : tr[p]? = some m) (hm' : tr[p']? = some m')
    (h : Serves d frame m) (h' : Serves d frame' m') : p = p' := by
  -- the later one of two would find that the request was read
  have hlater : ∀ {p p' : ℕ} {m m' : Move State Event} {frame frame' : Frame},
      tr[p]? = some m → tr[p']? = some m' → Serves d frame m → Serves d frame' m' → ¬ p < p' := by
    intro p p' m m' frame frame' hm hm' h h' hlt
    have hcut' : tr = tr.take p' ++ m' :: tr.drop (p' + 1) := by
      obtain ⟨hp, rfl⟩ := List.getElem?_eq_some_iff.1 hm'
      rw [List.getElem_cons_drop, List.take_append_drop]
    have hcut : tr.take (p + 1) = tr.take p ++ [m] := by
      obtain ⟨hp, rfl⟩ := List.getElem?_eq_some_iff.1 hm
      exact List.take_succ_eq_append_getElem hp
    obtain ⟨u, hu⟩ : tr.take (p + 1) <+: tr.take p' := List.take_prefix_take_left hlt
    rw [hcut'] at hr
    obtain ⟨hr₁, -, -⟩ := hr.cut_at
    have hno : framesRead d (daemonRun (tr.take p')) = [] := by
      rw [framesRead, actsOn_of_reading (daemon_run hr₁) h'.1]
      rfl
    have happ : framesRead d (daemonRun (tr.take p')) =
        framesRead d (daemonRun (tr.take (p + 1))) ++ framesRead d (daemonRun u) := by
      rw [← hu]
      simp [framesRead, Daemon.actsOn, daemonRun]
    rw [hno, hcut, framesRead_request h] at happ
    simp at happ
  rcases Nat.lt_trichotomy p p' with hlt | heq | hlt
  · exact absurd hlt (hlater hm hm' h h')
  · exact heq
  · exact absurd hlt (hlater hm' hm h' h)

/-- No other move serves the connection. -/
theorem Serves.unique {tr₁ tr₂ : List (Move State Event)} {m m' : Move State Event}
    {frame frame' : Frame} (hr : lts.Run (.init starts) (tr₁ ++ m :: tr₂) s)
    (h : Serves d frame m) (hm' : m' ∈ tr₁ ++ tr₂) : ¬ Serves d frame' m' := by
  intro h'
  have hm : (tr₁ ++ m :: tr₂)[tr₁.length]? = some m := by simp
  rcases List.mem_append.1 hm' with hm' | hm'
  · obtain ⟨j, hj⟩ := List.mem_iff_getElem?.1 hm'
    have hlt := (List.getElem?_eq_some_iff.1 hj).1
    have := served_once hr (by rw [List.getElem?_append_left hlt, hj]) hm h' h
    omega
  · obtain ⟨j, hj⟩ := List.mem_iff_getElem?.1 hm'
    have hj' : (tr₁ ++ m :: tr₂)[tr₁.length + (j + 1)]? = some m' := by
      rw [List.getElem?_append_right (Nat.le_add_right _ _), Nat.add_sub_cancel_left]
      exact hj
    have := served_once hr hj' hm h' h
    omega

/-- Where a peer has read something, its request was served. -/
theorem served_at (hr : lts.Run (.init starts) tr s) (hs : Small (daemonRun tr) (starts i))
    (hread : ((peerActsOn i c tr).filterMap Act.read?).head? = some reply) :
    ∃ d tr₁ m tr₂ frame next, s.dial i c = some d ∧ tr = tr₁ ++ m :: tr₂ ∧
      Serves d frame m ∧ m.dst.daemon.control = .replying d reply next ∧
      Daemon.Serve m.src.daemon d frame m.dst.daemon ∧
      ((peerActsOn i c tr).filterMap Act.written?).head? = some frame := by
  have hmem : .read reply ∈ peerActsOn i c tr := by
    obtain ⟨a, ha, hfa⟩ := List.mem_filterMap.1 (List.mem_of_mem_head? hread)
    cases a with
    | read f => exact Option.some.inj hfa ▸ ha
    | sent => cases hfa
  obtain ⟨d, hd⟩ := dial_of_read hr hmem
  obtain ⟨hup, hdown⟩ := carried_small hr hs hd
  have hhead := hdown.head? hread
  rcases Daemon.written_cases (daemon_run hr) (failuresStick hr) d with
    hno | ⟨frame, reply', next, more, hrep, hframe, hwritten, -⟩
  · rw [hno] at hhead
    cases hhead
  · rw [hwritten] at hhead
    obtain rfl := Option.some.inj hhead
    obtain ⟨m, hm, hc, hl, hctl⟩ := hrep
    obtain ⟨hst, -⟩ := (daemon_run hr).move hm
    obtain ⟨tr₁, n, tr₂, cut, rfl, hnl, hsrc, hdst⟩ := serving_move hm hl
    rw [hl] at hst
    have hserve := Daemon.serve_of_step hc hst
    rw [← hsrc, ← hdst] at hserve
    exact ⟨d, tr₁, n, tr₂, frame, next, hd, rfl, ⟨hsrc ▸ hc, cut, hnl⟩, hdst ▸ hctl, hserve,
      hup.head? (by rw [hframe]; rfl)⟩

/-- When the daemon reads the request of a peer, the peer has written it. -/
theorem written_before {tr₁ tr₂ : List (Move State Event)} {m : Move State Event} {frame : Frame}
    (hr : lts.Run (.init starts) (tr₁ ++ m :: tr₂) s)
    (hs : Small (daemonRun (tr₁ ++ m :: tr₂)) (starts i)) (hd : s.dial i c = some d)
    (h : Serves d frame m) :
    m.src.dial i c = some d ∧ (peerActsOn i c tr₁).filterMap Act.written? ≠ [] := by
  obtain ⟨hr₁, hst, hr₂⟩ := hr.cut_at
  have hi : Sane m.src := sane hr₁
  have hlt : d < m.src.daemon.connected :=
    (Daemon.answered_nodup (daemon_run hr₁)).2 d
      (List.mem_append_left _ (Daemon.mem_owned_of_conn? (by rw [h.1]; rfl)))
  have hd₁ : m.src.dial i c = some d :=
    dial_old ((LTS.Run.single hst).append hr₂) hi hlt hd
  have hd₂ : m.dst.dial i c = some d := by
    rw [dial_stable (LTS.Run.single hst) hi (hi.dial _ _ _ hd₁).1, hd₁]
  have hs₂ : Small (daemonRun (tr₁ ++ [m])) (starts i) := by
    rw [List.append_cons, daemonRun, List.flatMap_append] at hs
    exact hs.of_append
  obtain ⟨hup, -⟩ := carried_small (hr₁.tail hst) hs₂ hd₂
  obtain ⟨hc, cut, hl⟩ := h
  rw [peerActsOn_daemon hl] at hup
  refine ⟨hd₁, fun hno => ?_⟩
  have hpre := hup.isPrefix
  rw [hno, framesRead_request ⟨hc, cut, hl⟩] at hpre
  simp at hpre

theorem awaiting_of_reading {tr₁ tr₂ : List (Move State Event)} {m : Move State Event}
    (hr : lts.Run (.init starts) (tr₁ ++ m :: tr₂) s) (hs : starts i = .oneshot command)
    (hf : Fits (daemonRun (tr₁ ++ m :: tr₂)) command) (hd : s.dial i 0 = some d)
    (h : Serves d command.request m)
    (hacts : peerActsOn i 0 (tr₁ ++ m :: tr₂) = [.sent command.request true, .read reply]) :
    m.src.peers i = .oneshot ⟨command, .awaiting 0, 1⟩ := by
  have hsmall : Small (daemonRun (tr₁ ++ m :: tr₂)) (starts i) := hs ▸ .oneshot hf
  -- it has sent its request
  obtain ⟨hd₁, hwritten⟩ := written_before hr hsmall hd h
  obtain ⟨hr₁, hst, hr₂⟩ := hr.cut_at
  have hi : Sane m.src := sane hr₁
  have hrest : lts.Run m.src ([⟨m.src, m.lbl, m.dst⟩] ++ tr₂) s := (LTS.Run.single hst).append hr₂
  have hf₁ : Fits (daemonRun tr₁) command := by
    rw [daemonRun, List.flatMap_append] at hf
    exact hf.of_append
  obtain ⟨t, ht, hrun, ha⟩ := command_run (c := 0) hr₁ hs
  -- and it has read nothing
  have hreads : (peerActsOn i 0 tr₁).filterMap Act.read? = [] := by
    obtain ⟨-, hdown⟩ := carried_command hr₁ hs hf₁ hd₁
    have hpre := hdown.isPrefix
    rw [framesWritten, actsOn_of_reading (daemon_run hr₁) h.1] at hpre
    exact List.prefix_nil.1 hpre
  -- so it waits, or has given up, and then it would not get a reply
  obtain ⟨command', phase, n⟩ := t
  obtain ⟨rfl, hspoke⟩ := Oneshot.spoke hrun
  change Spoke command' (Oneshot.acts (commandRun i tr₁)) phase n at hspoke
  have hover : ¬ ((∃ r, phase = .returned r) ∨ phase = .killed) := by
    intro hover
    have hpeer := peer_run_from hrest hi i
    rw [ht] at hpeer
    obtain ⟨hnil, -⟩ := stuck_of_over hpeer hover
    have happ : peerActsOn i 0 (tr₁ ++ m :: tr₂) = peerActsOn i 0 tr₁ := by
      have hpr : peerRun i (tr₁ ++ m :: tr₂) = peerRun i tr₁ ++ peerRun i ([m] ++ tr₂) := by
        simp [peerRun]
      rw [peerActsOn, hpr, show peerRun i ([m] ++ tr₂) = [] from hnil, List.append_nil]
      rfl
    rw [← happ, hacts] at hreads
    cases hreads
  cases hspoke with
  | connecting hno | requesting hno =>
    rw [ha, hno] at hwritten
    exact absurd rfl hwritten
  | awaiting => exact ht
  | failed => exact absurd (.inl ⟨_, rfl⟩) hover
  | answered => exact absurd (.inl ⟨_, rfl⟩) hover
  | killed => exact absurd (.inr rfl) hover

/-- **A command takes effect at one moment.**  In every run of the system, when a one-shot command
whose replies fit has read a reply, then exactly one move of the daemon serves the connection that
the command made.  It is made while the command was waiting, what it serves is the request of the
command, and what the command has to report is what serving it at that moment comes to. -/
theorem takes_effect (hr : lts.Run (.init starts) tr s) (hs : starts i = .oneshot command)
    (hf : Fits (daemonRun tr) command) (hread : .read reply ∈ peerActsOn i c tr) :
    ∃ d tr₁ m tr₂ result t, s.dial i 0 = some d ∧ tr = tr₁ ++ m :: tr₂ ∧
      Serves d command.request m ∧ (∀ m' ∈ tr₁ ++ tr₂, ∀ frame, ¬ Serves d frame m') ∧
      m.src.peers i = .oneshot ⟨command, .awaiting 0, 1⟩ ∧
      Effect m.src.daemon m.dst.daemon command result ∧
      s.peers i = .oneshot t ∧ t.phase = .returned result := by
  obtain ⟨rfl, hacts, t, ht, hp⟩ := returned_of_read hr hs hread
  have hsmall : Small (daemonRun tr) (starts i) := hs ▸ .oneshot hf
  have hhead : ((peerActsOn i 0 tr).filterMap Act.read?).head? = some reply := by rw [hacts]; rfl
  obtain ⟨d, tr₁, m, tr₂, frame, next, hd, rfl, h, hctl, hserve, hw⟩ :=
    served_at hr hsmall hhead
  rw [hacts] at hw
  obtain rfl : command.request = frame := Option.some.inj hw
  obtain ⟨hr₁, -, -⟩ := hr.cut_at
  have heffect := effect_of_serve (.of_reachable (daemon_run hr₁).reachable) hserve hctl
  exact ⟨d, tr₁, m, tr₂, _, t, hd, rfl, h, fun m' hm' frame => h.unique hr hm',
    awaiting_of_reading hr hs hf hd h hacts, heffect, ht, hp⟩

theorem takes_effect_kill :
    ∃ s d m result, LTS.exec step (.init fun _ => .oneshot (.killSession "x")) killEvents = some s ∧
      s.dial 0 0 = some d ∧
      m ∈ LTS.trace step (.init fun _ => .oneshot (.killSession "x")) killEvents ∧
      Serves d (.killSession "x") m ∧ Effect m.src.daemon m.dst.daemon (.killSession "x") result := by
  have h : ∃ s, LTS.exec step (.init fun _ => .oneshot (.killSession "x")) killEvents = some s :=
    ⟨_, rfl⟩
  obtain ⟨s, h⟩ := h
  have hread : .read (.error "no such session: x") ∈ peerActsOn 0 0
      (LTS.trace step (.init fun _ => .oneshot (.killSession "x")) killEvents) := by
    show _ ∈ [Act.sent (.killSession "x") true, .read (.error "no such session: x")]
    simp
  obtain ⟨d, tr₁, m, tr₂, result, t, hd, htr, hserves, -, -, heffect, -⟩ :=
    takes_effect (i := 0) (LTS.run_of_exec h) rfl (show (_ : ℕ) ≤ _ by decide) hread
  exact ⟨s, d, m, result, h, hd, htr ▸ List.mem_append_right _ List.mem_cons_self, hserves, heffect⟩

end System

end Gritty
