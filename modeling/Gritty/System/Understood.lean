import Gritty.System.Sizes

/-!
# The client and the daemon understand each other

A client that is started with a string and an environment that leave room never makes the daemon
decode an error, nor the daemon it, and neither gets a frame that it does not expect.  The argument
goes in a circle that unwinds along the connections of the client: the daemon's replies fit since
the requests are brief, and the request of a later connection is brief since the string in it came
in the reply on the first one.

## Main definitions

* `Modest` : the request and the variables of a client leave room.
* `Told` : what a client is told on a connection.
* `Understood` : what both sides read on a line, and that it is what they expect.

## Main results

* `opened`, `request_first` : what a client writes on a connection.
* `carried_of_said` : what it says is read as it was written, when it fits.
* `fits_of_said` : what it says fits, if the reply on its first connection did.
* `carried`, `told` : hence what both sides read on a line, and what the client is told.
* `understood` : the client and the daemon understand each other, in every run of the system.
-/

namespace Gritty

namespace System

open Bytes FrameCodec
open Daemon (Brief framesRead framesWritten)
open Server (Act Talk)
open Terminal (Accepts Dialogue IsRelayed Opening Opens Options Pos Sayable said)

/-- The request and the variables of a client leave room. -/
structure Modest (o : Options) : Prop where
  request : Brief o.command.request
  env : o.envVars ≠ [] → Representable (.env o.envVars)

/-- The run of the client `i`. -/
def clientRun (i : ℕ) (tr : List (Move State Event)) :
    List (Move Terminal.State Terminal.Event) := Peer.terminalRun (peerRun i tr)

variable {starts : ℕ → Peer.Start} {s s' : State} {e : Event} {tr : List (Move State Event)}
  {i : ℕ} {c d : Conn} {o : Options} {f : Frame}

/-- The peer `i` runs the client. -/
theorem client_run (hr : lts.Run (.init starts) tr s) (hs : starts i = .terminal o) :
    ∃ t, s.peers i = .terminal t ∧ Terminal.lts.Run (.init o) (clientRun i tr) t := by
  have hp := peer_run hr i
  rw [hs] at hp
  obtain ⟨t, ht, hrun, -⟩ := Peer.terminal_run hp
  exact ⟨t, ht, hrun⟩

theorem peerActsOn_client (hr : lts.Run (.init starts) tr s) (hs : starts i = .terminal o) :
    peerActsOn i c tr = Terminal.actsOn c (clientRun i tr) := by
  have hp := peer_run hr i
  rw [hs] at hp
  obtain ⟨-, -, -, ha⟩ := Peer.terminal_run hp
  rw [peerActsOn, ← ha]
  rfl

/-! ### What the client says -/

theorem sayable_of_said (hr : lts.Run (.init starts) tr s) (hs : starts i = .terminal o)
    (hf : f ∈ said (peerActsOn i c tr)) : Sayable o (clientRun i tr) c f := by
  obtain ⟨t, -, hrun⟩ := client_run hr hs
  rw [peerActsOn_client hr hs] at hf
  obtain ⟨a, ha, hfa⟩ := List.mem_filterMap.1 hf
  cases a with
  | read => cases hfa
  | sent g ok =>
    obtain rfl := Option.some.inj hfa
    exact Terminal.sayable hrun (mem_entriesOf.1 ha)

/-- A request for a session. -/
def AsksSession (f : Frame) : Prop :=
  (∃ name, f = .newSession name) ∨ ∃ session, f = .attach session

theorem asksSession_of_opens {op : Opening} (h : Opens o c op) :
    AsksSession op.request := by
  cases h with
  | first =>
    cases hc : o.command with
    | newSession => exact .inl ⟨_, by rw [Options.opening, hc]; rfl⟩
    | attach => exact .inr ⟨_, by rw [Options.opening, hc]; rfl⟩
  | again => exact .inr ⟨_, rfl⟩

theorem representable_asksSession (h : AsksSession f) (hb : Brief f) : Representable f := by
  unfold Brief at hb
  rcases h with ⟨_, rfl⟩ | ⟨_, rfl⟩ <;> exact ⟨by omega, trivial⟩

/-- The client follows its protocol on a connection. -/
theorem opened (hr : lts.Run (.init starts) tr s) (hs : starts i = .terminal o) (c : Conn) :
    ∃ op, Opens o c op ∧ Dialogue (Opens o c) (.asking op) (peerActsOn i c tr) := by
  obtain ⟨t, -, hrun⟩ := client_run hr hs
  rw [peerActsOn_client hr hs]
  exact (Terminal.dialogue hrun c).of_unopened (Terminal.exists_opens o c)

/-- What is written on a connection begins with the request. -/
theorem request_first {op : Opening} {O : Opening → Prop} {as : List Act}
    (h : Dialogue O (.asking op) as) (hf : (as.filterMap Act.written?).head? = some f) :
    f = op.request ∧ f ∈ said as := by
  rcases h.answered with rfl | ⟨ok, rfl⟩ | ⟨reply, more, rfl, -⟩
  · cases hf
  · cases ok
    · cases hf
    · obtain rfl := Option.some.inj hf
      exact ⟨rfl, List.mem_singleton.2 rfl⟩
  · obtain rfl := Option.some.inj hf
    exact ⟨rfl, List.mem_cons_self⟩

theorem representable_of_sayable (ho : Modest o)
    (hlearned : ∀ reply session, (0, .read reply) ∈ Terminal.acts (clientRun i tr) →
      o.command.session? reply = some session → c ≠ 0 → Brief (.attach session))
    (h : Sayable o (clientRun i tr) c f) : Representable f ∧ (AsksSession f → Brief f) := by
  cases h with
  | request =>
    have hask : AsksSession o.command.request := by
      cases o.command with
      | newSession => exact .inl ⟨_, rfl⟩
      | attach => exact .inr ⟨_, rfl⟩
    exact ⟨representable_asksSession hask ho.request, fun _ => ho.request⟩
  | env _ hne => exact ⟨ho.env hne, by simp [AsksSession]⟩
  | resize =>
    exact ⟨⟨by rw [show (payload (.resize _ _)).length = 4 from rfl]; decide, trivial⟩,
      by simp [AsksSession]⟩
  | data hb => exact ⟨Server.representable_data hb, by simp [AsksSession]⟩
  | ping => exact ⟨⟨by decide, trivial⟩, by simp [AsksSession]⟩
  | @attach reply session hc hreply hk =>
    have hb := hlearned reply session hreply hk hc
    exact ⟨representable_asksSession (.inr ⟨_, rfl⟩) hb, fun _ => hb⟩

/-! ### What the daemon says -/

end System

namespace Daemon

variable {s s' : State} {tr : List (Move State Event)} {c : Conn} {id : String}

theorem sessionCreated_of_serve {frame : Frame} {next : Next} (h : Serve s c frame s')
    (hc : s'.control = .replying c (.sessionCreated id) next) : ∃ n : UInt32, id = toString n := by
  cases h with
  | created =>
    obtain ⟨-, hid, -⟩ := Control.replying.inj hc
    exact ⟨_, (Frame.sessionCreated.inj hid).symm⟩
  | _ => cases hc

theorem sessionCreated_of_written (hr : lts.Run .init tr s)
    (hf : .sessionCreated id ∈ framesWritten c tr) : ∃ n : UInt32, id = toString n := by
  have hreply : ∀ {frame next}, RepliesWith tr c frame (.sessionCreated id) next →
      ∃ n : UInt32, id = toString n := by
    rintro frame next ⟨m, hm, hc, hl, hrep⟩
    obtain ⟨hst, -⟩ := hr.move hm
    rw [hl] at hst
    exact sessionCreated_of_serve (serve_of_step hc hst) hrep
  cases stage hr c with
  | early _ _ ha | due _ _ _ ha =>
    rw [framesWritten, ha] at hf
    cases hf
  | @closed frame reply next ok _ _ hrep _ ha =>
    cases ok with
    | false => simp [framesWritten, ha, Server.Act.written?] at hf
    | true =>
      have hid : .sessionCreated id = reply := by
        simpa [framesWritten, ha, Server.Act.written?, eq_comm] using hf
      exact hreply (hid ▸ hrep)
  | @handed frame reply k ok _ _ hrep ha =>
    have htask : .sessionCreated id ∉ (taskActsOn k c tr).filterMap Server.Act.written? := by
      intro hm
      rw [written_taskActsOn hr] at hm
      have htalk := (conversation hr k c).talk
      generalize (s.tasks k).server.sentTo c = fs at hm htalk
      rcases htalk with h | ⟨h, hl⟩
      · exact h _ hm
      · rcases List.mem_append.1 hm with hm | hm
        · exact h _ hm
        · rw [← List.mem_singleton.1 hm] at hl
          exact hl
    cases ok with
    | false =>
      have hw : framesWritten c tr = (taskActsOn k c tr).filterMap Server.Act.written? := by
        rw [framesWritten, ha]
        rfl
      exact absurd (hw ▸ hf) htask
    | true =>
      have hw : framesWritten c tr =
          reply :: (taskActsOn k c tr).filterMap Server.Act.written? := by
        rw [framesWritten, ha]
        rfl
      rw [hw] at hf
      rcases List.mem_cons.1 hf with rfl | hf
      · exact hreply hrep
      · exact absurd hf htask

theorem answer_of_serve {frame reply : Frame} {next : Next} (h : Serve s c frame s')
    (hc : s'.control = .replying c reply next)
    (hf : (∃ name, frame = .newSession name) ∨ ∃ session, frame = .attach session) :
    Terminal.Accepts frame reply ∨ ∃ message, reply = .error message := by
  cases h with
  | created =>
    cases hc
    exact .inl .created
  | attached =>
    cases hc
    exact .inl .attached
  | duplicate | attachNone | attachClosed | unexpected =>
    cases hc
    exact .inr ⟨_, rfl⟩
  | listed | killNone | killed | shutdown => simp at hf

theorem RepliesWith.answer {frame reply : Frame} {next : Next} (hr : lts.Run .init tr s)
    (h : RepliesWith tr c frame reply next)
    (hf : (∃ name, frame = .newSession name) ∨ ∃ session, frame = .attach session) :
    Terminal.Accepts frame reply ∨ ∃ message, reply = .error message := by
  obtain ⟨m, hm, hc, hl, hctl⟩ := h
  obtain ⟨hst, -⟩ := hr.move hm
  rw [hl] at hst
  exact answer_of_serve (serve_of_step hc hst) hctl hf

end Daemon

namespace System

open Bytes FrameCodec
open Daemon (Brief framesRead framesWritten)
open Server (Act Talk)
open Terminal (Accepts Dialogue IsRelayed Opening Opens Options Pos Sayable said)

variable {starts : ℕ → Peer.Start} {s s' : State} {e : Event} {tr : List (Move State Event)}
  {i : ℕ} {c d : Conn} {o : Options} {f : Frame}

theorem carried_of_said (hr : lts.Run (.init starts) tr s) (hs : starts i = .terminal o)
    (hd : s.dial i c = some d)
    (hsaid : ∀ f ∈ said (peerActsOn i c tr), Representable f ∧ (AsksSession f → Brief f)) :
    Carried (s.up d) ((peerActsOn i c tr).filterMap Act.written?) (framesRead d (daemonRun tr)) ∧
      Carried (s.down d) (framesWritten d (daemonRun tr))
        ((peerActsOn i c tr).filterMap Act.read?) := by
  have hup := carried_up hr hd fun f hf => (hsaid f hf).1
  refine ⟨hup, carried_down hr hd ?_⟩
  refine Daemon.representable_of_actsOn (daemon_run hr) fun frame hframe => ?_
  obtain ⟨op, hop, hdialogue⟩ := opened hr hs c
  obtain ⟨rfl, hmem⟩ := request_first hdialogue (hup.head? hframe)
  have hask := asksSession_of_opens hop
  refine ⟨(hsaid _ hmem).2 hask, ?_⟩
  rcases hask with ⟨_, h⟩ | ⟨_, h⟩ <;> simp [h]

theorem dial_of_readStep (h : Step s e s')
    (hf : (c, .read f) ∈ Peer.acts (peerMovesOf i ⟨s, e, s'⟩)) : ∃ d, s.dial i c = some d := by
  have hset : ∀ {j cut : ℕ} {e : Peer.Event} {p : Peer} {s' : State},
      s'.peers = (s.setPeer j p).peers →
      (c, .read f) ∈ Peer.acts (peerMovesOf i ⟨s, .peer j e cut, s'⟩) →
      j = i ∧ (c, .read f) ∈ Peer.actsOf ⟨s.peers j, e, p⟩ := by
    intro j cut e p s' hs' hf
    by_cases hj : j = i
    · subst hj
      refine ⟨rfl, ?_⟩
      have hp : s'.peers j = p := by rw [hs', setPeer_peers_self]
      simpa [peerMovesOf, Peer.acts, hp] using hf
    · simp [peerMovesOf, Peer.acts, hj] at hf
  cases h with
  | daemonQuiet | daemonRead | daemonSent | stranger | inject => cases hf
  | peerQuiet _ ha =>
    obtain ⟨-, hm⟩ := hset (by rfl) hf
    rw [ha] at hm
    cases hm
  | peerRead _ ha hd =>
    obtain ⟨rfl, hm⟩ := hset (by rfl) hf
    rw [ha] at hm
    obtain ⟨rfl, -⟩ := Prod.mk.inj (List.mem_singleton.1 hm)
    exact ⟨_, hd⟩
  | peerSent _ ha =>
    obtain ⟨-, hm⟩ := hset (by rfl) hf
    rw [ha] at hm
    cases (Prod.mk.inj (List.mem_singleton.1 hm)).2
  | peerAstray _ ha =>
    obtain ⟨-, hm⟩ := hset (by rfl) hf
    rw [ha] at hm
    cases (Prod.mk.inj (List.mem_singleton.1 hm)).2
  | @connect j p daemon hp =>
    by_cases hj : j = i
    · subst hj
      simp [peerMovesOf, Peer.acts, hp.connects.2] at hf
    · simp [peerMovesOf, Peer.acts, hj] at hf

theorem dial_of_read (hr : lts.Run (.init starts) tr s) (hf : .read f ∈ peerActsOn i c tr) :
    ∃ d, s.dial i c = some d := by
  rw [peerActsOn, mem_entriesOf, Peer.acts, peerRun, List.flatMap_assoc] at hf
  obtain ⟨m, hm, hread⟩ := List.mem_flatMap.1 hf
  obtain ⟨tr₁, tr₂, rfl⟩ := List.append_of_mem hm
  obtain ⟨hr₁, hst, hr₂⟩ := hr.cut_at
  have hi : Sane m.src := sane hr₁
  obtain ⟨d, hd⟩ := dial_of_readStep (step_cases hi.sound hst) hread
  have hrest : lts.Run m.src ([⟨m.src, m.lbl, m.dst⟩] ++ tr₂) s := (LTS.Run.single hst).append hr₂
  exact ⟨d, by rw [dial_stable hrest hi (hi.dial _ _ _ hd).1, hd]⟩

/-! ### The circle -/

theorem brief_of_learned (hr : lts.Run (.init starts) tr s) (hs : starts i = .terminal o)
    (ho : Modest o) {reply : Frame} {session : String}
    (hreply : (0, .read reply) ∈ Terminal.acts (clientRun i tr))
    (hk : o.command.session? reply = some session) : Brief (.attach session) := by
  cases hc : o.command with
  | attach target redraw =>
    rw [hc] at hk
    cases reply with
    | ok =>
      obtain rfl := Option.some.inj hk
      have hb := ho.request
      rwa [hc] at hb
    | _ => cases hk
  | newSession name =>
    rw [hc] at hk
    cases reply with
    | sessionCreated id =>
      obtain rfl := Option.some.inj hk
      have hread : .read (.sessionCreated id) ∈ peerActsOn i 0 tr := by
        rw [peerActsOn_client hr hs]
        exact mem_entriesOf.2 hreply
      obtain ⟨d, hd⟩ := dial_of_read hr hread
      -- nothing that was learned is said on the first connection
      have hsaid : ∀ f ∈ said (peerActsOn i 0 tr), Representable f ∧ (AsksSession f → Brief f) :=
        fun f hf => representable_of_sayable ho (fun _ _ _ _ hn => absurd rfl hn)
          (sayable_of_said hr hs hf)
      obtain ⟨-, hdown⟩ := carried_of_said hr hs hd hsaid
      have hwritten : .sessionCreated id ∈ framesWritten d (daemonRun tr) := by
        rw [hdown.queue]
        exact List.mem_append_left _ (List.mem_filterMap.2 ⟨_, hread, rfl⟩)
      obtain ⟨n, rfl⟩ := Daemon.sessionCreated_of_written (daemon_run hr) hwritten
      have h₁ := length_utf8_le (toString n)
      have h₂ := Text.length_toString_uint32_le n
      have hmax : maxFrameSize = 1048576 := rfl
      show (utf8 (toString n)).length + 32 ≤ maxFrameSize
      omega
    | _ => cases hk

theorem fits_of_said (hr : lts.Run (.init starts) tr s) (hs : starts i = .terminal o)
    (ho : Modest o) (hf : f ∈ said (peerActsOn i c tr)) :
    Representable f ∧ (AsksSession f → Brief f) :=
  representable_of_sayable ho (fun _ _ hreply hk _ => brief_of_learned hr hs ho hreply hk)
    (sayable_of_said hr hs hf)

/-- What a client and the daemon write on a line is read as it was written. -/
theorem carried (hr : lts.Run (.init starts) tr s) (hs : starts i = .terminal o) (ho : Modest o)
    (hd : s.dial i c = some d) :
    Carried (s.up d) ((peerActsOn i c tr).filterMap Act.written?) (framesRead d (daemonRun tr)) ∧
      Carried (s.down d) (framesWritten d (daemonRun tr))
        ((peerActsOn i c tr).filterMap Act.read?) :=
  carried_of_said hr hs hd fun _ hf => fits_of_said hr hs ho hf

/-! ### Both sides of a line -/

/-- What is answered to a request for a session: nothing yet, the reply that grants it and what a
session task says, or a refusal. -/
inductive Told (request : Frame) : List Frame → Prop
  | nothing : Told request []
  | granted {reply rest} : Accepts request reply → Talk rest → Told request (reply :: rest)
  | refused {message} : Told request [.error message]

/-- A client and the daemon understand each other on the line between their connections `c` and
`d`. -/
structure Understood (o : Options) (i : ℕ) (c d : Conn) (tr : List (Move State Event)) (s : State) :
    Prop where
  up : Carried (s.up d) ((peerActsOn i c tr).filterMap Act.written?) (framesRead d (daemonRun tr))
  down : Carried (s.down d) (framesWritten d (daemonRun tr))
    ((peerActsOn i c tr).filterMap Act.read?)
  /-- the daemon reads what the script of the client has for it, and answers it -/
  dialogue : ∃ op, Opens o c op ∧
    (∃ cols rows rest, (∀ f ∈ rest, IsRelayed f) ∧
      framesRead d (daemonRun tr) <+: (Pos.asking op).script cols rows rest) ∧
    Told op.request (framesWritten d (daemonRun tr))

theorem told (hr : lts.Run (.init starts) tr s) {op : Opening} (hop : Opens o c op)
    (hfirst : ∀ f, (framesRead d (daemonRun tr)).head? = some f → f = op.request) :
    Told op.request (framesWritten d (daemonRun tr)) := by
  rcases Daemon.spoken (daemon_run hr) (failuresStick hr) d with
    h | ⟨frame, reply, next, rest, hw, hread, hrep, -, htalk, hopens⟩
  · exact h ▸ .nothing
  · obtain rfl := hfirst frame hread
    rw [hw]
    rcases hrep.answer (daemon_run hr) (asksSession_of_opens hop) with hacc | ⟨message, rfl⟩
    · exact .granted hacc htalk
    · obtain rfl : rest = [] := by
        by_contra hne
        rcases hopens hne with ⟨_, _, -, h⟩ | ⟨_, -, h⟩ <;> cases h
      exact .refused

/-- **The client and the daemon understand each other.**  In every run of the system, on every
connection of a client whose request and variables leave room, both sides read what the other one
wrote, in order and never a decoding error; the daemon reads the script of the client, so that it
never meets a frame that it does not expect, and the client reads the reply to its request and then
what a session task says. -/
theorem understood (hr : lts.Run (.init starts) tr s) (hs : starts i = .terminal o)
    (ho : Modest o) (hd : s.dial i c = some d) : Understood o i c d tr s := by
  obtain ⟨hup, hdown⟩ := carried hr hs ho hd
  obtain ⟨op, hop, hdialogue⟩ := opened hr hs c
  refine ⟨hup, hdown, op, hop, ?_, told hr hop fun f hf => ?_⟩
  · obtain ⟨cols, rows, rest, hrest, hpre⟩ := hdialogue.said_le_script (by simp)
    exact ⟨cols, rows, rest, hrest, hup.isPrefix.trans (hdialogue.written_le_said.trans hpre)⟩
  · exact (request_first hdialogue (hup.head? hf)).1

/-- A client that starts a session called `work`. -/
def workOptions : Options where
  command := .newSession (some "work")
  noEscape := false
  var k := if k = "TERM" then some "xterm" else none

/-- Everybody starts that session. -/
def workStarts (_ : ℕ) : Peer.Start := .terminal workOptions

/-- A client starts a session. -/
def openEvents : List Event :=
  [.connect 0, .daemon .reap 0, .peer 0 (.terminal (.sent true)) 0, .daemon (.accept true) 0,
    .daemon (.request (some (.ok (.newSession "work")))) 0, .daemon (.replied true) 0,
    .peer 0 (.terminal (.next (some (.ok (.sessionCreated "0"))))) 0,
    .peer 0 (.terminal (.sent true)) 0, .daemon (.task 0 (.openpty (some "/dev/pts/0"))) 0,
    .daemon (.task 0 .recv) 0,
    .daemon (.task 0 (.firstFrame (some (some (.ok (.env [("TERM", "xterm")])))))) 0,
    .daemon (.task 0 (.spawn (some 7))) 0, .peer 0 (.terminal (.sent true)) 0,
    .daemon (.task 0 (.next (some (.ok (.resize 0 0))))) 0]

/-- The shell of the session writes a byte and exits. -/
def workEvents : List Event :=
  openEvents ++
    [.daemon (.task 0 (.output [0x24])) 0, .daemon (.task 0 (.read (.bytes 1))) 0,
      .daemon (.task 0 (.sent true)) 0, .peer 0 (.terminal (.next (some (.ok (.data [0x24]))))) 0,
      .daemon (.task 0 (.exit (.code 3))) 0, .daemon (.task 0 (.wait true)) 0,
      .daemon (.task 0 (.sent true)) 0, .peer 0 (.terminal (.next (some (.ok (.exit 3))))) 0]

theorem envVars_work : workOptions.envVars = [("TERM", "xterm")] := rfl

theorem modest_work : Modest workOptions where
  request := show (_ : ℕ) ≤ _ by decide
  env _ := ⟨by decide, by rw [envVars_work]; simp [TextSafe, EnvSafe]⟩

theorem understood_work :
    ∃ s, LTS.exec step (.init workStarts) workEvents = some s ∧
      Understood workOptions 0 0 0 (LTS.trace step (.init workStarts) workEvents) s := by
  have h : ∃ s, LTS.exec step (.init workStarts) workEvents = some s ∧ s.dial 0 0 = some 0 :=
    ⟨_, rfl, rfl⟩
  obtain ⟨s, h, hd⟩ := h
  exact ⟨s, h, understood (LTS.run_of_exec h) rfl modest_work hd⟩

end System

end Gritty
