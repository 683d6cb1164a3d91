import Gritty.Server.Turns
import Gritty.Terminal.Speech

/-!
# What the client writes to its terminal

`write_stdout` is called with the payload of each `Data` frame that the loop of `relay` takes, and
with texts of the client itself: that it is detached, that it reconnects, the help on the escape
sequences.  A call that fails ends the client (`Event.fail`), so that the last of the writes may be
cut short.

Before the loop of `relay` a connection carries one frame to the client at most, the reply to its
request, so that what is written of the shell's output is what was read after the reply.

## Main definitions

* `Print` : a write, of output or of a text of the client.
* `printsOf`, `prints` : the writes of a move, and of a run.
* `shownOn` : the output that is written while a connection is in use.

## Main results

* `outputs_eq` : the output that is written is the payloads of the frames that the loop takes.
* `heard` : what was read on a connection is the reply and then what the loop took.
* `shown_eq` : the client writes the output of its connections, one after the other.
-/

namespace Gritty

namespace Terminal

open Server (Act NextFrame)

/-- The connection that the loop of `relay` reads from. -/
def Phase.loops? : Phase → Option Conn
  | .relay framed => some framed
  | .opening | .requesting _ | .awaiting _ | .sendEnv _ | .sendResize _ _ | .sendRedraw _
  | .sending _ _ _ | .suspended _ _ | .sleeping _ | .connecting | .attaching _ | .reattaching _
  | .exited _ => none

/-- The frame that the loop of `relay` takes from a connection. -/
def loopFrameOf (m : Move State Event) : List (Conn × Frame) :=
  match m.lbl with
  | .next (some (.ok f)) => m.src.phase.loops?.toList.map fun c => (c, f)
  | _ => []

/-- The frames that the loop of `relay` takes from connections, in order. -/
def loopFrames (tr : List (Move State Event)) : List (Conn × Frame) := tr.flatMap loopFrameOf

/-- The frames that the loop of `relay` takes from one connection. -/
def loopFramesOn (c : Conn) (tr : List (Move State Event)) : List Frame :=
  entriesOf c (loopFrames tr)

/-! ### The writes -/

/-- What `write_stdout` is called with. -/
inductive Print where
  /-- the payload of a `Data` frame -/
  | output (framed : Conn) (payload : List UInt8)
  /-- a text of the client -/
  | text (t : String)

/-- `ESCAPE_HELP` -/
def escapeHelp : String :=
  "\r\nSupported escape sequences:\r\n" ++
  "~.  - detach from session\r\n" ++
  "~^Z - suspend client\r\n" ++
  "~?  - this message\r\n" ++
  "~~  - send the escape character by typing it twice\r\n" ++
  "(Note that escapes are only recognized immediately after newline.)\r\n"

/-- `run` has lost the connection. -/
def reconnecting : Print := .text "[reconnecting...]\r\n"

/-- What the actions of a read write, up to the next one that sends or waits. -/
def printsOfActions : List EscapeAction → List Print
  | .help :: actions => .text escapeHelp :: printsOfActions actions
  | .detach :: _ => [.text "\r\n[detached]\r\n"]
  | [] | .data _ :: _ | .suspend :: _ => []

/-- What the socket branch of `relay` writes. -/
def printsOfFrame (framed : Conn) : NextFrame → List Print
  | some (.ok (.data payload)) => [.output framed payload]
  | some (.ok .detached) => [.text "[detached]\r\n"]
  | some (.ok _) => []
  | _ => [reconnecting]

/-- What the reconnect loop writes after the reply. -/
def printsOfReply : NextFrame → List Print
  | some (.ok .ok) => [.text "[reconnected]\r\n"]
  | some (.ok (.error message)) => [.text ("[session gone: " ++ message ++ "]\r\n")]
  | _ => []

/-- What a move writes to the terminal. -/
def printsOf (m : Move State Event) : List Print :=
  match m.lbl, m.src.phase with
  | .next r, .relay framed => printsOfFrame framed r
  | .next r, .reattaching _ => printsOfReply r
  | .read n, .relay _ =>
    match m.src.escape with
    | some esc => printsOfActions (esc.process (m.src.stdin.take n)).1
    | none => []
  | .tick, .relay _ => if heartbeatTimeout < m.src.now - m.src.lastPong then [reconnecting] else []
  | .sent true, .sending _ _ actions => printsOfActions actions
  | .sent false, .sending _ _ _ | .sent false, .sendEnv _ | .sent false, .sendResize _ _
  | .sent false, .sendRedraw _ => [reconnecting]
  | .wake r, .sleeping _ => if r = some ctrlC then [.text "\r\n"] else []
  | _, _ => []

/-- What the client writes to the terminal, in order. -/
def prints (tr : List (Move State Event)) : List Print := tr.flatMap printsOf

/-- The output of a shell, with the connection that it came on. -/
def Print.output? : Print → Option (Conn × List UInt8)
  | .output framed payload => some (framed, payload)
  | .text _ => none

/-- The output of shells that the client writes, in order. -/
def outputs (tr : List (Move State Event)) : List (Conn × List UInt8) :=
  (prints tr).filterMap Print.output?

/-- The output that the client writes and that came on the connection `c`. -/
def shownOn (c : Conn) (tr : List (Move State Event)) : List UInt8 :=
  (entriesOf c (outputs tr)).flatten

/-- The output that the client writes, whatever the connections. -/
def shown (tr : List (Move State Event)) : List UInt8 := ((outputs tr).map Prod.snd).flatten

/-! ### The frames -/

/-- The frames that the client reads from a connection. -/
def readsOn (c : Conn) (tr : List (Move State Event)) : List Frame :=
  (actsOn c tr).filterMap Act.read?

/-- A request is due or was not answered yet. -/
def Phase.asks? : Phase → Option Conn
  | .requesting framed | .awaiting framed | .attaching framed | .reattaching framed => some framed
  | .opening | .sendEnv _ | .sendResize _ _ | .sendRedraw _ | .relay _ | .sending _ _ _
  | .suspended _ _ | .sleeping _ | .connecting | .exited _ => none

variable {o : Options} {s s' : State} {e : Event} {tr : List (Move State Event)} {c : Conn}

theorem loopFramesOn_append_single (c : Conn) (tr : List (Move State Event))
    (m : Move State Event) :
    loopFramesOn c (tr ++ [m]) = loopFramesOn c tr ++ entriesOf c (loopFrameOf m) := by
  simp [loopFramesOn, loopFrames]

theorem readsOn_append_single (c : Conn) (tr : List (Move State Event)) (m : Move State Event) :
    readsOn c (tr ++ [m]) = readsOn c tr ++ (entriesOf c (actsOf m)).filterMap Act.read? := by
  simp [readsOn, actsOn, acts]

/-- The payload of a `Data` frame. -/
def payload? : Frame → Option (List UInt8)
  | .data payload => some payload
  | _ => none

theorem output_actions (actions : List EscapeAction) :
    (printsOfActions actions).filterMap Print.output? = [] := by
  induction actions with
  | nil => rfl
  | cons action actions ih =>
    cases action with
    | help => exact ih
    | data | detach | suspend => rfl

/-- The output that a move writes is the payload of the frame that the loop takes. -/
theorem outputOf_eq (m : Move State Event) :
    (printsOf m).filterMap Print.output? =
      (loopFrameOf m).filterMap fun p => (payload? p.2).map fun payload => (p.1, payload) := by
  obtain ⟨s, e, s'⟩ := m
  cases e with
  | next r =>
    cases hp : s.phase with
    | relay framed =>
      rcases r with _ | _ | f
      · simp only [printsOf, hp]
        rfl
      · simp only [printsOf, hp]
        rfl
      · simp only [printsOf, loopFrameOf, hp]
        cases f <;> rfl
    | reattaching framed =>
      rcases r with _ | _ | f
      · simp only [printsOf, hp]
        rfl
      · simp only [printsOf, hp]
        rfl
      · simp only [printsOf, loopFrameOf, hp]
        cases f <;> rfl
    | _ =>
      rcases r with _ | _ | f <;> simp only [printsOf, loopFrameOf, hp] <;> rfl
  | read n =>
    cases hp : s.phase with
    | relay framed =>
      simp only [printsOf, hp]
      cases s.escape with
      | none => rfl
      | some esc => exact output_actions _
    | _ => simp only [printsOf, hp]; rfl
  | tick =>
    cases hp : s.phase with
    | relay framed =>
      simp only [printsOf, hp]
      split <;> rfl
    | _ => simp only [printsOf, hp]; rfl
  | sent ok =>
    cases hp : s.phase with
    | sending framed frame actions =>
      cases ok with
      | true =>
        simp only [printsOf, hp]
        exact output_actions actions
      | false => simp only [printsOf, hp]; rfl
    | _ => cases ok <;> simp only [printsOf, hp] <;> rfl
  | wake r =>
    cases hp : s.phase with
    | sleeping deadline =>
      simp only [printsOf, hp]
      split <;> rfl
    | _ => simp only [printsOf, hp]; rfl
  | _ => rfl

theorem outputs_eq (tr : List (Move State Event)) :
    outputs tr =
      (loopFrames tr).filterMap fun p => (payload? p.2).map fun payload => (p.1, payload) := by
  rw [outputs, prints, loopFrames, List.filterMap_flatMap, List.filterMap_flatMap]
  exact List.flatMap_congr fun m _ => outputOf_eq m

theorem flatten_payloads (fs : List Frame) : (fs.filterMap payload?).flatten = bytesIn fs := by
  induction fs with
  | nil => rfl
  | cons f fs ih =>
    rw [bytesIn, List.flatMap_cons, ← bytesIn, ← ih]
    cases f <;> rfl

theorem shownOn_eq (c : Conn) (tr : List (Move State Event)) :
    shownOn c tr = bytesIn (loopFramesOn c tr) := by
  rw [shownOn, outputs_eq, entriesOf_filterMap, flatten_payloads, loopFramesOn]

theorem shown_eq_bytesIn (tr : List (Move State Event)) :
    shown tr = bytesIn ((loopFrames tr).map Prod.snd) := by
  rw [shown, outputs_eq, ← flatten_payloads, List.map_filterMap, List.filterMap_map]
  congr 1
  refine List.filterMap_congr fun p _ => ?_
  cases h : payload? p.2 <;> simp [h]

/-- What a move reads. -/
inductive Listens (m : Move State Event) : Prop
  | quiet : (∀ c, (entriesOf c (actsOf m)).filterMap Act.read? = []) → loopFrameOf m = [] →
      (∀ c, m.dst.phase.relayed? = some c → m.src.phase.relayed? = some c) →
      (∀ c, m.dst.phase.asks? = some c → m.src.phase.asks? = some c ∨ c = m.src.connections) →
      m.src.connections ≤ m.dst.connections → Listens m
  | relay {framed f} : m.src.phase = .relay framed → actsOf m = [(framed, .read f)] →
      loopFrameOf m = [(framed, f)] → m.dst.phase.asks? = none →
      (∀ c, m.dst.phase.relayed? = some c → c = framed) →
      m.dst.connections = m.src.connections → Listens m
  | reply {framed f} : m.src.phase.asks? = some framed → actsOf m = [(framed, .read f)] →
      loopFrameOf m = [] → m.dst.phase.asks? = none →
      (∀ c, m.dst.phase.relayed? = some c → c = framed) →
      m.dst.connections = m.src.connections → Listens m

theorem asks_performs {framed : Conn} {p : Phase} (h : Performs framed p) :
    p.asks? = none ∧ ∀ c, p.relayed? = some c → c = framed := by
  cases h <;> simp [Phase.asks?, Phase.relayed?, eq_comm]

theorem reads_sent {ok : Bool} (c : Conn) :
    (entriesOf c (actsOf ⟨s, .sent ok, s'⟩)).filterMap Act.read? = [] := by
  cases hs : s.send? with
  | none => simp [actsOf, hs]
  | some q =>
    obtain ⟨d, f⟩ := q
    rw [actsOf_sent hs]
    by_cases hd : d = c
    · subst hd
      rw [entriesOf_self]
      rfl
    · rw [entriesOf_of_ne hd]
      rfl

theorem Listens.sent {ok : Bool} (hr : ∀ c, s'.phase.relayed? = some c → s.phase.relayed? = some c)
    (ha : ∀ c, s'.phase.asks? = some c → s.phase.asks? = some c ∨ c = s.connections)
    (hc : s.connections ≤ s'.connections) : Listens ⟨s, .sent ok, s'⟩ :=
  .quiet reads_sent rfl hr ha hc

theorem Listens.read {framed : Conn} {f : Frame} (hp : s.phase = .relay framed)
    (ha : s'.phase.asks? = none) (hr : ∀ c, s'.phase.relayed? = some c → c = framed)
    (hc : s'.connections = s.connections) : Listens ⟨s, .next (some (.ok f)), s'⟩ :=
  .relay hp (actsOf_read (by rw [hp]; rfl)) (by simp [loopFrameOf, hp, Phase.loops?]) ha hr hc

theorem Listens.replied {framed : Conn} {f : Frame}
    (hp : s.phase = .awaiting framed ∨ s.phase = .reattaching framed)
    (ha : s'.phase.asks? = none) (hr : ∀ c, s'.phase.relayed? = some c → c = framed)
    (hc : s'.connections = s.connections) : Listens ⟨s, .next (some (.ok f)), s'⟩ := by
  rcases hp with hp | hp <;>
    exact .reply (by rw [hp]; rfl) (actsOf_read (by rw [hp]; rfl))
      (by simp [loopFrameOf, hp, Phase.loops?]) ha hr hc

/-- `relay` goes on, or the connection is not used any more. -/
theorem Performs.keeps {framed : Conn} {p : Phase} (hp : Performs framed p)
    (hr : s.phase.relayed? = some framed) :
    (∀ c, p.relayed? = some c → s.phase.relayed? = some c) ∧
      ∀ c, p.asks? = some c → s.phase.asks? = some c ∨ c = s.connections := by
  obtain ⟨ha, hr'⟩ := asks_performs hp
  exact ⟨fun c hc => hr' c hc ▸ hr, by simp [ha]⟩

theorem listens (h : Step s e s') : Listens ⟨s, e, s'⟩ := by
  cases h with
  | typed | eof | resized | elapse =>
    exact .quiet (fun _ => rfl) rfl (fun _ h => h) (fun _ h => .inl h) (Nat.le_refl _)
  | fail | inputEnded | interrupt | swallow | wake | timeout =>
    exact .quiet (fun _ => rfl) rfl (by simp [State.exit, State.lost, State.pause, Phase.relayed?])
      (by simp [State.exit, State.lost, State.pause, Phase.asks?]) (Nat.le_refl _)
  | winch hp | ping hp | resume hp =>
    exact .quiet (fun _ => rfl) rfl (by simp [hp, Phase.relayed?]) (by simp [Phase.asks?])
      (Nat.le_refl _)
  | unanswered hp hn | disconnected hp hn | reattachLost hp hn =>
    exact .quiet (fun _ => by rw [actsOf_noFrame hn]; rfl) (by cases hn <;> rfl)
      (by simp [State.exit, State.lost, State.pause, Phase.relayed?])
      (by simp [State.exit, State.lost, State.pause, Phase.asks?]) (Nat.le_refl _)
  | @opened ok hp =>
    cases ok with
    | true =>
      exact .quiet (fun _ => rfl) rfl (by simp [State.onOpened, Phase.relayed?])
        (by simp [State.onOpened, Phase.asks?, eq_comm]) (Nat.le_succ _)
    | false =>
      rw [State.onOpened]
      cases s.options.command with
      | newSession =>
        exact .quiet (fun _ => rfl) rfl (by simp [State.exit, Phase.relayed?])
          (by simp [State.exit, Phase.asks?]) (Nat.le_refl _)
      | attach =>
        exact .quiet (fun _ => rfl) rfl (fun _ h => h) (fun _ h => .inl h) (Nat.le_refl _)
  | @reconnected ok hp =>
    cases ok with
    | true =>
      exact .quiet (fun _ => rfl) rfl (by simp [State.onReconnected, Phase.relayed?])
        (by simp [State.onReconnected, Phase.asks?, eq_comm]) (Nat.le_succ _)
    | false =>
      exact .quiet (fun _ => rfl) rfl (by simp [State.onReconnected, State.pause, Phase.relayed?])
        (by simp [State.onReconnected, State.pause, Phase.asks?]) (Nat.le_refl _)
  | requestSent hp | attachSent hp =>
    exact .sent (by simp [Phase.relayed?]) (by simp [hp, Phase.asks?]) (Nat.le_refl _)
  | requestFailed | attachFailed | sendFailed =>
    exact .sent (by simp [State.exit, State.lost, State.pause, Phase.relayed?])
      (by simp [State.exit, State.lost, State.pause, Phase.asks?]) (Nat.le_refl _)
  | envSent hp | resizeSent hp | resizeSentRedraw hp | redrawSent hp =>
    exact .sent (by simp [hp, State.startResize, State.enterLoop, Phase.relayed?])
      (by simp [State.startResize, State.enterLoop, Phase.asks?]) (Nat.le_refl _)
  | @sent framed frame actions hp =>
    obtain ⟨p, hs, hp'⟩ := perform_eq s framed actions
    obtain ⟨hr, ha⟩ := hp'.keeps (by rw [hp]; rfl)
    rw [hs]
    exact .sent hr ha (Nat.le_refl _)
  | @input framed n hp =>
    obtain ⟨escape, p, hs, hp'⟩ := onInput_eq { s with stdin := s.stdin.drop n } framed
      (s.stdin.take n)
    obtain ⟨hr, ha⟩ := hp'.keeps (by rw [hp]; rfl)
    rw [hs]
    exact .quiet (fun _ => rfl) rfl hr ha (Nat.le_refl _)
  | @accepted framed reply session hp hk =>
    obtain ⟨p, hs, hp'⟩ := startRelay_eq (s.setUp session) framed
    rw [State.enterRun, hs]
    rcases hp' with ⟨-, rfl⟩ | ⟨-, rfl⟩ <;>
      exact .replied (.inl hp) rfl (by simp [Phase.relayed?, eq_comm]) rfl
  | @reattached framed hp =>
    obtain ⟨p, hs, hp'⟩ := startRelay_eq { s with redraw := true } framed
    rw [hs]
    rcases hp' with ⟨-, rfl⟩ | ⟨-, rfl⟩ <;>
      exact .replied (.inr hp) rfl (by simp [Phase.relayed?, eq_comm]) rfl
  | refused hp => exact .replied (.inl hp) rfl (by simp [State.exit, Phase.relayed?]) rfl
  | sessionGone hp => exact .replied (.inr hp) rfl (by simp [State.exit, Phase.relayed?]) rfl
  | notReattached hp => exact .replied (.inr hp) rfl (by simp [State.pause, Phase.relayed?]) rfl
  | pong hp | passive hp =>
    exact .read hp (by simp [hp, Phase.asks?]) (by simp [hp, Phase.relayed?, eq_comm]) rfl
  | exit hp | detached hp => exact .read hp rfl (by simp [State.exit, Phase.relayed?]) rfl

/-- How far the client has read a connection. -/
inductive Heard (c : Conn) (tr : List (Move State Event)) (s : State) : Prop
  /-- not yet, or the connection was lost before the reply -/
  | nothing : readsOn c tr = [] → loopFramesOn c tr = [] → s.phase.relayed? ≠ some c → Heard c tr s
  /-- the reply came first -/
  | replied {reply} : readsOn c tr = reply :: loopFramesOn c tr → c < s.connections →
      s.phase.asks? ≠ some c → Heard c tr s

/-- Nothing is read from the connection. -/
theorem Heard.keep {tr' : List (Move State Event)} (hi : Heard c tr s)
    (hreads : readsOn c tr' = readsOn c tr) (hrelayed : loopFramesOn c tr' = loopFramesOn c tr)
    (hrel : s'.phase.relayed? = some c → s.phase.relayed? = some c)
    (hask : s'.phase.asks? = some c → s.phase.asks? = some c ∨ c = s.connections)
    (hconn : s.connections ≤ s'.connections) : Heard c tr' s' := by
  cases hi with
  | nothing h₁ h₂ h₃ =>
    exact .nothing (hreads.trans h₁) (hrelayed.trans h₂) fun hc => h₃ (hrel hc)
  | replied h₁ h₂ h₃ =>
    refine .replied (hreads.trans (hrelayed.symm ▸ h₁)) (h₂.trans_le hconn) fun hc => ?_
    rcases hask hc with hc | hc
    · exact h₃ hc
    · exact absurd h₂ (hc ▸ Nat.lt_irrefl _)

theorem conn?_of_asks (h : s.phase.asks? = some c) : s.phase.conn? = some c := by
  cases hp : s.phase <;> simp_all [Phase.asks?, Phase.conn?]

theorem heard_step (hi : Heard c tr s) (hs : Sound s) (h : Listens ⟨s, e, s'⟩) :
    Heard c (tr ++ [⟨s, e, s'⟩]) s' := by
  have hreads := readsOn_append_single c tr ⟨s, e, s'⟩
  have hrelayed := loopFramesOn_append_single c tr ⟨s, e, s'⟩
  cases h with
  | quiet hr hl hrel hask hconn =>
    rw [hr, List.append_nil] at hreads
    rw [hl, entriesOf_nil, List.append_nil] at hrelayed
    exact hi.keep hreads hrelayed (hrel c) (hask c) hconn
  | @relay framed f hp ha hl hask hrel hconn =>
    change s.phase = .relay framed at hp
    change s'.phase.asks? = none at hask
    change s'.connections = s.connections at hconn
    rw [ha] at hreads
    rw [hl] at hrelayed
    by_cases hc : framed = c
    · subst hc
      rw [entriesOf_self] at hreads hrelayed
      cases hi with
      | nothing _ _ h₃ => exact absurd (by rw [hp]; rfl) h₃
      | @replied reply h₁ h₂ h₃ =>
        refine .replied (?_ : _ = reply :: _) (hconn ▸ h₂) (by simp [hask])
        rw [hreads, hrelayed, h₁]
        rfl
    · rw [entriesOf_of_ne hc, List.filterMap_nil, List.append_nil] at hreads
      rw [entriesOf_of_ne hc, List.append_nil] at hrelayed
      exact hi.keep hreads hrelayed (fun h => absurd (hrel c h).symm hc) (by simp [hask]) hconn.ge
  | @reply framed f hp ha hl hask hrel hconn =>
    change s.phase.asks? = some framed at hp
    change s'.phase.asks? = none at hask
    change s'.connections = s.connections at hconn
    rw [ha] at hreads
    rw [hl, entriesOf_nil, List.append_nil] at hrelayed
    by_cases hc : framed = c
    · subst hc
      rw [entriesOf_self] at hreads
      cases hi with
      | nothing h₁ h₂ =>
        have hlt : framed < s'.connections := hconn ▸ hs.conn_lt (conn?_of_asks hp)
        refine .replied (?_ : _ = f :: _) hlt (by simp [hask])
        rw [hreads, hrelayed, h₁, h₂]
        rfl
      | replied _ _ h₃ => exact absurd hp h₃
    · rw [entriesOf_of_ne hc, List.filterMap_nil, List.append_nil] at hreads
      exact hi.keep hreads hrelayed (fun h => absurd (hrel c h).symm hc) (by simp [hask]) hconn.ge

theorem heard (hr : lts.Run (.init o) tr s) (c : Conn) : Heard c tr s := by
  induction hr with
  | refl => exact .nothing rfl rfl (by simp [State.init, Phase.relayed?])
  | tail hr hst ih => exact heard_step ih (sound hr) (listens (step_cases hst))

theorem inTurn_loopFrames (hr : lts.Run (.init o) tr s) :
    InTurn (List.range s.connections) (loopFrames tr) := by
  induction hr with
  | refl => exact .nil
  | @tail tr s s' e hr hst ih =>
    have happ : loopFrames (tr ++ [⟨s, e, s'⟩]) = loopFrames tr ++ loopFrameOf ⟨s, e, s'⟩ := by
      simp [loopFrames]
    have hmore : ∀ {n}, s.connections ≤ n → InTurn (List.range n) (loopFrames tr) := by
      intro n hn
      obtain ⟨k, rfl⟩ := Nat.exists_eq_add_of_le hn
      rw [List.range_add]
      exact ih.turns _
    rw [happ]
    cases listens (step_cases hst) with
    | quiet _ hl _ _ hconn =>
      rw [hl, List.append_nil]
      exact hmore hconn
    | @relay framed f hp _ hl _ _ hconn =>
      obtain ⟨hn, -⟩ := (sound hr).relay (by rw [show s.phase = _ from hp]; rfl)
      rw [hl]
      refine (hmore hconn.ge).entry_of_getLast? ?_ f
      rw [show s'.connections = s.connections from hconn, ← hn, List.range_succ,
        List.getLast?_concat]
    | reply _ _ hl _ _ hconn =>
      rw [hl, List.append_nil]
      exact hmore hconn.ge

/-- **The client writes the output of its connections, one after the other.** -/
theorem shown_eq (hr : lts.Run (.init o) tr s) :
    shown tr = (List.range s.connections).flatMap fun c => shownOn c tr := by
  rw [shown_eq_bytesIn, ← (inTurn_loopFrames hr).flatMap_filter List.nodup_range, List.map_flatMap,
    bytesIn, List.flatMap_assoc]
  exact List.flatMap_congr fun c _ => (shownOn_eq c tr).symm

end Terminal

end Gritty
