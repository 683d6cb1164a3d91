import Gritty.Terminal.Screen
import Gritty.Terminal.Typing

/-!
# What the client writes of the input

Of the frames that the client writes on a connection, the `Data` frames are the Ctrl-L that makes
the session redraw its screen, if there is one, and then what the escape processor makes of the
input that is read while the connection is in use.

## Main definitions

* `dataOn`, `inputOn` : the bytes written on a connection, and those that the processor passes on.
* `Keyed` : how far the client has written the input on a connection.

## Main results

* `writes` : what a move writes.
* `keyed_step`, `keyed` : every move carries the input on.
* `written_input` : what the client writes on a connection is a Ctrl-L at most, and what the escape
  processor makes of the input.
* `passed_sublist_typed` : the reads of `relay` take bytes out of what was typed, in order.
-/

namespace Gritty

namespace Terminal

open Server (Act)

/-- The bytes that the client writes on a connection in `Data` frames. -/
def dataOn (c : Conn) (tr : List (Move State Event)) : List UInt8 :=
  bytesIn ((actsOn c tr).filterMap Act.written?)

/-- The input that the client writes on a connection. -/
def inputOn (c : Conn) (tr : List (Move State Event)) : List UInt8 :=
  (entriesOf c (relayed tr)).flatten

/-- The connection on which the loop of `relay` is still to begin. -/
def Phase.fresh? : Phase → Option Conn
  | .requesting framed | .awaiting framed | .attaching framed | .reattaching framed
  | .sendEnv framed | .sendResize framed _ | .sendRedraw framed => some framed
  | .opening | .relay _ | .sending _ _ _ | .suspended _ _ | .sleeping _ | .connecting
  | .exited _ => none

/-- The data that a move writes. -/
inductive Writes (m : Move State Event) : Prop
  | none : (∀ c, bytesIn ((entriesOf c (actsOf m)).filterMap Act.written?) = []) →
      relayedOf m = [] → Writes m
  | redraw {framed} : m.src.phase = .sendRedraw framed →
      actsOf m = [(framed, .sent (.data [ctrlL]) true)] → relayedOf m = [] →
      m.dst.phase = .relay framed → m.dst.connections = m.src.connections → Writes m
  | input {framed frame actions} : m.src.phase = .sending framed frame actions →
      actsOf m = [(framed, .sent frame true)] →
      relayedOf m = (payload frame).map (fun bytes => (framed, bytes)) →
      m.dst.phase.fresh? = Option.none → m.dst.connections = m.src.connections → Writes m

variable {o : Options} {s s' : State} {e : Event} {tr : List (Move State Event)} {c framed : Conn}

theorem fresh_performs {p : Phase} (h : Performs framed p) : p.fresh? = none := by
  cases h <;> rfl

theorem fresh_step (h : Step s e s') (hc : s'.phase.fresh? = some c) :
    s.phase.fresh? = some c ∨ c = s.connections := by
  cases h with
  | typed | eof | resized | elapse | pong | passive => exact .inl hc
  | fail | requestFailed | refused | unanswered | inputEnded | exit | detached | interrupt
  | sessionGone | winch | ping | resume | sendFailed | disconnected | timeout | swallow | wake
  | attachFailed | notReattached | reattachLost | redrawSent | resizeSent =>
    cases hc
  | @opened ok hp =>
    cases ok with
    | true => exact .inr (Option.some.inj hc).symm
    | false =>
      rw [State.onOpened] at hc
      cases hcmd : s.options.command with
      | newSession => simp [hcmd, State.exit, Phase.fresh?] at hc
      | attach => exact .inl (by simpa [hcmd] using hc)
  | @reconnected ok hp =>
    cases ok with
    | true => exact .inr (Option.some.inj hc).symm
    | false => cases hc
  | requestSent hp | attachSent hp | envSent hp | resizeSentRedraw hp =>
    refine .inl ?_
    rw [hp]
    exact hc
  | @accepted framed reply session hp =>
    obtain ⟨p, hs, hp'⟩ := startRelay_eq (s.setUp session) framed
    rw [State.enterRun, hs] at hc
    refine .inl ?_
    rw [hp]
    rcases hp' with ⟨-, rfl⟩ | ⟨-, rfl⟩ <;> exact hc
  | @reattached framed hp =>
    obtain ⟨p, hs, hp'⟩ := startRelay_eq { s with redraw := true } framed
    rw [hs] at hc
    refine .inl ?_
    rw [hp]
    rcases hp' with ⟨-, rfl⟩ | ⟨-, rfl⟩ <;> exact hc
  | @sent framed frame actions hp =>
    obtain ⟨p, hs, hp'⟩ := perform_eq s framed actions
    rw [hs] at hc
    exact absurd ((fresh_performs hp').symm.trans hc) (by simp)
  | @input framed n hp =>
    obtain ⟨escape, p, hs, hp'⟩ := onInput_eq { s with stdin := s.stdin.drop n } framed
      (s.stdin.take n)
    rw [hs] at hc
    exact absurd ((fresh_performs hp').symm.trans hc) (by simp)

theorem writes_frame {f : Frame} {ok : Bool} (hs : s.send? = some (framed, f))
    (h : ok = true → f.bytes = [] ∧ relayedOf ⟨s, .sent ok, s'⟩ = []) :
    Writes ⟨s, .sent ok, s'⟩ := by
  cases ok with
  | false =>
    refine .none (fun c => ?_) rfl
    rw [actsOf_sent hs]
    by_cases hc : framed = c
    · subst hc
      rw [entriesOf_self]
      rfl
    · rw [entriesOf_of_ne hc]
      rfl
  | true =>
    obtain ⟨hf, hr⟩ := h rfl
    refine .none (fun c => ?_) hr
    rw [actsOf_sent hs]
    by_cases hc : framed = c
    · subst hc
      rw [entriesOf_self]
      simp [bytesIn, Act.written?, hf]
    · rw [entriesOf_of_ne hc]
      rfl

theorem writes (h : Step s e s') : Writes ⟨s, e, s'⟩ := by
  have hnext : ∀ {r : Server.NextFrame}, e = .next r → Writes ⟨s, e, s'⟩ := by
    rintro r rfl
    refine .none (fun c => ?_) rfl
    rcases r with _ | _ | f
    · rfl
    · rfl
    · cases hr : s.phase.reads? with
      | none => simp [actsOf, hr, bytesIn]
      | some d =>
        rw [actsOf_read hr]
        by_cases hd : d = c
        · subst hd
          rw [entriesOf_self]
          rfl
        · rw [entriesOf_of_ne hd]
          rfl
  cases h with
  | typed | eof | resized | elapse | fail | opened | inputEnded | winch | ping | timeout | resume
  | interrupt | swallow | wake | reconnected | input =>
    exact .none (fun _ => rfl) rfl
  | accepted | refused | unanswered | pong | exit | detached | passive | disconnected | reattached
  | sessionGone | notReattached | reattachLost => exact hnext rfl
  | requestSent hp =>
    refine writes_frame (by rw [State.send?, hp]) fun _ => ⟨?_, by simp [relayedOf, hp]⟩
    cases s.options.command <;> rfl
  | envSent hp | resizeSent hp | resizeSentRedraw hp | attachSent hp =>
    exact writes_frame (by rw [State.send?, hp]) fun _ => ⟨rfl, by simp [relayedOf, hp]⟩
  | requestFailed hp | attachFailed hp => exact writes_frame (by rw [State.send?, hp]) (by simp)
  | sendFailed _ hs => exact writes_frame hs (by simp)
  | @redrawSent framed hp =>
    exact .redraw hp (actsOf_sent (by rw [State.send?, hp])) (by simp [relayedOf, hp]) rfl rfl
  | @sent framed frame actions hp =>
    obtain ⟨p, hs, hp'⟩ := perform_eq s framed actions
    rw [hs]
    exact .input hp (actsOf_sent (by rw [State.send?, hp])) (by simp [relayedOf, hp])
      (fresh_performs hp') rfl

/-- How far the client has written the input on a connection. -/
inductive Keyed (c : Conn) (tr : List (Move State Event)) (s : State) : Prop
  | nothing : dataOn c tr = [] → inputOn c tr = [] → Keyed c tr s
  | input {redraw} : redraw = [] ∨ redraw = [ctrlL] → dataOn c tr = redraw ++ inputOn c tr →
      c < s.connections → s.phase.fresh? ≠ some c → Keyed c tr s

theorem dataOn_append_single (c : Conn) (tr : List (Move State Event)) (m : Move State Event) :
    dataOn c (tr ++ [m]) =
      dataOn c tr ++ bytesIn ((entriesOf c (actsOf m)).filterMap Act.written?) := by
  simp [dataOn, actsOn, acts, bytesIn_append]

theorem inputOn_append_single (c : Conn) (tr : List (Move State Event)) (m : Move State Event) :
    inputOn c (tr ++ [m]) = inputOn c tr ++ (entriesOf c (relayedOf m)).flatten := by
  simp [inputOn, relayed]

theorem flatten_payload (f : Frame) : (payload f).flatten = f.bytes := by
  cases f <;> simp [payload, Frame.bytes]

theorem connections_le (h : Step s e s') : s.connections ≤ s'.connections := by
  cases listens h with
  | quiet _ _ _ _ hle => exact hle
  | relay _ _ _ _ _ heq | reply _ _ _ _ _ heq => exact heq.ge

/-- Nothing is written on the connection. -/
theorem Keyed.keep {tr' : List (Move State Event)} (hi : Keyed c tr s) (h : Step s e s')
    (hd : dataOn c tr' = dataOn c tr) (hin : inputOn c tr' = inputOn c tr) : Keyed c tr' s' := by
  cases hi with
  | nothing h₁ h₂ => exact .nothing (hd.trans h₁) (hin.trans h₂)
  | input hr h₁ hlt hfresh =>
    refine .input hr (hd.trans (hin.symm ▸ h₁)) (hlt.trans_le (connections_le h)) fun hc => ?_
    rcases fresh_step h hc with hc | hc
    · exact hfresh hc
    · exact absurd hlt (hc ▸ Nat.lt_irrefl _)

theorem conn?_of_fresh (h : s.phase.fresh? = some c) : s.phase.conn? = some c := by
  cases hp : s.phase <;> simp_all [Phase.fresh?, Phase.conn?]

theorem keyed_step (hi : Keyed c tr s) (hs : Sound s) (h : Step s e s') :
    Keyed c (tr ++ [⟨s, e, s'⟩]) s' := by
  have hdata := dataOn_append_single c tr ⟨s, e, s'⟩
  have hinput := inputOn_append_single c tr ⟨s, e, s'⟩
  have helse : ∀ {framed : Conn} {a : Act}, framed ≠ c →
      bytesIn ((entriesOf c [(framed, a)]).filterMap Act.written?) = [] := by
    intro framed a hne
    rw [entriesOf_of_ne hne]
    rfl
  cases writes h with
  | none hw hr =>
    rw [hw, List.append_nil] at hdata
    rw [hr, entriesOf_nil, List.flatten_nil, List.append_nil] at hinput
    exact hi.keep h hdata hinput
  | @redraw framed hp ha hr hp' hconn =>
    change s.phase = .sendRedraw framed at hp
    change s'.phase = .relay framed at hp'
    change s'.connections = s.connections at hconn
    rw [hr, entriesOf_nil, List.flatten_nil, List.append_nil] at hinput
    rw [ha] at hdata
    have hfresh : s.phase.fresh? = some framed := by rw [hp]; rfl
    by_cases hc : framed = c
    · subst hc
      cases hi with
      | nothing h₁ h₂ =>
        refine .input (.inr rfl) ?_ (hconn ▸ hs.conn_lt (conn?_of_fresh hfresh))
          (by simp [hp', Phase.fresh?])
        rw [hdata, hinput, h₁, h₂, entriesOf_self]
        rfl
      | input _ _ _ hno => exact absurd hfresh hno
    · rw [helse hc, List.append_nil] at hdata
      exact hi.keep h hdata hinput
  | @input framed frame actions hp ha hr hp' hconn =>
    change s.phase = .sending framed frame actions at hp
    change s'.phase.fresh? = .none at hp'
    change s'.connections = s.connections at hconn
    rw [ha] at hdata
    rw [hr] at hinput
    by_cases hc : framed = c
    · subst hc
      have hwrite : bytesIn ((entriesOf framed [(framed, Act.sent frame true)]).filterMap
          Act.written?) = frame.bytes := by
        rw [entriesOf_self]
        exact List.append_nil _
      rw [hwrite] at hdata
      rw [entriesOf_map_self, flatten_payload] at hinput
      have hlt : framed < s'.connections := hconn ▸ hs.conn_lt (by rw [hp]; rfl)
      cases hi with
      | nothing h₁ h₂ =>
        refine .input (.inl rfl) ?_ hlt (by simp [hp'])
        rw [hdata, hinput, h₁, h₂]
        rfl
      | input hred h₁ _ _ =>
        refine .input hred ?_ hlt (by simp [hp'])
        rw [hdata, hinput, h₁, List.append_assoc]
    · rw [helse hc, List.append_nil] at hdata
      rw [entriesOf_map_of_ne hc, List.flatten_nil, List.append_nil] at hinput
      exact hi.keep h hdata hinput

theorem keyed (hr : lts.Run (.init o) tr s) (c : Conn) : Keyed c tr s := by
  induction hr with
  | refl => exact .nothing rfl rfl
  | tail hr hst ih => exact keyed_step ih (sound hr) (step_cases hst)

/-- **What the client writes on a connection is a Ctrl-L at most, and what the escape processor
makes of the input.** -/
theorem written_input (hr : lts.Run (.init o) tr s) (c : Conn) :
    ∃ redraw, (redraw = [] ∨ redraw = [ctrlL]) ∧
      dataOn c tr <+: redraw ++ (entriesOf c (filtered o.escape (passed tr))).flatten := by
  obtain ⟨rest, hrest⟩ := (sending hr).sent c
  rw [← hrest, List.flatten_append]
  cases keyed hr c with
  | nothing h₁ _ =>
    rw [h₁]
    exact ⟨[], .inl rfl, List.nil_prefix⟩
  | @input redraw hred h₁ _ _ =>
    refine ⟨redraw, hred, ?_⟩
    rw [h₁, ← List.append_assoc]
    exact List.prefix_append _ _

/-- The reads of `relay` take bytes out of what was typed, in order. -/
theorem passed_sublist_typed (hr : lts.Run (.init o) tr s) :
    ((passed tr).flatMap Prod.snd).Sublist (typed tr) := by
  rw [typed_eq_taken hr, taken, passed, List.flatMap_assoc]
  refine List.Sublist.trans ?_ (List.sublist_append_left _ _)
  clear hr
  induction tr with
  | nil => exact .slnil
  | cons m tr ih =>
    rw [List.flatMap_cons, List.flatMap_cons, takenOf]
    exact (List.sublist_append_left _ _).append ih

end Terminal

end Gritty
