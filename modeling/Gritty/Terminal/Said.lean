import Gritty.Terminal.Chunks
import Gritty.Terminal.Speech

/-!
# Where the frames of the client come from

The frames that the client sends are the ones it was started with, its window sizes and pings, the
string of the session that it learned from the reply to its first request, and what the user types.
The last is cut into pieces: a read takes at most `bufLen` bytes, and the escape processor can add
the one tilde that it held back.

## Main definitions

* `Learned` : the session is the one in the reply to the first request.
* `Ready` : what the client has to say fits.
* `Sayable` : a frame that the client may say on a connection.

## Main results

* `length_data_process` : the size of what the escape processor makes of a read.
* `Ready.step`, `ready` : the invariant.
* `sayable` : every frame that is said is sayable.
* `Dialogue.written_le_said` : the frames written are those that are said, but for one whose sending
  failed.
-/

namespace Gritty

namespace Terminal

open Server (Act)

namespace EscapeState

/-- The bytes that the processor holds back. -/
def held : EscapeState → ℕ
  | .afterTilde => 1
  | .normal | .afterNewline => 0

theorem length_emitted_add_held (st : EscapeState) (b : UInt8) :
    (st.emitted b).length + (st.next b).held ≤ st.held + 1 := by
  cases st with
  | normal =>
    by_cases hb : b = lf ∨ b = cr <;> simp [emitted, next, held, hb]
  | afterNewline =>
    by_cases ht : b = tilde
    · simp [emitted, next, held, ht]
    · by_cases hb : b = lf ∨ b = cr <;> simp [emitted, next, held, ht, hb]
  | afterTilde =>
    have hnext : (next .afterTilde b).held = 0 := by
      by_cases hb : b = lf ∨ b = cr <;> simp [next, held, hb]
    rw [hnext]
    cases hc : command b <;> simp [emitted, held, hc]

theorem length_scan_le (st : EscapeState) (input : List UInt8) :
    (scan st input).1.length ≤ st.held + input.length := by
  induction input generalizing st with
  | nil => simp [scan]
  | cons b input ih =>
    by_cases hd : st = .afterTilde ∧ b = dot
    · simp [scan, hd, held]
    · have hb := length_emitted_add_held st b
      have hrest := ih (st.next b)
      simp only [scan, if_neg hd, List.length_append, List.length_cons]
      omega

theorem length_data_process {st : EscapeState} {input bytes : List UInt8}
    (h : .data bytes ∈ (process st input).1) : bytes.length ≤ input.length + 1 := by
  have hspell : bytes.length ≤ (spell (process st input).1).length := by
    obtain ⟨before, after, ha⟩ := List.append_of_mem h
    rw [ha, spell_append, spell_cons]
    simp only [EscapeAction.atoms, List.length_append, List.length_map]
    omega
  have hscan := length_scan_le st input
  have hheld : st.held ≤ 1 := by cases st <;> simp [held]
  rw [(spell_process st input).1] at hspell
  omega

end EscapeState

/-! ### What the client is about to send -/

/-- The actions of one read carry little data. -/
def Small (actions : List EscapeAction) : Prop :=
  ∀ bytes, .data bytes ∈ actions → bytes.length ≤ bufLen + 1

/-- What is about to be sent carries little data. -/
def Fits : Phase → Prop
  | .sending _ frame actions =>
    (∀ bytes, frame = .data bytes → bytes.length ≤ bufLen + 1) ∧ Small actions
  | .suspended _ actions => Small actions
  | .opening | .requesting _ | .awaiting _ | .sendEnv _ | .sendResize _ _ | .sendRedraw _ | .relay _
  | .sleeping _ | .connecting | .attaching _ | .reattaching _ | .exited _ => True

/-- How the client got the string of its session. -/
def Learned (tr : List (Move State Event)) (s : State) : Prop :=
  ∃ reply, (0, .read reply) ∈ acts tr ∧ s.options.command.session? reply = some s.session

/-- The points before the reply to the first request, and the end. -/
def Phase.Early : Phase → Prop
  | .opening | .requesting _ | .awaiting _ | .exited _ => True
  | _ => False

/-- What the client has to say fits. -/
structure Ready (tr : List (Move State Event)) (s : State) : Prop where
  fits : Fits s.phase
  env : ∀ framed, s.phase = .sendEnv framed → s.env ≠ []
  learned : ¬ s.phase.Early → Learned tr s

variable {o : Options} {s s' : State} {e : Event} {tr : List (Move State Event)} {c framed : Conn}

theorem acts_append_single (m : Move State Event) : acts (tr ++ [m]) = acts tr ++ actsOf m := by
  simp [acts]

theorem Learned.mono (h : Learned tr s) (ho : s'.options = s.options) (hs : s'.session = s.session)
    (m : Move State Event) : Learned (tr ++ [m]) s' := by
  obtain ⟨reply, hr, hk⟩ := h
  refine ⟨reply, ?_, by rw [ho, hs, hk]⟩
  rw [acts_append_single]
  exact List.mem_append_left _ hr

theorem fits_perform {actions : List EscapeAction} (h : Small actions) :
    Fits (s.perform framed actions).phase := by
  induction actions with
  | nil => exact trivial
  | cons a actions ih =>
    have hrest : Small actions := fun bytes hb => h bytes (List.mem_cons_of_mem _ hb)
    cases a with
    | data bytes =>
      refine ⟨fun bytes' hb => ?_, hrest⟩
      obtain rfl := Frame.data.inj hb
      exact h bytes List.mem_cons_self
    | detach => exact trivial
    | suspend => exact hrest
    | help => exact ih hrest

theorem fits_onInput {input : List UInt8} (h : input.length ≤ bufLen) :
    Fits (s.onInput framed input).phase := by
  unfold State.onInput
  cases s.escape with
  | none =>
    refine ⟨fun bytes hb => ?_, by simp [Small]⟩
    obtain rfl := Frame.data.inj hb
    exact h.trans (Nat.le_succ _)
  | some esc =>
    exact fits_perform fun bytes hb =>
      (EscapeState.length_data_process hb).trans (Nat.succ_le_succ h)

theorem session_step (h : Step s e s') : s'.session = s.session ∨
    ∃ framed reply, s.phase = .awaiting framed ∧ e = .next (some (.ok reply)) ∧
      s.options.command.session? reply = some s'.session := by
  cases h with
  | @opened ok hp =>
    cases ok
    · rw [State.onOpened]
      cases s.options.command <;> exact .inl rfl
    · exact .inl rfl
  | @reconnected ok => cases ok <;> exact .inl rfl
  | @accepted framed reply session hp hk =>
    obtain ⟨p, hs, -⟩ := startRelay_eq (s.setUp session) framed
    refine .inr ⟨framed, reply, hp, rfl, ?_⟩
    rw [State.enterRun, hs]
    exact hk
  | @reattached framed =>
    obtain ⟨p, hs, -⟩ := startRelay_eq { s with redraw := true } framed
    rw [hs]
    exact .inl rfl
  | @sent framed _ actions =>
    obtain ⟨p, hs, -⟩ := perform_eq s framed actions
    rw [hs]
    exact .inl rfl
  | @input framed n =>
    obtain ⟨escape, p, hs, -⟩ := onInput_eq { s with stdin := s.stdin.drop n } framed
      (s.stdin.take n)
    rw [hs]
    exact .inl rfl
  | _ => exact .inl rfl

theorem granted_of_early (h : Step s e s') (hs : s.phase.Early) : s'.phase.Early ∨
    ∃ framed reply, s.phase = .awaiting framed ∧ e = .next (some (.ok reply)) ∧
      s.options.command.session? reply = some s'.session := by
  cases h with
  | typed | eof | resized | elapse => exact .inl hs
  | fail | requestSent | requestFailed | refused | unanswered | inputEnded | exit | detached
  | interrupt | sessionGone => exact .inl trivial
  | @opened ok hp =>
    cases ok
    · rw [State.onOpened]
      cases s.options.command with
      | newSession => exact .inl trivial
      | attach => exact .inl hs
    · exact .inl trivial
  | @accepted framed reply session hp hk =>
    obtain ⟨p, hs, -⟩ := startRelay_eq (s.setUp session) framed
    refine .inr ⟨framed, reply, hp, rfl, ?_⟩
    rw [State.enterRun, hs]
    exact hk
  | sendFailed hp => cases hph : s.phase <;> simp_all [Phase.relayed?, Phase.Early]
  | envSent hp | resizeSent hp | resizeSentRedraw hp | redrawSent hp | sent hp | input hp | pong hp
  | passive hp | disconnected hp | winch hp | ping hp | timeout hp | resume hp | swallow hp
  | wake hp | reconnected hp | attachSent hp | attachFailed hp | reattached hp | notReattached hp
  | reattachLost hp =>
    rw [hp] at hs
    exact hs.elim

theorem fits_step (h : Step s e s') (hi : Fits s.phase) : Fits s'.phase := by
  cases h with
  | typed | eof | resized | elapse | pong | passive => exact hi
  | @opened ok =>
    cases ok
    · rw [State.onOpened]
      cases s.options.command with
      | newSession => exact trivial
      | attach => exact hi
    · exact trivial
  | @reconnected ok => cases ok <;> exact trivial
  | @accepted framed reply session =>
    obtain ⟨p, hs, hp⟩ := startRelay_eq (s.setUp session) framed
    rw [State.enterRun, hs]
    rcases hp with ⟨-, rfl⟩ | ⟨-, rfl⟩ <;> exact trivial
  | @reattached framed =>
    obtain ⟨p, hs, hp⟩ := startRelay_eq { s with redraw := true } framed
    rw [hs]
    rcases hp with ⟨-, rfl⟩ | ⟨-, rfl⟩ <;> exact trivial
  | @sent framed frame actions hp =>
    rw [hp] at hi
    exact fits_perform hi.2
  | @input framed n hp hpos hn => exact fits_onInput ((List.length_take_le _ _).trans hn)
  | winch => exact ⟨by simp [State.resizeFrame], by simp [Small]⟩
  | ping => exact ⟨by simp, by simp [Small]⟩
  | resume hp =>
    rw [hp] at hi
    exact ⟨by simp [State.resizeFrame], hi⟩
  | _ => exact trivial

theorem env_step (h : Step s e s') (hi : ∀ framed, s.phase = .sendEnv framed → s.env ≠ []) :
    ∀ framed, s'.phase = .sendEnv framed → s'.env ≠ [] := by
  have hstart : ∀ (s : State) (framed : Conn) (c : Conn),
      (s.startRelay framed).phase = .sendEnv c → (s.startRelay framed).env ≠ [] := by
    intro s framed c hp
    obtain ⟨p, hs, he⟩ := startRelay_eq s framed
    rw [hs] at hp ⊢
    rcases he with ⟨-, rfl⟩ | ⟨he, -⟩
    · cases hp
    · simpa using he
  cases h with
  | typed | eof | resized | elapse | pong | passive => exact hi
  | @opened ok hp =>
    cases ok
    · rw [State.onOpened]
      cases s.options.command with
      | newSession => simp [State.exit]
      | attach => exact hi
    · simp [State.onOpened]
  | @reconnected ok => cases ok <;> simp [State.onReconnected, State.pause]
  | accepted => exact hstart _ _
  | reattached => exact hstart _ _
  | @sent framed _ actions =>
    obtain ⟨p, hs, hp⟩ := perform_eq s framed actions
    rw [hs]
    rintro c rfl
    cases hp
  | @input framed n =>
    obtain ⟨escape, p, hs, hp⟩ := onInput_eq { s with stdin := s.stdin.drop n } framed
      (s.stdin.take n)
    rw [hs]
    rintro c rfl
    cases hp
  | _ => simp [State.exit, State.lost, State.pause, State.startResize, State.enterLoop]

theorem Ready.step (hi : Ready tr s) (hr : lts.Run (.init o) tr s) (hst : lts.step s e s') :
    Ready (tr ++ [⟨s, e, s'⟩]) s' where
  fits := fits_step (step_cases hst) hi.fits
  env := env_step (step_cases hst) hi.env
  learned hlate := by
    have h := step_cases hst
    have hopt : s'.options = s.options := options_step h
    -- the reply that the string comes from is the one that is read now, or was read before
    have hnow : (∃ framed reply, s.phase = .awaiting framed ∧ e = .next (some (.ok reply)) ∧
        s.options.command.session? reply = some s'.session) →
        Learned (tr ++ [⟨s, e, s'⟩]) s' := by
      rintro ⟨framed, reply, hp, rfl, hk⟩
      obtain ⟨rfl, -⟩ := (sound hr).asking_inv (.inr hp)
      refine ⟨reply, ?_, hopt.symm ▸ hk⟩
      rw [acts_append_single, actsOf_read (by rw [hp]; rfl)]
      exact List.mem_append_right _ (List.mem_singleton.2 rfl)
    by_cases hs : s.phase.Early
    · exact hnow ((granted_of_early h hs).resolve_left hlate)
    · rcases session_step h with hsame | hnew
      · exact (hi.learned hs).mono hopt hsame _
      · exact hnow hnew

theorem ready (hr : lts.Run (.init o) tr s) : Ready tr s := by
  induction hr with
  | refl => exact ⟨trivial, by simp [State.init], fun h => absurd trivial h⟩
  | tail hr hst ih => exact ih.step hr hst

/-! ### What the client says -/

/-- A frame that the client may say on its connection `c`. -/
inductive Sayable (o : Options) (tr : List (Move State Event)) (c : Conn) : Frame → Prop
  | request : c = 0 → Sayable o tr c o.command.request
  | env : c = 0 → o.envVars ≠ [] → Sayable o tr c (.env o.envVars)
  | resize {cols rows} : Sayable o tr c (.resize cols rows)
  | data {bytes} : bytes.length ≤ bufLen + 1 → Sayable o tr c (.data bytes)
  | ping : Sayable o tr c .ping
  | attach {reply session} : c ≠ 0 → (0, .read reply) ∈ acts tr →
      o.command.session? reply = some session → Sayable o tr c (.attach session)

theorem Sayable.mono {f : Frame} (h : Sayable o tr c f) (m : Move State Event) :
    Sayable o (tr ++ [m]) c f := by
  cases h with
  | request hc => exact .request hc
  | env hc he => exact .env hc he
  | resize => exact .resize
  | data hb => exact .data hb
  | ping => exact .ping
  | attach hc hr hk =>
    refine .attach hc ?_ hk
    rw [acts_append_single]
    exact List.mem_append_left _ hr

theorem sayable_of_send (hr : lts.Run (.init o) tr s) {f : Frame} (hf : s.send? = some (c, f)) :
    Sayable o tr c f := by
  have hi := sound hr
  have hready := ready hr
  have ho := options_eq hr
  cases hp : s.phase with
  | requesting =>
    obtain ⟨rfl, rfl⟩ : _ = c ∧ _ = f := by simpa [State.send?, hp] using hf
    obtain ⟨rfl, -⟩ := hi.asking_inv (.inl hp)
    exact ho ▸ .request rfl
  | attaching =>
    obtain ⟨rfl, rfl⟩ : _ = c ∧ _ = f := by simpa [State.send?, hp] using hf
    obtain ⟨-, hn, -⟩ := hi.attaching_inv (.inl hp)
    obtain ⟨reply, hr', hk⟩ := hready.learned (by simp [hp, Phase.Early])
    exact .attach hn hr' (ho ▸ hk)
  | sendEnv =>
    obtain ⟨rfl, rfl⟩ : _ = c ∧ _ = f := by simpa [State.send?, hp] using hf
    obtain ⟨-, he, -⟩ := hi.relay (by rw [hp]; rfl)
    have hne := hready.env _ hp
    rename_i framed
    by_cases hc : framed = 0
    · have henv : s.env = o.envVars := by rw [he, hc, ← ho]; rfl
      exact henv ▸ .env hc (henv ▸ hne)
    · rw [openingOf_of_ne hc] at he
      exact absurd he hne
  | sendResize =>
    obtain ⟨rfl, rfl⟩ : _ = c ∧ _ = f := by simpa [State.send?, hp] using hf
    exact .resize
  | sendRedraw =>
    obtain ⟨rfl, rfl⟩ : _ = c ∧ _ = f := by simpa [State.send?, hp] using hf
    exact .data (by simp [bufLen])
  | sending =>
    obtain ⟨rfl, rfl⟩ : _ = c ∧ _ = f := by simpa [State.send?, hp] using hf
    obtain ⟨-, -, -, hrel, -⟩ := hi.relay (by rw [hp]; rfl)
    have hfits := hready.fits
    rw [hp] at hfits
    cases hrel _ _ hp with
    | data => exact .data (hfits.1 _ rfl)
    | resize => exact .resize
    | ping => exact .ping
  | _ => simp [State.send?, hp] at hf

/-- **Where the frames of the client come from.** -/
theorem sayable (hr : lts.Run (.init o) tr s) {f : Frame} {ok : Bool}
    (hf : (c, .sent f ok) ∈ acts tr) : Sayable o tr c f := by
  induction hr with
  | refl => cases hf
  | @tail tr s s' e hr hst ih =>
    rw [acts_append_single] at hf
    rcases List.mem_append.1 hf with hf | hf
    · exact (ih hf).mono _
    · refine (sayable_of_send hr ?_).mono _
      cases e with
      | sent ok' =>
        obtain ⟨q, hq, hqa⟩ := List.mem_map.1 hf
        obtain ⟨rfl, hqf⟩ := Prod.mk.inj hqa
        obtain ⟨rfl, -⟩ := Act.sent.inj hqf
        exact Option.mem_toList.1 hq
      | next r =>
        rcases r with _ | _ | g
        · cases hf
        · cases hf
        · obtain ⟨d, -, hd⟩ := List.mem_map.1 hf
          cases hd
      | _ => cases hf

/-- The frames written are all that the client says, but for one whose sending failed. -/
theorem Dialogue.written_le_said {O : Opening → Prop} {p : Pos} {as : List Act}
    (h : Dialogue O p as) : as.filterMap Act.written? <+: said as := by
  induction h with
  | nil => exact List.prefix_refl _
  | opens _ _ ih => exact ih
  | cons hs ht ih =>
    cases hs with
    | sent => exact List.cons_prefix_cons.2 ⟨rfl, ih⟩
    | failed =>
      obtain rfl := ht.nil_of_over
      exact List.nil_prefix
    | read => exact ih

end Terminal

end Gritty
