import Gritty.Server.Takeover

/-!
# What one client is sent

The frames written to one connection are `Data` and `Pong` frames while the client is served, and
then `Detached` when the next client takes over or `Exit` when the shell exits; after that, nothing.
And clients take turns: the task writes to and reads from one connection at a time, in the order in
which they were taken from the channel.

## Main definitions

* `Talk` : `Data` and `Pong` frames, and then at most one `Detached` or `Exit`.
* `Conversation` : what a run has written to one connection.
* `acts` : what a run did on connections, one read or write after the other.

## Main results

* `frames_step` : what a step writes goes to a connection that the task owns.
* `conversation` : what one client is sent, in every run.
* `clients_step`, `inTurn_acts` : clients take turns.
* `sentTo_eq_acts` : the frames written to a connection are those of the acts.
-/

namespace Gritty

namespace Server

/-- The frames that a client is sent while it is served. -/
def IsRelayed : Frame → Prop
  | .data _ | .pong => True
  | .resize _ _ | .exit _ | .detached | .ping | .env _ | .newSession _ | .attach _ | .listSessions
  | .killSession _ | .killServer | .sessionCreated _ | .sessionInfo _ | .ok | .error _ => False

/-- The frames that end the service of a client. -/
def IsLast : Frame → Prop
  | .detached | .exit _ => True
  | .data _ | .resize _ _ | .ping | .pong | .env _ | .newSession _ | .attach _ | .listSessions
  | .killSession _ | .killServer | .sessionCreated _ | .sessionInfo _ | .ok | .error _ => False

/-- A prefix of `(Data | Pong)* (Detached | Exit)`. -/
inductive Talk : List Frame → Prop
  | served {fs : List Frame} : (∀ f ∈ fs, IsRelayed f) → Talk fs
  | over {fs : List Frame} {f : Frame} : (∀ f ∈ fs, IsRelayed f) → IsLast f → Talk (fs ++ [f])

/-- The frames written to the connection `c`, in order. -/
def State.sentTo (s : State) (c : Conn) : List Frame :=
  (s.sent.filter fun p => p.1 = c).map Prod.snd

/-- A move takes a `Ping` from the connection `c`. -/
def pingOf (c : Conn) (m : Move State Event) : ℕ :=
  match m.lbl with
  | .next (some (.ok .ping)) => if m.src.phase = .relay c then 1 else 0
  | _ => 0

/-- The `Ping`s taken from the connection `c`. -/
def pings (c : Conn) (tr : List (Move State Event)) : ℕ := (tr.map (pingOf c)).sum

/-- The `Pong` due to the connection `c`. -/
def State.pongDueTo (s : State) (c : Conn) : ℕ := if s.phase = .sendPong c then 1 else 0

variable {s s' : State} {e : Event} {tr : List (Move State Event)} {c : Conn}

/-- What a step writes goes to a connection that the task owns; after a `Detached` or an `Exit` it
does not own it any more. -/
theorem frames_step (h : Step s e s') (hn : s.held.Nodup) : framesOf ⟨s, e, s'⟩ = [] ∨
    ∃ c f, framesOf ⟨s, e, s'⟩ = [(c, f)] ∧ c ∈ s.held ∧
      (IsRelayed f ∨ IsLast f ∧ c ∉ s'.held) := by
  cases h with
  | @pongSent framed ok hp =>
    cases ok
    · exact .inl rfl
    · refine .inr ⟨framed, .pong, by simp [framesOf, Phase.send?, hp], ?_, .inl trivial⟩
      simp [State.held, hp, Phase.holds]
  | @dataSent framed chunk hp =>
    refine .inr ⟨framed, .data chunk, by simp [framesOf, Phase.send?, hp], ?_, .inl trivial⟩
    simp [State.held, hp, Phase.holds]
  | @detachedSent framed newFramed ok hp =>
    cases ok
    · exact .inl rfl
    · obtain ⟨hc, hc'⟩ := not_held_of_displaced (.detachedSent hp) hn hp rfl
      exact .inr ⟨framed, .detached, by simp [framesOf, Phase.send?, hp], hc, .inr ⟨trivial, hc'⟩⟩
  | @exitSent framed code ok hp =>
    cases ok
    · exact .inl rfl
    · refine .inr ⟨framed, .exit code, by simp [framesOf, Phase.send?, hp], ?_, .inr ⟨trivial, ?_⟩⟩
      · simp [State.held, hp, Phase.holds]
      · simp [State.held, State.finish]
  | _ => exact .inl rfl

/-- What one client has been sent. -/
structure Conversation (c : Conn) (tr : List (Move State Event)) (s : State) : Prop where
  /-- a client that can still be served has not been sent a last frame -/
  served : c ∈ s.held ∨ c ∉ handed tr → ∀ f ∈ s.sentTo c, IsRelayed f
  talk : Talk (s.sentTo c)
  pongs : (s.sentTo c).count .pong + s.pongDueTo c ≤ pings c tr

theorem sentTo_step (h : Step s e s') :
    s'.sentTo c = s.sentTo c ++ ((framesOf ⟨s, e, s'⟩).filter fun p => p.1 = c).map Prod.snd := by
  rw [State.sentTo, sent_step h, List.filter_append, List.map_append]
  rfl

theorem pongDueTo_onNext {framed : Conn} {r : NextFrame} (hp : s.phase = .relay framed) :
    (s.onNext framed r).pongDueTo c = pingOf c ⟨s, .next r, s.onNext framed r⟩ := by
  have hs : s.pongDueTo c = 0 := by simp [State.pongDueTo, hp]
  rcases r with _ | e | f
  · rfl
  · rfl
  · cases f with
    | ping => simp [State.pongDueTo, pingOf, State.onNext, hp]
    | data | exit => rfl
    | _ => exact hs

theorem pong_step (h : Step s e s') :
    (((framesOf ⟨s, e, s'⟩).filter fun p => p.1 = c).map Prod.snd).count .pong + s'.pongDueTo c ≤
      s.pongDueTo c + pingOf c ⟨s, e, s'⟩ := by
  cases h with
  | next hp =>
    rw [pongDueTo_onNext hp]
    simp [framesOf]
  | @pongSent framed ok hp =>
    by_cases hc : framed = c <;> cases ok <;>
      simp [framesOf, Phase.send?, hp, State.pongDueTo, pingOf, hc]
  | @dataSent framed chunk hp =>
    by_cases hc : framed = c <;> simp [framesOf, Phase.send?, hp, State.pongDueTo, hc]
  | @detachedSent framed newFramed ok hp | @exitSent framed code ok hp =>
    by_cases hc : framed = c <;> cases ok <;>
      simp [framesOf, Phase.send?, hp, State.pongDueTo, hc, State.finish]
  | handOff | handOffLost | dropSenders | tick | output | hangup | exit | readBlock | noTakeover =>
    simp [framesOf, State.pongDueTo]
  | _ => simp [framesOf, State.pongDueTo, State.finish, State.onSpawn, State.shellExited]

theorem pings_append_single (m : Move State Event) :
    pings c (tr ++ [m]) = pings c tr + pingOf c m := by
  simp [pings]

/-- **What one client is sent.**  In every run, when each connection is pushed once: the frames
written to a connection are `Data` and `Pong` frames, with at most one `Pong` for a `Ping`, and then
at most one `Detached` or `Exit`. -/
theorem conversation (hr : lts.Run .init tr s) (hd : (handed tr).Nodup) (c : Conn) :
    Conversation c tr s := by
  induction hr with
  | refl => exact ⟨by simp [State.sentTo, State.init], .served (by simp [State.sentTo, State.init]),
      by simp [State.sentTo, State.pongDueTo, State.init]⟩
  | @tail tr s s' e hr hst ih =>
    have h := step_cases hst
    rw [handed_append_single] at hd
    obtain ⟨hd₁, -, hdis⟩ := List.nodup_append.1 hd
    have hi := ih hd₁
    have hheld : s.held.Nodup := hd₁.sublist (held_sublist_handed hr)
    -- a connection that is owned or not pushed yet after the step was so before it
    have hback : c ∈ s'.held ∨ c ∉ handed (tr ++ [⟨s, e, s'⟩]) → c ∈ s.held ∨ c ∉ handed tr := by
      rw [handed_append_single]
      rintro (hc | hc)
      · rcases List.mem_append.1 ((held_step h).subset hc) with hc | hc
        · exact .inl hc
        · exact .inr fun hc' => hdis c hc' c hc rfl
      · exact .inr fun hc' => hc (List.mem_append_left _ hc')
    have hpong : (s'.sentTo c).count .pong + s'.pongDueTo c ≤ pings c (tr ++ [⟨s, e, s'⟩]) := by
      have h₁ := pong_step (c := c) h
      have h₂ := hi.pongs
      rw [sentTo_step h, List.count_append, pings_append_single]
      omega
    rcases frames_step h hheld with hn | ⟨c', f, hf, hc', hlast⟩
    · have hsent : s'.sentTo c = s.sentTo c := by simp [sentTo_step h, hn]
      exact ⟨fun hc => hsent ▸ hi.served (hback hc), hsent ▸ hi.talk, hpong⟩
    · by_cases hcc : c' = c
      · subst hcc
        have hrel := hi.served (.inl hc')
        have hsent : s'.sentTo c' = s.sentTo c' ++ [f] := by simp [sentTo_step h, hf]
        rcases hlast with hf | ⟨hf, hgone⟩
        · have hall : ∀ g ∈ s'.sentTo c', IsRelayed g := by
            rw [hsent]
            intro g hg
            rcases List.mem_append.1 hg with hg | hg
            · exact hrel g hg
            · exact List.mem_singleton.1 hg ▸ hf
          exact ⟨fun _ => hall, .served hall, hpong⟩
        · refine ⟨fun hc => ?_, hsent ▸ .over hrel hf, hpong⟩
          rcases hc with hc | hc
          · exact absurd hc hgone
          · rw [handed_append_single] at hc
            exact absurd (List.mem_append_left _ ((held_sublist_handed hr).subset hc')) hc
      · have hsent : s'.sentTo c = s.sentTo c := by simp [sentTo_step h, hf, hcc]
        exact ⟨fun hc => hsent ▸ hi.served (hback hc), hsent ▸ hi.talk, hpong⟩

/-! ### The turns of the clients -/

/-- What is done on a connection: a frame is read from it, or a send to it ends. -/
inductive Act where
  | read (f : Frame)
  | sent (f : Frame) (ok : Bool)
  deriving DecidableEq

/-- The frame written. -/
def Act.written? : Act → Option Frame
  | .sent f true => some f
  | .sent _ false | .read _ => none

/-- The frame read. -/
def Act.read? : Act → Option Frame
  | .read f => some f
  | .sent _ _ => none

/-- What a move does on the connections of its clients. -/
def actsOf (m : Move State Event) : List (Conn × Act) :=
  match m.src.phase, m.lbl with
  | .readEnv framed, .firstFrame (some (some (.ok f))) => [(framed, .read f)]
  | .relay framed, .next (some (.ok f)) => [(framed, .read f)]
  | p, .sent ok => p.send?.toList.map fun q => (q.1, .sent q.2 ok)
  | _, _ => []

/-- What the task did on connections, in order. -/
def acts (tr : List (Move State Event)) : List (Conn × Act) := tr.flatMap actsOf

/-- A move does one thing at most, on the connection of the current client. -/
theorem actsOf_cases (m : Move State Event) :
    (actsOf m = [] ∧ framesOf m = []) ∨
      ∃ c a, actsOf m = [(c, a)] ∧ framesOf m = (a.written?.map fun f => (c, f)).toList ∧
        m.src.phase.holds.head? = some c := by
  obtain ⟨s, e, s'⟩ := m
  cases e with
  | firstFrame r =>
    cases hp : s.phase with
    | readEnv framed =>
      rcases r with _ | _ | _ | f
      · exact .inl ⟨by rw [actsOf, hp], rfl⟩
      · exact .inl ⟨by rw [actsOf, hp], rfl⟩
      · exact .inl ⟨by rw [actsOf, hp], rfl⟩
      · exact .inr ⟨framed, .read f, by rw [actsOf, hp], rfl, rfl⟩
    | _ => exact .inl ⟨by rw [actsOf, hp], rfl⟩
  | next r =>
    cases hp : s.phase with
    | relay framed =>
      rcases r with _ | _ | f
      · exact .inl ⟨by rw [actsOf, hp], rfl⟩
      · exact .inl ⟨by rw [actsOf, hp], rfl⟩
      · exact .inr ⟨framed, .read f, by rw [actsOf, hp], rfl, rfl⟩
    | _ => exact .inl ⟨by rw [actsOf, hp], rfl⟩
  | sent ok =>
    have ha : actsOf ⟨s, .sent ok, s'⟩ = s.phase.send?.toList.map fun q => (q.1, .sent q.2 ok) := by
      cases hp : s.phase <;> rw [actsOf, hp]
    rw [ha]
    cases hp : s.phase <;> cases ok <;>
      simp [framesOf, Phase.send?, Phase.holds, hp, Act.written?]
  | _ => exact .inl ⟨by cases hp : s.phase <;> rw [actsOf, hp], rfl⟩

/-- The sends that end are those that phases wait for. -/
theorem send_of_act {m : Move State Event} {f : Frame} {ok : Bool}
    (h : (c, .sent f ok) ∈ actsOf m) : m.lbl = .sent ok ∧ m.src.phase.send? = some (c, f) := by
  unfold actsOf at h
  split at h
  · simp at h
  · simp at h
  · next ok' hl =>
    obtain ⟨⟨d, g⟩, hs, hq⟩ := List.mem_map.1 h
    obtain ⟨rfl, rfl, rfl⟩ : d = c ∧ g = f ∧ ok' = ok := by simpa using hq
    exact ⟨hl, Option.mem_toList.1 hs⟩
  · simp at h

/-- A `Detached` is sent when a client takes over. -/
theorem phase_of_detached {p : Phase} (h : p.send? = some (c, .detached)) :
    ∃ newFramed, p = .sendDetached c newFramed := by
  cases p <;> simp [Phase.send?] at h
  obtain rfl := h
  exact ⟨_, rfl⟩

theorem relay_of_detached {newFramed : Conn} {ok : Bool} (h : Step s (.sent ok) s')
    (hp : s.phase = .sendDetached c newFramed) : s'.phase = .relay newFramed := by
  cases h with
  | detachedSent hp' =>
    obtain ⟨-, rfl⟩ := Phase.sendDetached.inj (hp'.symm.trans hp)
    rfl
  | pongSent hp' | dataSent hp' | dataFailed hp' | exitSent hp' =>
    exact absurd (hp'.symm.trans hp) (by simp)

theorem actsOf_handOff {framed : Conn} : actsOf ⟨s, .handOff framed, s'⟩ = [] := by
  cases hp : s.phase <;> rw [actsOf, hp]

theorem holds_onNext {framed : Conn} {r : NextFrame} (hp : s.phase = .relay framed) :
    (s.onNext framed r).phase.holds = [framed] ∨ (s.onNext framed r).phase.holds = [] := by
  rcases r with _ | e | f
  · exact .inr rfl
  · exact .inr rfl
  · cases f with
    | data | ping => exact .inl rfl
    | exit => exact .inr rfl
    | _ => exact .inl (congrArg Phase.holds hp)

/-- **What one step does to the line of clients.**  `more` are those whose turn comes. -/
theorem clients_step (h : Step s e s') : ∃ more,
    s.phase.holds.tail ++ adoptedOf ⟨s, e, s'⟩ = more ++ s'.phase.holds.tail ∧
      ∀ c, s'.phase.holds.head? = some c →
        more.getLast? = some c ∨ (more = [] ∧ s.phase.holds.head? = some c) := by
  cases h with
  | @recvFirst framed queue hp hq | @adopt framed queue hp hq =>
    exact ⟨[framed], by simp [adoptedOf, hp, hq, Phase.holds], by simp [Phase.holds]⟩
  | @takeover framed newFramed queue hp hq =>
    exact ⟨[], by simp [adoptedOf, hp, hq, Phase.holds], by simp [Phase.holds, hp]⟩
  | @detachedSent framed newFramed ok hp =>
    exact ⟨[newFramed], by simp [adoptedOf, hp, Phase.holds], by simp [Phase.holds]⟩
  | closedFirst hp hq | closed hp hq | noTakeover hp hq =>
    exact ⟨[], by simp [adoptedOf, hp, hq, Phase.holds, State.finish],
      by simp [Phase.holds, State.finish, hp]⟩
  | @next framed r hp =>
    have hs : s.phase.holds = [framed] := by rw [hp]; rfl
    rcases holds_onNext (r := r) hp with hn | hn <;>
      exact ⟨[], by simp [adoptedOf, hn, hs], by simp [hn, hs]⟩
  | abort =>
    exact ⟨s.phase.holds.tail, by simp [adoptedOf, State.finish, Phase.holds],
      by simp [State.finish, Phase.holds]⟩
  | waitErr hp =>
    refine ⟨[], ?_, by simp [State.finish, Phase.holds]⟩
    rcases hp with hp | ⟨framed, hp⟩ <;> simp [adoptedOf, State.finish, Phase.holds, hp]
  | handOff | handOffLost | dropSenders | tick | output | hangup | exit | readBlock =>
    exact ⟨[], by simp [adoptedOf], by simp⟩
  | openpty hp | openptyErr hp | firstFrame hp | spawn hp | spawnErr hp | exitIdle hp | read hp
  | eof hp | readErr hp | exitRelay hp | write hp | writeBlock hp | writeErr hp | pongSent hp
  | dataSent hp | dataFailed hp | exitSent hp =>
    exact ⟨[], by simp [adoptedOf, hp, Phase.holds, State.finish, State.onSpawn, State.shellExited],
      by simp [hp, Phase.holds, State.finish, State.onSpawn, State.shellExited]⟩

/-- **Clients take turns.**  The task works on one connection at a time, in the order in which they
were taken from the channel, and the one whose turn it is is that of the current client. -/
theorem inTurn_acts (hr : lts.Run .init tr s) : ∃ clients,
    adopted tr = clients ++ s.phase.holds.tail ∧ InTurn clients (acts tr) ∧
      ∀ c, s.phase.holds.head? = some c → clients.getLast? = some c := by
  induction hr with
  | refl => exact ⟨[], rfl, .nil, by simp [State.init, Phase.holds]⟩
  | @tail tr s s' e _ hst ih =>
    obtain ⟨clients, ha, ht, hc⟩ := ih
    obtain ⟨more, hm, hc'⟩ := clients_step (step_cases hst)
    have hlog : InTurn clients (acts (tr ++ [⟨s, e, s'⟩])) := by
      have he : acts (tr ++ [⟨s, e, s'⟩]) = acts tr ++ actsOf ⟨s, e, s'⟩ := by simp [acts]
      rw [he]
      rcases actsOf_cases ⟨s, e, s'⟩ with ⟨h₀, -⟩ | ⟨c, a, h₁, -, hcur⟩
      · rw [h₀, List.append_nil]
        exact ht
      · rw [h₁]
        exact ht.entry_of_getLast? (hc c hcur) a
    refine ⟨clients ++ more, ?_, hlog.turns more, ?_⟩
    · rw [adopted_append_single, ha, List.append_assoc, hm, List.append_assoc]
    · intro c hcur
      rw [List.getLast?_append]
      rcases hc' c hcur with hl | ⟨rfl, hold⟩
      · rw [hl]
        rfl
      · exact hc c hold

/-- What the task does on connections it does on those pushed onto its channel. -/
theorem mem_handed_of_acts (hr : lts.Run .init tr s) {p : Conn × Act} (hp : p ∈ acts tr) :
    p.1 ∈ handed tr := by
  obtain ⟨clients, ha, ht, -⟩ := inTurn_acts hr
  have hc : p.1 ∈ adopted tr := ha ▸ List.mem_append_left _ (ht.mem_owners hp)
  exact (adopted_append_queue_le hr).1.subset (List.mem_append_left _ hc)

theorem entriesOf_framesOf (m : Move State Event) :
    entriesOf c (framesOf m) = (entriesOf c (actsOf m)).filterMap Act.written? := by
  rcases actsOf_cases m with ⟨ha, hf⟩ | ⟨d, a, ha, hf, -⟩
  · simp [ha, hf]
  · rw [ha, hf]
    by_cases hd : d = c
    · subst hd
      cases hw : a.written? <;> simp [hw]
    · rw [entriesOf_of_ne hd]
      cases a.written? <;> simp [entriesOf_of_ne hd]

/-- The frames written to a connection. -/
theorem sentTo_eq_acts (hr : lts.Run .init tr s) (c : Conn) :
    s.sentTo c = (entriesOf c (acts tr)).filterMap Act.written? := by
  have hs : s.sentTo c = entriesOf c (tr.flatMap framesOf) := by rw [← sent_eq_frames hr]; rfl
  rw [hs, acts, entriesOf_flatMap, entriesOf_flatMap, List.filterMap_flatMap]
  exact List.flatMap_congr fun m _ => entriesOf_framesOf m

theorem pingOf_le_acts (c : Conn) (m : Move State Event) :
    pingOf c m ≤ ((entriesOf c (actsOf m)).filterMap Act.read?).count .ping := by
  unfold pingOf
  split
  · next hl =>
    by_cases hp : m.src.phase = .relay c
    · have ha : actsOf m = [(c, .read .ping)] := by rw [actsOf, hp, hl]
      rw [if_pos hp]
      simp [ha, Act.read?]
    · rw [if_neg hp]
      exact Nat.zero_le _
  · exact Nat.zero_le _

/-- The `Ping`s taken are among the frames read. -/
theorem pings_le_acts (c : Conn) (tr : List (Move State Event)) :
    pings c tr ≤ ((entriesOf c (acts tr)).filterMap Act.read?).count .ping := by
  induction tr with
  | nil => exact Nat.le_refl _
  | cons m tr ih =>
    have hp : pings c (m :: tr) = pingOf c m + pings c tr := by simp [pings]
    have ha : acts (m :: tr) = actsOf m ++ acts tr := rfl
    rw [hp, ha, entriesOf_append, List.filterMap_append, List.count_append]
    exact Nat.add_le_add (pingOf_le_acts c m) ih

end Server

end Gritty
