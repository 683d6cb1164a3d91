import Gritty.Daemon.Rows
import Gritty.Daemon.Tasks
import Gritty.Registry.Basic

/-!
# The daemon as a registry

What the daemon answers is what a registry of named sessions answers.  The labels of a registry are
read off the requests and the replies (`Tells`): each request that is answered tells what it asked
and what came of it, and which sessions left the table before the answer.  The table is related to a
registry by `Keeps`, where the number of a session is the number of its task, and each move of the
daemon is then a path of the registry, so the laws of a registry are laws of the daemon.

## Main definitions

* `Tells` : the labels that a request and the reply to it stand for.
* `observed` : the labels of a move.
* `Keeps` : the table as a registry.

## Main results

* `tells_of_serve` : what is observed of a request is what it and its reply tell.
* `answer_of_request` : a request that is read is answered at once.
* `refines` : the daemon refines a registry.
* `registry` : the labels of a run are a path of the registry, and no request is left without one.
* `listed_iff` : a listing is determined by the answers before it.
* `gone_for_good` : a session that is gone is never led to again.
-/

namespace Gritty

namespace Daemon

open Registry (Label)

/-- The numeral of a number. -/
def numeral (target : String) : Option ℕ := (Text.parseU32 target).map UInt32.toNat

/-- The sessions that left the table, by the numbers of their tasks. -/
def forgotten (sessions sessions' : Sessions) : List TaskId :=
  (sessions.entries.filter fun e => e.1 ∉ sessions').map fun e => e.2.handle

/-- The session that a row of a listing shows. -/
def rowOf (row : SessionEntry) : ℕ × Option String := ((sortKey row).toNat, nameOpt row.name)

/-- What a reply says. -/
def replied (frame reply : Frame) (next : Next) : List (Label String) :=
  match frame, reply, next with
  | .newSession name, .sessionCreated _, .handOff k => [.start (nameOpt name) k]
  | .newSession name, .error _, _ => [.taken name]
  | .attach target, .ok, .handOff k => [.attach target k]
  | .killSession target, .error _, _ => [.missing target]
  | .listSessions, .sessionInfo rows, _ => [.list (rows.map rowOf)]
  | _, _, _ => []

/-- `Attach` was refused: there is no session, or it has just ended. -/
def missed (target : String) : List TaskId → List (Label String)
  | [] => [.missing target]
  | ks => ks.map (.ended target)

/-- What serving a request says: who left the table, and the reply.  `NewSession` does not reap.
`Attach` and `KillSession` reap before they take out the session that they find. -/
def served (s s' : State) (frame reply : Frame) (next : Next) : List (Label String) :=
  match frame, reply with
  | .newSession _, _ => replied frame reply next
  | .attach target, .error _ =>
    .forget (forgotten s.sessions s.reap.sessions) ::
      missed target (forgotten s.reap.sessions s'.sessions)
  | .killSession target, .ok =>
    .forget (forgotten s.sessions s.reap.sessions) ::
      (forgotten s.reap.sessions s'.sessions).map (.kill target)
  | _, _ => .forget (forgotten s.sessions s'.sessions) :: replied frame reply next

/-- What a request and its answer say as labels of a registry, where `next` is what the daemon does
with the connection then.  The sessions of `gone` are forgotten before the answer is made out. -/
inductive Tells : Frame → Frame → Next → List (Label String) → Prop
  | started {name k} : Tells (.newSession name) (.sessionCreated (toString (UInt32.ofNat k)))
      (.handOff k) [.start (nameOpt name) k]
  | taken {name} : Tells (.newSession name) (.error ("session name already exists: " ++ name)) .again
      [.taken name]
  | attached {session gone k} : Tells (.attach session) .ok (.handOff k)
      [.forget gone, .attach session k]
  | missing {session gone} : Tells (.attach session) (noSuchSession session) .again
      [.forget gone, .missing session]
  | ended {session gone k} : Tells (.attach session) (noSuchSession session) .again
      [.forget gone, .ended session k]
  | listed {gone rows} : Tells .listSessions (.sessionInfo rows) .again
      [.forget gone, .list (rows.map rowOf)]
  | killed {session gone k} : Tells (.killSession session) .ok .again
      [.forget gone, .kill session k]
  | noSession {session gone} : Tells (.killSession session) (noSuchSession session) .again
      [.forget gone, .missing session]
  | shutdown {gone} : Tells .killServer .ok .quit [.forget gone]
  /-- a frame that is no request changes nothing -/
  | unexpected {frame} : ¬ IsRequest frame →
      Tells frame (.error "unexpected frame type") .again [.forget []]

/-- What is observed of a move. -/
def observed (m : Move State Event) : List (Label String) :=
  match m.lbl with
  | .reap | .acceptErr | .signal => [.forget (forgotten m.src.sessions m.dst.sessions)]
  | .request (some (.ok frame)) =>
    match m.dst.control with
    | .replying _ reply next => served m.src m.dst frame reply next
    | _ => []
  | _ => []

/-- The registry has the sessions of the table. -/
structure Keeps (s : State) (r : Registry String) : Prop where
  started : r.started = s.issued.length
  live : ∀ k name, r.live k = some name ↔ ∃ id, s.sessions.lookup id = some ⟨k, name⟩

variable {s s' : State} {e : Event} {tr : List (Move State Event)} {r : Registry String}
  {target : String} {framed : Conn} {k : TaskId} {frame reply : Frame} {next : Next}

theorem keeps_init : Keeps .init .empty where
  started := rfl
  live := by simp [Registry.empty, State.init]

theorem Keeps.congr (hk : Keeps s r) (hi : s'.issued = s.issued) (hs : s'.sessions = s.sessions) :
    Keeps s' r :=
  ⟨hk.started.trans (congrArg List.length hi).symm, hs ▸ hk.live⟩

/-! ### Who leaves the table -/

theorem mem_forgotten {sessions sessions' : Sessions} : k ∈ forgotten sessions sessions' ↔
    ∃ id name, sessions.lookup id = some ⟨k, name⟩ ∧ id ∉ sessions' := by
  simp only [forgotten, List.mem_map, List.mem_filter, decide_eq_true_eq]
  constructor
  · rintro ⟨⟨id, k, name⟩, ⟨he, hno⟩, rfl⟩
    exact ⟨id, name, Table.lookup_eq_some_iff.2 he, hno⟩
  · rintro ⟨id, name, hl, hno⟩
    exact ⟨⟨id, k, name⟩, ⟨Table.lookup_eq_some_iff.1 hl, hno⟩, rfl⟩

theorem forgotten_erase {sessions : Sessions} {id : UInt32} {state : SessionState}
    (hl : sessions.lookup id = some state) :
    forgotten sessions (sessions.erase id) = [state.handle] := by
  have hone : (sessions.entries.filter fun e => e.1 ∉ sessions.erase id) = [⟨id, state⟩] := by
    refine List.perm_singleton.1 ((List.perm_ext_iff_of_nodup ?_ (List.nodup_singleton _)).2 ?_)
    · exact sessions.nodupKeys.nodup.filter _
    · rintro ⟨id', state'⟩
      rw [List.mem_filter, ← Table.lookup_eq_some_iff, decide_eq_true_eq, AList.mem_erase,
        List.mem_singleton]
      constructor
      · rintro ⟨hl', hno⟩
        have hid : id' = id := by
          by_contra hne
          exact hno ⟨hne, Table.mem_of_lookup hl'⟩
        subst hid
        obtain rfl := Option.some.inj (hl.symm.trans hl')
        rfl
      · rintro ⟨⟩
        exact ⟨hl, fun h => h.1 rfl⟩
  rw [forgotten, hone]
  rfl

/-- **Sessions leave the table**, and the registry forgets them. -/
theorem Keeps.forget (hk : Keeps s r) (hi : TableInv s) (h : Shrinks s s') :
    (Registry.lts numeral).step r (.forget (forgotten s.sessions s'.sessions))
      (r.drop (forgotten s.sessions s'.sessions)) ∧
    Keeps s' (r.drop (forgotten s.sessions s'.sessions)) := by
  refine ⟨.forget fun k hk' => ?_, ?_, fun k name => ?_⟩
  · obtain ⟨id, name, hl, -⟩ := mem_forgotten.1 hk'
    exact ⟨name, (hk.live k name).2 ⟨id, hl⟩⟩
  · rw [h.issued]
    exact hk.started
  · rw [Registry.live_drop, hk.live]
    constructor
    · rintro ⟨hno, id, hl⟩
      have hmem : id ∈ s'.sessions := by
        by_contra hmem
        exact hno (mem_forgotten.2 ⟨id, name, hl, hmem⟩)
      obtain ⟨state, hl'⟩ := Table.exists_lookup_of_mem hmem
      obtain rfl := Option.some.inj (hl.symm.trans (h.lookup _ _ hl'))
      exact ⟨id, hl'⟩
    · rintro ⟨id, hl'⟩
      refine ⟨fun hgone => ?_, id, h.lookup _ _ hl'⟩
      obtain ⟨id', name', hl, hno⟩ := mem_forgotten.1 hgone
      -- a task runs one session
      have hid : s.issued[k]? = some id := hi.handle _ _ (h.lookup _ _ hl')
      have hid' : s.issued[k]? = some id' := hi.handle _ _ hl
      obtain rfl := Option.some.inj (hid'.symm.trans hid)
      exact hno (Table.mem_of_lookup hl')

/-! ### Who answers -/

theorem Keeps.named_iff (hk : Keeps s r) {n : String} : r.Named n ↔ Named s.sessions n := by
  constructor
  · rintro ⟨k, h⟩
    obtain ⟨id, hl⟩ := (hk.live k _).1 h
    exact ⟨id, _, hl, rfl⟩
  · rintro ⟨id, ⟨k, name⟩, hl, rfl⟩
    exact ⟨k, (hk.live k _).2 ⟨id, hl⟩⟩

theorem Keeps.answers_iff (hk : Keeps s r) (hi : TableInv s) (hn : s.issued.length < 2 ^ 32) :
    Registry.Answers numeral r target k ↔
      ∃ id name, s.sessions.lookup id = some ⟨k, name⟩ ∧ Answers s.sessions target id := by
  have hnum : ∀ {id name}, s.sessions.lookup id = some ⟨k, name⟩ → id.toNat = k := fun hl =>
    hi.toNat_issued hn (hi.handle _ _ hl)
  constructor
  · rintro (h | ⟨hno, hparse, name, h⟩)
    · obtain ⟨id, hl⟩ := (hk.live k _).1 h
      exact ⟨id, _, hl, .inl ⟨_, hl, rfl⟩⟩
    · obtain ⟨id, hl⟩ := (hk.live k _).1 h
      obtain ⟨id', hparse', hid'⟩ := Option.map_eq_some_iff.1 hparse
      obtain rfl : id' = id := UInt32.toNat_inj.1 (hid'.trans (hnum hl).symm)
      exact ⟨id', name, hl, .inr ⟨fun h => hno (hk.named_iff.2 h), hparse', Table.mem_of_lookup hl⟩⟩
  · rintro ⟨id, name, hl, ⟨state, hl', hname⟩ | ⟨hno, hparse, -⟩⟩
    · obtain rfl := Option.some.inj (hl.symm.trans hl')
      obtain rfl : name = some target := hname
      exact .inl ((hk.live k _).2 ⟨id, hl⟩)
    · refine .inr ⟨fun h => hno (hk.named_iff.1 h), ?_, name, (hk.live k _).2 ⟨id, hl⟩⟩
      rw [numeral, hparse, Option.map_some, hnum hl]

theorem Keeps.answers_of_resolve (hk : Keeps s r) (hi : TableInv s)
    (hn : s.issued.length < 2 ^ 32) {id : UInt32} {state : SessionState}
    (hr : resolveSession s.sessions target = some id) (hl : s.sessions.lookup id = some state) :
    Registry.Answers numeral r target state.handle :=
  (hk.answers_iff hi hn).2 ⟨id, state.name, hl, (resolveSession_eq_some_iff hi.distinct).1 hr⟩

theorem Keeps.missing_of_resolve (hk : Keeps s r) (hi : TableInv s)
    (hn : s.issued.length < 2 ^ 32) (hr : resolveSession s.sessions target = none) :
    ∀ k, ¬ Registry.Answers numeral r target k := by
  intro k h
  obtain ⟨id, name, -, hans⟩ := (hk.answers_iff hi hn).1 h
  simp [(resolveSession_eq_some_iff hi.distinct).2 hans] at hr

/-! ### The moves -/

/-- A created session gets the next number. -/
theorem Keeps.start (hk : Keeps s r) (hi : TableInv s) (hn : s.issued.length < 2 ^ 32)
    {name : Option String} : Keeps (s.create framed name) (r.start name) := by
  constructor
  · show r.started + 1 = (s.issued ++ [s.nextId]).length
    rw [hk.started, List.length_append, List.length_singleton]
  · intro k name'
    rw [Registry.live_start, hk.live, hk.started]
    constructor
    · rintro (⟨rfl, rfl⟩ | ⟨-, id, hl⟩)
      · exact ⟨s.nextId, lookup_create.2 (.inl ⟨rfl, rfl⟩)⟩
      · have hlt : id < s.nextId := hi.lt_nextId hn (Table.mem_of_lookup hl)
        exact ⟨id, lookup_create.2 (.inr ⟨UInt32.ne_of_lt hlt, hl⟩)⟩
    · rintro ⟨id, hl⟩
      rcases lookup_create.1 hl with ⟨-, ⟨⟩⟩ | ⟨-, hl⟩
      · exact .inl ⟨rfl, rfl⟩
      · have hlt := (List.getElem?_eq_some_iff.1 (hi.handle _ _ hl)).1
        exact .inr ⟨Nat.ne_of_lt hlt, id, hl⟩

theorem nameOpt_getD {name : Option String} (h : name ≠ some "") :
    nameOpt (name.getD "") = name := by
  cases name with
  | none => rfl
  | some n => exact nameOpt_eq_some_iff.2 ⟨fun hn => h (congrArg some hn), rfl⟩

theorem mem_rowOf (hi : TableInv s) (hn : s.issued.length < 2 ^ 32) {name : Option String} :
    (k, name) ∈ (buildSessionEntries s.tasks s.sessions).map rowOf ↔
      ∃ id, s.sessions.lookup id = some ⟨k, name⟩ := by
  have hrow : ∀ {id state}, s.sessions.lookup id = some state →
      rowOf (sessionEntry s.tasks id state) = (state.handle, state.name) := by
    intro id state hl
    rw [rowOf, sortKey_sessionEntry, sessionEntry_name, hi.toNat_issued hn (hi.handle _ _ hl),
      nameOpt_getD (hi.nonempty _ _ hl)]
  rw [List.mem_map]
  constructor
  · rintro ⟨row, hmem, hkn⟩
    obtain ⟨id, state, hl, rfl⟩ := mem_buildSessionEntries.1 hmem
    rw [hrow hl] at hkn
    cases hkn
    exact ⟨id, hl⟩
  · rintro ⟨id, hl⟩
    exact ⟨_, mem_buildSessionEntries.2 ⟨id, _, hl, rfl⟩, hrow hl⟩

/-- A listing shows the registry. -/
theorem Keeps.rows (hk : Keeps s r) (hi : TableInv s) (hn : s.issued.length < 2 ^ 32) :
    (buildSessionEntries s.tasks s.sessions).map rowOf = r.rows := by
  have hsorted : ((buildSessionEntries s.tasks s.sessions).map rowOf).Pairwise
      fun p q => p.1 < q.1 := by
    rw [List.pairwise_map]
    exact (List.pairwise_map.1 pairwise_sortKey).imp fun h => UInt32.lt_iff_toNat_lt.1 h
  have : Std.Irrefl fun p q : ℕ × Option String => p.1 < q.1 := ⟨fun _ => Nat.lt_irrefl _⟩
  refine hsorted.eq_of_mem_iff Registry.pairwise_rows ?_
  rintro ⟨k, name⟩
  rw [Registry.mem_rows, mem_rowOf hi hn, hk.live, hk.started]
  refine ⟨?_, fun h => h.2⟩
  rintro ⟨id, hl⟩
  exact ⟨(List.getElem?_eq_some_iff.1 (hi.handle _ _ hl)).1, id, hl⟩

/-- A session that is found is taken out. -/
theorem Keeps.erase (hk : Keeps s r) (hi : TableInv s) {id : UInt32} {state : SessionState}
    (hl : s.sessions.lookup id = some state) :
    Keeps { s with sessions := s.sessions.erase id } (r.drop [state.handle]) := by
  have hs : Shrinks s { s with sessions := s.sessions.erase id } := shrinks_erase
  have h := (hk.forget hi hs).2
  rw [forgotten_erase hl] at h
  exact h

/-- The finished sessions leave the table, and something is answered. -/
theorem Keeps.answer {l : Label String} (hk : Keeps s r) (hi : TableInv s)
    (h : ∀ r₁, Keeps s.reap r₁ → ∃ r', Registry.Step numeral r₁ l r' ∧ Keeps s' r') :
    ∃ r', (Registry.lts numeral).Path r [.forget (forgotten s.sessions s.reap.sessions), l] r' ∧
      Keeps s' r' := by
  obtain ⟨hforget, hk₁⟩ := hk.forget hi shrinks_reap
  obtain ⟨r', hst, hk'⟩ := h _ hk₁
  exact ⟨r', (LTS.Path.single hforget).tail hst, hk'⟩

theorem forgotten_self {sessions : Sessions} : forgotten sessions sessions = [] := by
  rw [List.eq_nil_iff_forall_not_mem]
  intro k hk
  obtain ⟨id, name, hl, hno⟩ := mem_forgotten.1 hk
  exact hno (Table.mem_of_lookup hl)

/-- **What is observed is what the reply says.** -/
theorem tells_of_serve (hi : TableInv s) (h : Serve s framed frame s')
    (hc : s'.control = .replying framed reply next) :
    Tells frame reply next (served s s' frame reply next) := by
  cases h with
  | duplicate =>
    cases hc
    exact .taken
  | created =>
    cases hc
    rw [hi.nextId]
    exact .started
  | @attachNone session =>
    cases hc
    show Tells _ _ _ (.forget _ :: missed session (forgotten s.reap.sessions s.reap.sessions))
    rw [forgotten_self]
    exact .missing
  | @attachClosed session id state hr hl =>
    cases hc
    show Tells _ _ _
      (.forget _ :: missed session (forgotten s.reap.sessions (s.reap.sessions.erase id)))
    rw [forgotten_erase hl]
    exact .ended
  | attached =>
    cases hc
    exact .attached
  | listed =>
    cases hc
    exact .listed
  | killNone =>
    cases hc
    exact .noSession
  | @killed session id state hr hl =>
    cases hc
    show Tells _ _ _
      (.forget _ :: (forgotten s.reap.sessions (s.reap.sessions.erase id)).map (.kill session))
    rw [forgotten_erase hl]
    exact .killed
  | shutdown =>
    cases hc
    exact .shutdown
  | unexpected hno =>
    cases hc
    have hobs : served s (s.reply framed (.error "unexpected frame type") .again) frame
        (.error "unexpected frame type") .again = [.forget (forgotten s.sessions s.sessions)] := by
      cases frame with
      | newSession | attach | listSessions | killSession | killServer => exact absurd trivial hno
      | _ => rfl
    rw [hobs, forgotten_self]
    exact .unexpected hno

theorem keeps_serve (hk : Keeps s r) (hi : TableInv s)
    (hn : s'.issued.length < 2 ^ 32) (h : Serve s framed frame s') :
    ∃ r', (Registry.lts numeral).Path r (observed ⟨s, .request (some (.ok frame)), s'⟩) r' ∧
      Keeps s' r' := by
  have hreap : TableInv s.reap := hi.of_shrinks shrinks_reap
  cases h with
  | @duplicate name hne hnamed =>
    exact ⟨r, .single (.taken (hk.named_iff.2 hnamed)), hk.congr rfl rfl⟩
  | @created name hnew =>
    have hlen : s.issued.length < 2 ^ 32 := by
      have hlt : (s.issued ++ [s.nextId]).length < 2 ^ 32 := hn
      rw [List.length_append] at hlt
      omega
    have hlabel : Registry.Step numeral r (.start (nameOpt name) r.started)
        (r.start (nameOpt name)) := by
      refine .start fun n hn hnamed => ?_
      obtain ⟨hne, rfl⟩ := nameOpt_eq_some_iff.1 hn
      exact hnew hne (hk.named_iff.1 hnamed)
    rw [hk.started] at hlabel
    exact ⟨_, .single hlabel, hk.start hi hlen⟩
  | @attachNone session hr =>
    show ∃ r', (Registry.lts numeral).Path r (.forget (forgotten s.sessions s.reap.sessions) ::
      missed session (forgotten s.reap.sessions s.reap.sessions)) r' ∧ _
    rw [forgotten_self]
    exact hk.answer hi fun r₁ hk₁ => ⟨r₁, .missing (hk₁.missing_of_resolve hreap hn hr),
      hk₁.congr rfl rfl⟩
  | @attachClosed session id state hr hl =>
    show ∃ r', (Registry.lts numeral).Path r (.forget (forgotten s.sessions s.reap.sessions) ::
      missed session (forgotten s.reap.sessions (s.reap.sessions.erase id))) r' ∧ _
    rw [forgotten_erase hl]
    exact hk.answer hi fun r₁ hk₁ => ⟨_, .ended (hk₁.answers_of_resolve hreap hn hr hl),
      (hk₁.erase hreap hl).congr rfl rfl⟩
  | attached hr hl =>
    exact hk.answer hi fun r₁ hk₁ => ⟨r₁, .attach (hk₁.answers_of_resolve hreap hn hr hl),
      hk₁.congr rfl rfl⟩
  | listed =>
    refine hk.answer hi fun r₁ hk₁ => ⟨r₁, ?_, hk₁.congr rfl rfl⟩
    rw [hk₁.rows hreap hn]
    exact .list
  | killNone hr =>
    exact hk.answer hi fun r₁ hk₁ => ⟨r₁, .missing (hk₁.missing_of_resolve hreap hn hr),
      hk₁.congr rfl rfl⟩
  | @killed session id state hr hl =>
    show ∃ r', (Registry.lts numeral).Path r (.forget (forgotten s.sessions s.reap.sessions) ::
      (forgotten s.reap.sessions (s.reap.sessions.erase id)).map (.kill session)) r' ∧ _
    rw [forgotten_erase hl]
    exact hk.answer hi fun r₁ hk₁ => ⟨_, .kill (hk₁.answers_of_resolve hreap hn hr hl),
      (hk₁.erase hreap hl).congr rfl rfl⟩
  | shutdown =>
    have hshrinks : Shrinks s s.shutdown := shrinks_empty.congr rfl rfl rfl
    obtain ⟨hforget, hk₁⟩ := hk.forget hi hshrinks
    exact ⟨_, .single hforget, hk₁.congr rfl rfl⟩
  | unexpected hno =>
    obtain ⟨hforget, hk₁⟩ := hk.forget hi (.of_eq rfl rfl rfl : Shrinks s s)
    refine ⟨_, ?_, hk₁.congr rfl rfl⟩
    cases frame with
    | newSession | attach | listSessions | killSession | killServer => exact absurd trivial hno
    | _ => exact .single hforget

/-- **The daemon refines a registry.** -/
theorem refines : lts.Refines (Registry.lts numeral) observed
    (fun m => m.dst.issued.length < 2 ^ 32) fun s r => TableInv s ∧ Keeps s r := by
  rintro s e s' r ⟨hi, hk⟩ hn hst
  have hstep := step_cases hst
  suffices h : ∃ r', (Registry.lts numeral).Path r (observed ⟨s, e, s'⟩) r' ∧ Keeps s' r' by
    obtain ⟨r', hpath, hk'⟩ := h
    exact ⟨r', hpath, hi.step hstep, hk'⟩
  have hforget : Shrinks s s' → observed ⟨s, e, s'⟩ = [.forget (forgotten s.sessions s'.sessions)] →
      ∃ r', (Registry.lts numeral).Path r (observed ⟨s, e, s'⟩) r' ∧ Keeps s' r' := by
    intro hsh hobs
    obtain ⟨hlabel, hk'⟩ := hk.forget hi hsh
    exact ⟨_, hobs ▸ .single hlabel, hk'⟩
  cases hstep with
  | task | finish | connect | accept | refuse => exact ⟨r, .refl, hk.congr rfl rfl⟩
  | @noRequest framed next hc hno =>
    refine ⟨r, ?_, hk.congr rfl rfl⟩
    rcases next with _ | _ | frame
    · exact .refl
    · exact .refl
    · exact absurd rfl (hno frame)
  | rehash hp =>
    refine ⟨r, .refl, hk.started, fun k name => (hk.live k name).trans ?_⟩
    exact exists_congr fun id => by rw [AList.perm_lookup hp]
  | reap => exact hforget (shrinks_reap.congr rfl rfl rfl) rfl
  | acceptErr => exact hforget (shrinks_empty.congr rfl rfl rfl) rfl
  | signal => exact hforget (shrinks_empty.congr rfl rfl rfl) rfl
  | request hc hs => exact keeps_serve hk hi hn hs
  | @replied framed reply next ok hc =>
    cases next <;> exact ⟨r, .refl, hk.congr rfl rfl⟩

/-! ### The laws of the registry -/

/-- The daemon stops. -/
inductive Stops : Event → Prop
  | acceptErr : Stops .acceptErr
  | signal : Stops .signal
  | killServer : Stops (.request (some (.ok .killServer)))

theorem finished_of_forgotten (h : k ∈ forgotten s.sessions s.reap.sessions) :
    (s.tasks k).isFinished = true := by
  obtain ⟨id, name, hl, hno⟩ := mem_forgotten.1 h
  by_contra hf
  exact hno (Table.mem_of_lookup (lookup_reap.2 ⟨hl, Bool.eq_false_iff.2 hf⟩))

theorem forget_notMem_missed {ks l : List TaskId} : .forget ks ∉ missed target l := by
  cases l <;> simp [missed]

theorem finished_of_forget {ks : List TaskId} (h : Step s e s')
    (hks : .forget ks ∈ observed ⟨s, e, s'⟩) (hk : k ∈ ks) :
    (s.tasks k).isFinished = true ∨ Stops e := by
  have hreap : ∀ {ls : List (Label String)}, (∀ ks, .forget ks ∉ ls) →
      .forget ks ∈ .forget (forgotten s.sessions s.reap.sessions) :: ls →
      (s.tasks k).isFinished = true ∨ Stops e := by
    intro ls hno hks
    rcases List.mem_cons.1 hks with heq | hks
    · cases heq
      exact .inl (finished_of_forgotten hk)
    · exact absurd hks (hno ks)
  cases h with
  | task | finish | connect | accept | refuse | rehash | replied => cases hks
  | acceptErr => exact .inr .acceptErr
  | signal => exact .inr .signal
  | reap => exact hreap (by simp) hks
  | @noRequest framed next hc hno =>
    rcases next with _ | _ | frame
    · cases hks
    · cases hks
    · exact absurd rfl (hno frame)
  | @request framed frame s' hc hs =>
    cases hs with
    | duplicate => exact absurd (List.mem_singleton.1 hks) (by simp)
    | created => exact absurd (List.mem_singleton.1 hks) (by simp)
    | attached | listed | killNone => exact hreap (by simp [replied, noSuchSession]) hks
    | attachNone | attachClosed => exact hreap (fun _ => forget_notMem_missed) hks
    | killed => exact hreap (by simp) hks
    | shutdown => exact .inr .killServer
    | unexpected hno =>
      obtain rfl : ks = [] := by
        cases frame with
        | newSession | attach | listSessions | killSession | killServer => exact absurd trivial hno
        | _ =>
          have h := List.mem_singleton.1 hks
          rw [State.reply, forgotten_self] at h
          exact (Label.forget.inj h)
      cases hk

/-- A run that creates fewer than `2 ^ 32` sessions is a path of the registry. -/
theorem exists_path (hr : lts.Run .init tr s) (hn : s.issued.length < 2 ^ 32) :
    ∃ r, (Registry.lts numeral).Path .empty (tr.flatMap observed) r ∧ Keeps s r := by
  have hlt : ∀ m ∈ tr, m.dst.issued.length < 2 ^ 32 := fun m hm =>
    (hr.le_of_mem (f := fun s => s.issued.length)
      (fun _ _ _ hst => issued_length_le (step_cases hst)) hm).trans_lt hn
  obtain ⟨r, hpath, -, hk⟩ := refines.run hr ⟨.init, keeps_init⟩ hlt
  exact ⟨r, hpath, hk⟩

/-- A request that is read is answered at once. -/
theorem answer_of_request (hi : TableInv s) (h : Step s (.request (some (.ok frame))) s') :
    ∃ framed reply next, s.control = .reading framed ∧ s'.control = .replying framed reply next ∧
      Tells frame reply next (observed ⟨s, .request (some (.ok frame)), s'⟩) ∧
      (next = .quit → s'.sessions = ∅) := by
  cases h with
  | noRequest hc hno => exact absurd rfl (hno frame)
  | @request framed _ _ hc hs =>
    obtain ⟨⟨reply, next, hreply⟩, -⟩ := serve_logs hs
    refine ⟨framed, reply, next, hc, hreply, ?_, fun hquit => ?_⟩
    · have hobs : observed ⟨s, .request (some (.ok frame)), s'⟩ =
          served s s' frame reply next := by rw [observed, hreply]
      exact hobs ▸ tells_of_serve hi hs hreply
    · subst hquit
      cases hs with
      | shutdown => rfl
      | _ => cases hreply

/-- **The daemon is a registry.**  In every run that creates fewer than `2 ^ 32` sessions, the
labels of the moves are a path of the registry of named sessions, and the table holds the sessions
that this registry is left with.  Every request is answered, and the labels of the move that serves
it are what the request and its reply say: so each answer is right for the registry as the answers
before have left it.  The daemon forgets finished sessions only, until it stops. -/
theorem registry (hr : lts.Run .init tr s) (hn : s.issued.length < 2 ^ 32) :
    (∃ r, (Registry.lts numeral).Path .empty (tr.flatMap observed) r ∧ Keeps s r) ∧
      (∀ m ∈ tr, ∀ frame, m.lbl = .request (some (.ok frame)) →
        ∃ framed reply next, m.src.control = .reading framed ∧
          m.dst.control = .replying framed reply next ∧ Tells frame reply next (observed m) ∧
          (next = .quit → m.dst.sessions = ∅)) ∧
      ∀ m ∈ tr, ∀ ks, .forget ks ∈ observed m → ∀ k ∈ ks,
        (m.src.tasks k).isFinished = true ∨ Stops m.lbl := by
  refine ⟨exists_path hr hn, fun m hm frame hl => ?_, fun m hm ks hks k hk =>
    finished_of_forget (step_cases (hr.move hm).1) hks hk⟩
  obtain ⟨tr₁, tr₂, rfl⟩ := List.append_of_mem hm
  obtain ⟨hr₁, hst, -⟩ := hr.cut_at
  obtain ⟨src, e, dst⟩ := m
  obtain rfl : e = .request (some (.ok frame)) := hl
  exact answer_of_request (.of_reachable hr₁.reachable) (step_cases hst)

/-- Two sessions are created and one is killed; then a listing is asked for. -/
def askEvents : List Event := tableEvents ++ [.connect, .reap, .accept true]

/-- What was observed before the listing. -/
def askLabels : List (Label String) :=
  [.forget [], .start (some "work") 0, .forget [], .start none 1, .forget [], .forget [],
    .kill "work" 0, .forget []]

theorem registry_killed :
    ∃ s r, LTS.exec step .init askEvents = some s ∧
      (Registry.lts numeral).Path .empty askLabels r ∧ Keeps s r := by
  have h : ∃ s, LTS.exec step .init askEvents = some s ∧ s.issued.length < 2 ^ 32 :=
    ⟨_, rfl, by decide⟩
  obtain ⟨s, h, hn⟩ := h
  obtain ⟨⟨r, hpath, hk⟩, -⟩ := registry (LTS.run_of_exec h) hn
  exact ⟨s, r, h, hpath, hk⟩

variable {tr₁ tr₂ : List (Move State Event)} {m : Move State Event} {l : Label String}

/-- **A listing is determined by the answers before it.**  In every run that creates fewer than
`2 ^ 32` sessions, `ListSessions` is answered with the rows, in the order of the ids, of the
sessions that were created before, that no answer took out since, and that are not finished. -/
theorem listed_iff (hr : lts.Run .init (tr₁ ++ m :: tr₂) s) (hn : s.issued.length < 2 ^ 32)
    (hl : m.lbl = .request (some (.ok .listSessions))) :
    ∃ framed rows, m.dst.control = .replying framed (.sessionInfo rows) .again ∧
      (rows.map sortKey).Pairwise (· < ·) ∧
      ∀ k name, (k, name) ∈ rows.map rowOf ↔ .start name k ∈ tr₁.flatMap observed ∧
        (∀ l ∈ tr₁.flatMap observed, ¬ l.Removes k) ∧ (m.src.tasks k).isFinished = false := by
  obtain ⟨src, e, dst⟩ := m
  obtain rfl : e = .request (some (.ok .listSessions)) := hl
  obtain ⟨hrun, hst, hafter⟩ := hr.cut_at
  have hstep : Step src (.request (some (.ok .listSessions))) dst := step_cases hst
  have hlen : src.issued.length < 2 ^ 32 :=
    ((issued_length_le hstep).trans (hr.le_of_mem (f := fun s => s.issued.length)
      (fun _ _ _ hst => issued_length_le (step_cases hst))
      (List.mem_append_right _ List.mem_cons_self))).trans_lt hn
  obtain ⟨r, hpath, hk⟩ := exists_path hrun hlen
  have hi : TableInv src := .of_reachable hrun.reachable
  cases hstep with
  | noRequest _ hno => exact absurd rfl (hno _)
  | @request framed _ _ hc hs =>
    cases hs with
    | unexpected hno => exact absurd trivial hno
    | listed =>
      refine ⟨framed, _, rfl, pairwise_sortKey, fun k name => ?_⟩
      have hreap : TableInv src.reap := hi.of_shrinks shrinks_reap
      rw [← and_assoc, ← Registry.live_iff hpath, hk.live]
      refine (mem_rowOf hreap hlen).trans ?_
      simp only [lookup_reap, exists_and_right]

/-- The session that was killed is not listed, the other one is. -/
theorem listed_iff_killed :
    ∃ s s' rows, LTS.exec step .init askEvents = some s ∧
      lts.step s (.request (some (.ok .listSessions))) s' ∧
      s'.control = .replying 3 (.sessionInfo rows) .again ∧
      (1, none) ∈ rows.map rowOf ∧ (0, some "work") ∉ rows.map rowOf := by
  have h : ∃ s s', LTS.exec step .init askEvents = some s ∧
      step s (.request (some (.ok .listSessions))) = some s' ∧ s'.issued.length < 2 ^ 32 ∧
      (s.tasks 1).isFinished = false ∧
      ∃ rows, s'.control = .replying 3 (.sessionInfo rows) .again :=
    ⟨_, _, rfl, rfl, by decide, rfl, _, rfl⟩
  obtain ⟨s, s', h, hst, hn, hf, rows₀, hc₀⟩ := h
  have hrun : lts.Run .init (LTS.trace step .init askEvents ++ ⟨s, _, s'⟩ :: []) s' :=
    (LTS.run_of_exec h).tail hst
  obtain ⟨framed, rows, hc, -, hrows⟩ := listed_iff hrun hn rfl
  obtain ⟨rfl, -, -⟩ := Control.replying.inj (hc.symm.trans hc₀)
  have hobs : (LTS.trace step .init askEvents).flatMap observed = askLabels := rfl
  rw [hobs] at hrows
  refine ⟨s, s', rows, h, hst, hc, (hrows _ _).2 ⟨?_, ?_, hf⟩, fun hmem => ?_⟩
  · simp [askLabels]
  · simp [askLabels, Label.Removes]
  · exact ((hrows _ _).1 hmem).2.1 (.kill "work" 0) (by simp [askLabels]) rfl

/-- **Who is gone stays gone.**  In every run that creates fewer than `2 ^ 32` sessions, once a
session was killed, forgotten or found ended, no request is led to it and no listing shows it,
whatever names are given to later sessions. -/
theorem gone_for_good (hr : lts.Run .init (tr₁ ++ m :: tr₂) s) (hn : s.issued.length < 2 ^ 32)
    (hl : l ∈ observed m) (hk : l.Removes k) :
    ∀ m' ∈ tr₂, ∀ l' ∈ observed m', ¬ l'.Mentions k := by
  obtain ⟨r, hpath, -⟩ := exists_path hr hn
  obtain ⟨before, after, hm⟩ := List.append_of_mem hl
  rw [List.flatMap_append, List.flatMap_cons, hm, List.append_assoc, List.cons_append,
    ← List.append_assoc] at hpath
  intro m' hm' l' hl'
  exact Registry.not_mentioned_of_removes hpath hk l'
    (List.mem_append_right _ (List.mem_flatMap.2 ⟨m', hm', hl'⟩))

/-- After the kill, the sessions are listed. -/
def afterEvents : List Event :=
  [.replied true, .connect, .reap, .accept true, .request (some (.ok .listSessions))]

theorem gone_for_good_killed :
    ∃ s₁ s₂ s₃, LTS.exec step .init (tableEvents.take 13) = some s₁ ∧
      step s₁ (.request (some (.ok (.killSession "work")))) = some s₂ ∧
      LTS.exec step s₂ afterEvents = some s₃ ∧
      ∀ m' ∈ LTS.trace step s₂ afterEvents, ∀ l' ∈ observed m', ¬ l'.Mentions 0 := by
  have h : ∃ s₁ s₂ s₃, LTS.exec step .init (tableEvents.take 13) = some s₁ ∧
      step s₁ (.request (some (.ok (.killSession "work")))) = some s₂ ∧
      LTS.exec step s₂ afterEvents = some s₃ ∧ s₃.issued.length < 2 ^ 32 ∧
      .kill "work" 0 ∈ observed ⟨s₁, .request (some (.ok (.killSession "work"))), s₂⟩ :=
    ⟨_, _, _, rfl, rfl, rfl, by decide, List.mem_cons_of_mem _ List.mem_cons_self⟩
  obtain ⟨s₁, s₂, s₃, h₁, h₂, h₃, hn, hl⟩ := h
  have hr := ((LTS.run_of_exec h₁).tail h₂).append (LTS.run_of_exec h₃)
  rw [List.append_assoc] at hr
  exact ⟨s₁, s₂, s₃, h₁, h₂, h₃, gone_for_good hr hn hl rfl⟩

end Daemon

end Gritty
