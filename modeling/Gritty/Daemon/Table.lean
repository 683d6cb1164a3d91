import Gritty.Daemon.Step

/-!
# The session table

Every move either keeps the table within itself or creates one session.  The invariant `TableInv`
follows from that alone: ids are given out in order, each session is the one that its id was given
out for, no two sessions have the same name, and no name is empty.  Hence resolving a target does
not depend on the iteration order of the `HashMap`.

## Main definitions

* `Shrinks`, `Creates` : the two kinds of moves.
* `TableInv` : the invariant.
* `Answers` : a session answers to a target, by its name or, if no session has that name, by its id.

## Main results

* `table_step` : what one move does to the table.
* `TableInv.of_reachable` : the invariant holds in every reachable state.
* `resolveSession_eq_some_iff` : resolving finds the session that answers to the target.
* `resolveSession_perm` : in any iteration order.
* `session_table` : all of this, for fewer than `2 ^ 32` sessions.
-/

namespace Gritty

namespace Daemon

variable {s s' : State} {e : Event} {sessions : Sessions}

/-- The table only loses sessions, and no id is given out. -/
structure Shrinks (s s' : State) : Prop where
  issued : s'.issued = s.issued
  nextId : s'.nextId = s.nextId
  lookup : ∀ id state, s'.sessions.lookup id = some state → s.sessions.lookup id = some state

/-- One session is created. -/
def Creates (s : State) (e : Event) (s' : State) : Prop :=
  ∃ framed name, s.control = .reading framed ∧ e = .request (some (.ok (.newSession name))) ∧
    (name ≠ "" → ¬ Named s.sessions name) ∧ s' = s.create framed (nameOpt name)

theorem Shrinks.of_eq (hi : s'.issued = s.issued) (hn : s'.nextId = s.nextId)
    (hs : s'.sessions = s.sessions) : Shrinks s s' :=
  ⟨hi, hn, fun _ _ h => hs ▸ h⟩

theorem lookup_reap {id : UInt32} {state : SessionState} :
    s.reap.sessions.lookup id = some state ↔
      s.sessions.lookup id = some state ∧ (s.tasks state.handle).isFinished = false := by
  have h : s.reap.sessions = reapSessions s.tasks s.sessions := rfl
  rw [h, reapSessions, Table.lookup_retain]
  simp

theorem shrinks_reap : Shrinks s s.reap := ⟨rfl, rfl, fun _ _ h => (lookup_reap.1 h).1⟩

theorem shrinks_erase {id : UInt32} : Shrinks s { s with sessions := s.sessions.erase id } :=
  ⟨rfl, rfl, fun _ _ h => (Table.lookup_erase_iff.1 h).2⟩

theorem shrinks_empty : Shrinks s { s with sessions := ∅ } :=
  ⟨rfl, rfl, fun _ _ h => by simp at h⟩

theorem Shrinks.trans {s'' : State} (h : Shrinks s s') (h' : Shrinks s' s'') : Shrinks s s'' :=
  ⟨h'.issued.trans h.issued, h'.nextId.trans h.nextId,
    fun id state hl => h.lookup id state (h'.lookup id state hl)⟩

/-- Moves that touch the control point, the tasks or the logs keep the table. -/
theorem Shrinks.congr {s'' : State} (h : Shrinks s s') (hi : s''.issued = s'.issued)
    (hn : s''.nextId = s'.nextId) (hs : s''.sessions = s'.sessions) : Shrinks s s'' :=
  h.trans (.of_eq hi hn hs)

theorem table_serve {framed : Conn} {frame : Frame} (hc : s.control = .reading framed)
    (h : Serve s framed frame s') :
    Shrinks s s' ∨ Creates s (.request (some (.ok frame))) s' := by
  cases h with
  | duplicate | unexpected => exact .inl (.of_eq rfl rfl rfl)
  | created hn => exact .inr ⟨framed, _, hc, rfl, hn, rfl⟩
  | attachNone | attached | listed | killNone => exact .inl (shrinks_reap.congr rfl rfl rfl)
  | attachClosed | killed =>
    exact .inl ((shrinks_reap.trans shrinks_erase).congr rfl rfl rfl)
  | shutdown => exact .inl (shrinks_empty.congr rfl rfl rfl)

/-- **What one move does to the table.** -/
theorem table_step (h : Step s e s') : Shrinks s s' ∨ Creates s e s' := by
  cases h with
  | task | finish | connect | accept | refuse | noRequest => exact .inl (.of_eq rfl rfl rfl)
  | rehash hp => exact .inl ⟨rfl, rfl, fun id state hl => AList.perm_lookup hp ▸ hl⟩
  | reap => exact .inl (shrinks_reap.congr rfl rfl rfl)
  | acceptErr => exact .inl (shrinks_empty.congr rfl rfl rfl)
  | signal => exact .inl (shrinks_empty.congr rfl rfl rfl)
  | request hc hs => exact table_serve hc hs
  | @replied framed reply next ok hc =>
    cases next <;> exact .inl (.of_eq rfl rfl rfl)

/-! ### The invariant -/

/-- No two sessions have the same name. -/
def NamesDistinct (sessions : Sessions) : Prop :=
  ∀ id id' state state' n, sessions.lookup id = some state → sessions.lookup id' = some state' →
    state.name = some n → state'.name = some n → id = id'

/-- No session has the empty name. -/
def NamesNonempty (sessions : Sessions) : Prop :=
  ∀ id state, sessions.lookup id = some state → state.name ≠ some ""

/-- What holds of the table and of the ids given out, in every reachable state. -/
structure TableInv (s : State) : Prop where
  nextId : s.nextId = UInt32.ofNat s.issued.length
  issued : ∀ k id, s.issued[k]? = some id → id = UInt32.ofNat k
  handle : ∀ id state, s.sessions.lookup id = some state → s.issued[state.handle]? = some id
  distinct : NamesDistinct s.sessions
  nonempty : NamesNonempty s.sessions

theorem TableInv.init : TableInv .init := by
  constructor <;> simp [State.init, NamesDistinct, NamesNonempty]

theorem TableInv.of_shrinks (hi : TableInv s) (h : Shrinks s s') : TableInv s' where
  nextId := by rw [h.nextId, h.issued, hi.nextId]
  issued := by rw [h.issued]; exact hi.issued
  handle id state hl := by rw [h.issued]; exact hi.handle id state (h.lookup id state hl)
  distinct id id' state state' n hl hl' :=
    hi.distinct id id' state state' n (h.lookup id state hl) (h.lookup id' state' hl')
  nonempty id state hl := hi.nonempty id state (h.lookup id state hl)

/-- The sessions of the table after one is created. -/
theorem lookup_create {framed : Conn} {name : Option String} {id : UInt32} {state : SessionState} :
    (s.create framed name).sessions.lookup id = some state ↔
      (id = s.nextId ∧ state = ⟨s.issued.length, name⟩) ∨
        (id ≠ s.nextId ∧ s.sessions.lookup id = some state) := by
  have h : (s.create framed name).sessions =
      s.sessions.insert s.nextId ⟨s.issued.length, name⟩ := rfl
  rw [h, Table.lookup_insert_iff]
  simp

theorem getElem?_issued_create {framed : Conn} {name : Option String} {k : ℕ} {id : UInt32}
    (h : (s.create framed name).issued[k]? = some id) :
    s.issued[k]? = some id ∨ (k = s.issued.length ∧ id = s.nextId) := by
  have hissued : (s.create framed name).issued = s.issued ++ [s.nextId] := rfl
  rw [hissued] at h
  by_cases hlt : k < s.issued.length
  · rw [List.getElem?_append_left hlt] at h
    exact .inl h
  · have hlen := (List.getElem?_eq_some_iff.1 h).1
    rw [List.length_append, List.length_singleton] at hlen
    obtain rfl : k = s.issued.length := by omega
    rw [List.getElem?_concat_length] at h
    exact .inr ⟨rfl, (Option.some.inj h).symm⟩

/-- A name that no session has stays the only one of its kind. -/
theorem NamesDistinct.create (hd : NamesDistinct s.sessions) {framed : Conn} {name : String}
    (hn : name ≠ "" → ¬ Named s.sessions name) :
    NamesDistinct (s.create framed (nameOpt name)).sessions := by
  intro id id' state state' n hl hl' hs hs'
  -- the new name is not in the table, the others are distinct
  have hnew : ∀ id' state', s.sessions.lookup id' = some state' → nameOpt name = some n →
      state'.name ≠ some n := by
    intro id' state' hl' ho hs'
    obtain ⟨hne, rfl⟩ := nameOpt_eq_some_iff.1 ho
    exact hn hne ⟨id', state', hl', hs'⟩
  rcases lookup_create.1 hl with ⟨rfl, rfl⟩ | ⟨-, hl⟩ <;>
    rcases lookup_create.1 hl' with ⟨rfl, rfl⟩ | ⟨-, hl'⟩
  · rfl
  · exact absurd hs' (hnew id' state' hl' hs)
  · exact absurd hs (hnew id state hl hs')
  · exact hd id id' state state' n hl hl' hs hs'

theorem NamesNonempty.create (hd : NamesNonempty s.sessions) {framed : Conn} {name : String} :
    NamesNonempty (s.create framed (nameOpt name)).sessions := by
  intro id state hl
  rcases lookup_create.1 hl with ⟨rfl, rfl⟩ | ⟨-, hl⟩
  · intro ho
    obtain ⟨hne, rfl⟩ := nameOpt_eq_some_iff.1 ho
    exact hne rfl
  · exact hd id state hl

theorem TableInv.create (hi : TableInv s) {framed : Conn} {name : String}
    (hn : name ≠ "" → ¬ Named s.sessions name) : TableInv (s.create framed (nameOpt name)) where
  nextId := by
    show s.nextId + 1 = UInt32.ofNat (s.issued ++ [s.nextId]).length
    rw [hi.nextId, List.length_append, UInt32.ofNat_add]
    rfl
  issued k id hk := by
    rcases getElem?_issued_create hk with hk | ⟨rfl, rfl⟩
    · exact hi.issued k id hk
    · exact hi.nextId
  handle id state hl := by
    show (s.issued ++ [s.nextId])[state.handle]? = some id
    rcases lookup_create.1 hl with ⟨rfl, rfl⟩ | ⟨-, hl⟩
    · exact List.getElem?_concat_length
    · have hk := hi.handle id state hl
      rw [List.getElem?_append_left (List.getElem?_eq_some_iff.1 hk).1, hk]
  distinct := hi.distinct.create hn
  nonempty := hi.nonempty.create

theorem TableInv.step (hi : TableInv s) (h : Step s e s') : TableInv s' := by
  rcases table_step h with hsh | ⟨framed, name, -, -, hn, rfl⟩
  · exact hi.of_shrinks hsh
  · exact hi.create hn

theorem TableInv.of_reachable (h : lts.Reachable .init s) : TableInv s :=
  h.invariant .init fun _ _ _ hi hst => hi.step (step_cases hst)

/-! ### Resolving a target -/

/-- The session `id` answers to a target: it has it as its name, or nobody does and the target is
its id. -/
def Answers (sessions : Sessions) (target : String) (id : UInt32) : Prop :=
  (∃ state, sessions.lookup id = some state ∧ state.name = some target) ∨
    (¬ Named sessions target ∧ Text.parseU32 target = some id ∧ id ∈ sessions)

theorem find?_name_eq_none {target : String} (h : ¬ Named sessions target) :
    (sessions.entries.find? fun e => e.2.name == some target) = none := by
  rw [List.find?_eq_none]
  intro e he hn
  exact h ⟨e.1, e.2, Table.lookup_eq_some_iff.2 he, by simpa using hn⟩

theorem find?_name_eq_some_iff (hd : NamesDistinct sessions) {target : String}
    {e : Sigma fun _ : UInt32 => SessionState} :
    (sessions.entries.find? fun e => e.2.name == some target) = some e ↔
      sessions.lookup e.1 = some e.2 ∧ e.2.name = some target := by
  rw [Table.find?_eq_some_iff, Table.lookup_eq_some_iff, beq_iff_eq]
  intro x hx y hy hn hn'
  have hl := Table.lookup_eq_some_iff.2 hx
  have hl' := Table.lookup_eq_some_iff.2 hy
  have hid : x.1 = y.1 := hd _ _ _ _ _ hl hl' (by simpa using hn) (by simpa using hn')
  rw [hid, hl'] at hl
  exact Sigma.ext hid (heq_of_eq (Option.some.inj hl).symm)

/-- **Resolving finds the session that answers to the target**, when names are distinct. -/
theorem resolveSession_eq_some_iff (hd : NamesDistinct sessions) {target : String} {id : UInt32} :
    resolveSession sessions target = some id ↔ Answers sessions target id := by
  unfold resolveSession
  by_cases hnamed : Named sessions target
  -- names first
  · obtain ⟨id', state', hl', hn'⟩ := hnamed
    have hfind := (find?_name_eq_some_iff hd (e := ⟨id', state'⟩)).2 ⟨hl', hn'⟩
    rw [hfind]
    constructor
    · intro h
      obtain rfl := Option.some.inj h
      exact .inl ⟨state', hl', hn'⟩
    · rintro (⟨state, hl, hn⟩ | ⟨hno, -⟩)
      · exact congrArg some (hd _ _ _ _ _ hl' hl hn' hn)
      · exact absurd ⟨id', state', hl', hn'⟩ hno
  -- then the decimal id
  · have hname : ¬ ∃ state, sessions.lookup id = some state ∧ state.name = some target := by
      rintro ⟨state, hl, hn⟩
      exact hnamed ⟨id, state, hl, hn⟩
    rw [find?_name_eq_none hnamed]
    unfold Answers
    cases hp : Text.parseU32 target with
    | none => simp [hname]
    | some id' =>
      show (if id' ∈ sessions then some id' else none) = some id ↔ _
      by_cases hm : id' ∈ sessions
      · rw [if_pos hm]
        constructor
        · rintro ⟨⟩
          exact .inr ⟨hnamed, rfl, hm⟩
        · rintro (h | ⟨-, h, -⟩)
          · exact absurd h hname
          · exact h
      · rw [if_neg hm]
        constructor
        · rintro ⟨⟩
        · rintro (h | ⟨-, ⟨⟩, hm'⟩)
          · exact absurd h hname
          · exact absurd hm' hm

theorem NamesDistinct.perm {sessions' : Sessions} (hd : NamesDistinct sessions)
    (hp : sessions'.entries.Perm sessions.entries) : NamesDistinct sessions' := by
  intro id id' state state' n hl hl'
  rw [AList.perm_lookup hp] at hl hl'
  exact hd id id' state state' n hl hl'

theorem answers_perm {sessions' : Sessions} (hp : sessions'.entries.Perm sessions.entries)
    (target : String) (id : UInt32) : Answers sessions' target id ↔ Answers sessions target id := by
  simp only [Answers, Named, AList.perm_lookup hp, AList.mem_of_perm hp]

/-- Resolving does not depend on the iteration order. -/
theorem resolveSession_perm {sessions' : Sessions} (hd : NamesDistinct sessions)
    (hp : sessions'.entries.Perm sessions.entries) (target : String) :
    resolveSession sessions' target = resolveSession sessions target := by
  refine Option.ext ?_
  intro id
  rw [resolveSession_eq_some_iff (hd.perm hp), resolveSession_eq_some_iff hd,
    answers_perm hp]

/-! ### The whole invariant -/

/-- No lookup of the control loop fails. -/
theorem control_ne_panicked_step (hc : s.control ≠ .panicked) (h : Step s e s') :
    s'.control ≠ .panicked := by
  cases h with
  | task | finish | rehash | connect => exact hc
  | reap | accept | refuse | acceptErr | signal | noRequest => simp
  | request _ hs => cases hs <;> simp [State.reply, State.create, State.list]
  | @replied _ _ next _ => cases next <;> simp [State.proceed]

theorem control_ne_panicked (h : lts.Reachable .init s) : s.control ≠ .panicked :=
  h.invariant (by simp [State.init])
    fun _ _ _ hi hst => control_ne_panicked_step hi (step_cases hst)

/-- While fewer than `2 ^ 32` ids are given out, the `k`-th is `k`. -/
theorem TableInv.toNat_issued (hi : TableInv s) (hn : s.issued.length < 2 ^ 32) {k : ℕ}
    {id : UInt32} (h : s.issued[k]? = some id) : id.toNat = k := by
  have hk : k < s.issued.length := (List.getElem?_eq_some_iff.1 h).1
  rw [hi.issued k id h]
  exact UInt32.toNat_ofNat_of_lt' (Nat.lt_trans hk hn)

theorem TableInv.issued_nodup (hi : TableInv s) (hn : s.issued.length < 2 ^ 32) :
    s.issued.Nodup := by
  rw [List.nodup_iff_getElem?_ne_getElem?]
  intro i j hij hj heq
  have hlt : i < s.issued.length := Nat.lt_trans hij hj
  have hi' := hi.toNat_issued hn (List.getElem?_eq_getElem hlt)
  have hj' := hi.toNat_issued hn (heq ▸ List.getElem?_eq_getElem hlt)
  omega

theorem TableInv.lt_nextId (hi : TableInv s) (hn : s.issued.length < 2 ^ 32) {id : UInt32}
    (h : id ∈ s.sessions) : id < s.nextId := by
  obtain ⟨state, hl⟩ := Table.exists_lookup_of_mem h
  have hk := hi.handle id state hl
  have hlt : state.handle < s.issued.length := (List.getElem?_eq_some_iff.1 hk).1
  rw [hi.nextId, UInt32.lt_iff_toNat_lt, hi.toNat_issued hn hk, UInt32.toNat_ofNat_of_lt' hn]
  exact hlt

/-- **The session table.**  In every reachable state with fewer than `2 ^ 32` sessions created, the
keys of the table are below `next_id` and no id was issued twice; names are distinct and not empty;
a target is resolved to the same session, which is in the table, for every iteration order; and the
control loop has not panicked. -/
theorem session_table (h : lts.Reachable .init s) (hn : s.issued.length < 2 ^ 32) :
    (∀ id ∈ s.sessions, id < s.nextId) ∧ s.issued.Nodup ∧ NamesDistinct s.sessions ∧
      NamesNonempty s.sessions ∧
      (∀ sessions' : Sessions, sessions'.entries.Perm s.sessions.entries → ∀ target,
        resolveSession sessions' target = resolveSession s.sessions target) ∧
      (∀ target id, resolveSession s.sessions target = some id → id ∈ s.sessions) ∧
      s.control ≠ .panicked := by
  have hi := TableInv.of_reachable h
  exact ⟨fun id hid => hi.lt_nextId hn hid, hi.issued_nodup hn, hi.distinct, hi.nonempty,
    fun sessions' hp target => resolveSession_perm hi.distinct hp target,
    fun target id hr => mem_of_resolveSession hr, control_ne_panicked h⟩

/-- Two sessions are created and one is killed. -/
def tableEvents : List Event :=
  [.connect, .reap, .accept true, .request (some (.ok (.newSession "work"))), .replied true,
    .connect, .reap, .accept true, .request (some (.ok (.newSession ""))), .replied true,
    .connect, .reap, .accept true, .request (some (.ok (.killSession "work"))), .replied true]

/-- The session left has the id 1. -/
theorem session_table_killed :
    ∃ s, LTS.exec step .init tableEvents = some s ∧ (1 : UInt32) ∈ s.sessions ∧
      (∀ id ∈ s.sessions, id < s.nextId) ∧ s.issued.Nodup := by
  have h : ∃ s, LTS.exec step .init tableEvents = some s ∧ (1 : UInt32) ∈ s.sessions ∧
      s.issued.length < 2 ^ 32 := ⟨_, rfl, by decide, by decide⟩
  obtain ⟨s, h, hm, hn⟩ := h
  obtain ⟨hlt, hd, -⟩ := session_table (LTS.run_of_exec h).reachable hn
  exact ⟨s, h, hm, hlt, hd⟩

end Daemon

end Gritty
