import Gritty.Daemon.Designation
import Gritty.Daemon.Rows
import Gritty.Protocol.SessionInfo

/-!
# Listing the sessions

A client that asks for the sessions should see one row for each unfinished session, in ascending id
order, with the data of the session (`Faithful`).  The daemon builds exactly these rows, but a name
may be any string, and the rows travel as lines of tab-separated fields in one frame.

## Main definitions

* `Faithful` : the rows that the client should see.
* `ListedFaithfully` : the client decodes them from the reply.
* `Listable` : no name and no path has a tab or a line feed, and the rows fit the frame.

## Main results

* `faithful_iff` : the rows that the daemon builds are the faithful ones.
* `length_payload_build_le_iff` : their size does not depend on the order of the map.
* `listedFaithfully_iff` : the client sees the sessions exactly when they are listable.
-/

namespace Gritty

namespace Daemon

open Bytes FrameCodec

variable {tasks : TaskId → Task} {sessions : Sessions} {s s' : State} {id : UInt32}
  {state : SessionState} {row : SessionEntry} {rows : List SessionEntry}

/-! ### The rows that a client should see -/

/-- The row shows the unfinished session `id` : its id and name, and what its metadata says, or
blanks before the metadata is published. -/
def IsRow (s : State) (id : UInt32) (row : SessionEntry) : Prop :=
  ∃ state, Live s id state ∧ row.id = toString id ∧ row.name = state.name.getD "" ∧
    match (s.tasks state.handle).server.metadata with
    | some m => row.ptyPath = m.ptyPath ∧ row.shellPid = m.shellPid ∧ row.createdAt = m.createdAt ∧
        row.attached = m.attached ∧ row.lastHeartbeat = m.lastHeartbeat
    | none => row.ptyPath = "" ∧ row.shellPid = 0 ∧ row.createdAt = 0 ∧ row.attached = false ∧
        row.lastHeartbeat = 0

/-- The rows show each unfinished session once, in ascending id order, and nothing else. -/
def Faithful (s : State) (rows : List SessionEntry) : Prop :=
  ∃ ids : List UInt32, ids.Pairwise (· < ·) ∧ (∀ id, id ∈ ids ↔ ∃ state, Live s id state) ∧
    List.Forall₂ (IsRow s) ids rows

theorem live_iff_lookup_reap : Live s id state ↔ s.reap.sessions.lookup id = some state :=
  lookup_reap.symm

theorem isRow_iff : IsRow s id row ↔
    ∃ state, s.reap.sessions.lookup id = some state ∧ Shows s.tasks id state row :=
  exists_congr fun _ => and_congr_left fun _ => live_iff_lookup_reap

theorem faithful_iff_lists : Faithful s rows ↔ Lists s.tasks s.reap.sessions rows := by
  have hlive : ∀ id, (∃ state, Live s id state) ↔ id ∈ s.reap.sessions := by
    intro id
    rw [← AList.lookup_isSome, Option.isSome_iff_exists]
    exact exists_congr fun _ => live_iff_lookup_reap
  have hrow : IsRow s = fun id row => ∃ state, s.reap.sessions.lookup id = some state ∧
      Shows s.tasks id state row := by
    funext id row
    exact propext isRow_iff
  simp only [Faithful, Lists, hlive, hrow]

/-- **The daemon builds the faithful rows.** -/
theorem faithful_iff : Faithful s rows ↔ rows = buildSessionEntries s.tasks s.reap.sessions :=
  faithful_iff_lists.trans lists_iff

theorem faithful_build : Faithful s (buildSessionEntries s.tasks s.reap.sessions) :=
  faithful_iff.2 rfl

/-! ### What the client sees -/

/-- The client that reads the answer to `ListSessions` sees faithful rows. -/
def ListedFaithfully (s : State) (framed : Conn) (s' : State) : Prop :=
  ∃ reply, s'.control = .replying framed reply .again ∧
    ∃ rows, (decode (encode reply [])).1 = .ok (some (.sessionInfo rows)) ∧ Faithful s rows

/-- The size of the rows of the unfinished sessions, each with a separator. -/
def listingSize (s : State) : ℕ :=
  (s.reap.sessions.entries.map fun e =>
    (utf8 (entryText (sessionEntry s.tasks e.1 e.2))).length + 1).sum

/-- The unfinished sessions can be listed: their names and paths hold no tab and no line feed, and
their rows fit the frame. -/
def Listable (s : State) : Prop :=
  (∀ e ∈ s.reap.sessions.entries, FieldSafe (e.2.name.getD "") ∧
    ∀ m ∈ (s.tasks e.2.handle).server.metadata, FieldSafe m.ptyPath) ∧
  listingSize s ≤ maxFrameSize + 1

instance (s : State) : Decidable (Listable s) :=
  inferInstanceAs (Decidable ((∀ e ∈ s.reap.sessions.entries, _ ∧ ∀ m ∈ _, _) ∧ _ ≤ _))

theorem entrySafe_sessionEntry : EntrySafe (sessionEntry tasks id state) ↔
    FieldSafe (state.name.getD "") ∧
      ∀ m ∈ (tasks state.handle).server.metadata, FieldSafe m.ptyPath := by
  have hid : FieldSafe (toString id) :=
    ⟨notMem_toString_uint32 (by decide) id, notMem_toString_uint32 (by decide) id⟩
  have hblank : FieldSafe "" := ⟨by decide, by decide⟩
  rw [EntrySafe, sessionEntry_id, sessionEntry_name, and_iff_right hid]
  refine and_congr_right ?_
  intro _
  cases hm : (tasks state.handle).server.metadata <;> simp [sessionEntry, hm, hblank]

/-- The size of the listing does not depend on the order of the rows. -/
theorem length_payload_build_le_iff (n : ℕ) :
    (payload (.sessionInfo (buildSessionEntries s.tasks s.reap.sessions))).length ≤ n ↔
      listingSize s ≤ n + 1 := by
  have hp := @buildSessionEntries_perm s.tasks s.reap.sessions
  rw [length_payload_le_iff, (hp.map _).sum_nat, List.map_map]
  rfl

theorem representable_build :
    Representable (.sessionInfo (buildSessionEntries s.tasks s.reap.sessions)) ↔ Listable s := by
  have hp := @buildSessionEntries_perm s.tasks s.reap.sessions
  rw [Representable, length_payload_build_le_iff, and_comm]
  refine and_congr_left ?_
  intro _
  show (∀ e ∈ buildSessionEntries s.tasks s.reap.sessions, EntrySafe e) ↔ _
  simp only [hp.mem_iff, List.forall_mem_map, entrySafe_sessionEntry]

/-- **The sessions are listed faithfully exactly when they can be listed.**  In every state in which
a `ListSessions` request is served, the rows that the client decodes are those of the unfinished
sessions, in ascending id order and with the data of the sessions, if and only if no name and no
path of an unfinished session holds a tab or a line feed and all rows fit one frame. -/
theorem listedFaithfully_iff {framed : Conn} (hc : s.control = .reading framed)
    (h : lts.step s (.request (some (.ok .listSessions))) s') :
    ListedFaithfully s framed s' ↔ Listable s := by
  have hreply : s'.control =
      .replying framed (.sessionInfo (buildSessionEntries s.tasks s.reap.sessions)) .again := by
    cases serve_of_step hc h with
    | listed => rfl
    | unexpected hn => exact absurd trivial hn
  rw [← representable_build, ← decode_sessionInfo_fst_iff]
  constructor
  · rintro ⟨reply, hr, rows, hd, hf⟩
    obtain rfl := faithful_iff.1 hf
    rw [hreply] at hr
    cases hr
    exact hd
  · intro hd
    exact ⟨_, hreply, _, hd, faithful_build⟩

/-- The session `work` runs a shell, another is starting, and a connection is accepted. -/
def listEvents : List Event :=
  newSessionEvents "work" ++
    [.task 0 (.openpty (some "/dev/pts/1")), .task 0 .recv, .task 0 (.firstFrame none),
      .task 0 (.tick 1700000000), .task 0 (.spawn (some 4242))] ++
    newSessionEvents "" ++ [.connect, .reap, .accept true]

/-- The client sees both sessions. -/
theorem listedFaithfully_iff_work :
    ∃ s s', LTS.exec step .init listEvents = some s ∧ Live s 0 ⟨0, some "work"⟩ ∧
      Live s 1 ⟨1, none⟩ ∧ lts.step s (.request (some (.ok .listSessions))) s' ∧
      ListedFaithfully s 2 s' := by
  have h : ∃ s s', LTS.exec step .init listEvents = some s ∧ Live s 0 ⟨0, some "work"⟩ ∧
      Live s 1 ⟨1, none⟩ ∧ lts.step s (.request (some (.ok .listSessions))) s' ∧
      s.control = .reading 2 ∧ Listable s :=
    ⟨_, _, rfl, ⟨rfl, rfl⟩, ⟨rfl, rfl⟩, rfl, rfl, by decide⟩
  obtain ⟨s, s', h, hl₀, hl₁, hst, hc, hlist⟩ := h
  exact ⟨s, s', h, hl₀, hl₁, hst, (listedFaithfully_iff hc hst).2 hlist⟩

/-- A session with a tab in its name, and a connection accepted. -/
def tabEvents : List Event := newSessionEvents "a\tb" ++ [.connect, .reap, .accept true]

/-- The session runs, and the client sees no row. -/
theorem not_listedFaithfully_tab :
    ∃ s s' reply, lts.Reachable .init s ∧ Live s 0 ⟨0, some "a\tb"⟩ ∧
      lts.step s (.request (some (.ok .listSessions))) s' ∧ s'.control = .replying 1 reply .again ∧
      (decode (encode reply [])).1 = .ok (some (.sessionInfo [])) ∧ ¬ ListedFaithfully s 1 s' := by
  have h : ∃ s s' reply, LTS.exec step .init tabEvents = some s ∧ Live s 0 ⟨0, some "a\tb"⟩ ∧
      lts.step s (.request (some (.ok .listSessions))) s' ∧ s'.control = .replying 1 reply .again ∧
      (decode (encode reply [])).1 = .ok (some (.sessionInfo [])) :=
    ⟨_, _, _, rfl, ⟨rfl, rfl⟩, rfl, rfl, rfl⟩
  obtain ⟨s, s', reply, h, hl, hst, hc, hd⟩ := h
  refine ⟨s, s', reply, (LTS.run_of_exec h).reachable, hl, hst, hc, hd, ?_⟩
  rintro ⟨reply', hc', rows, hd', ids, -, hids, hf⟩
  -- the rows are none, but one is due
  obtain rfl : reply = reply' := by
    rw [hc] at hc'
    cases hc'
    rfl
  obtain rfl : rows = [] := by simpa [hd] using hd'.symm
  cases hf
  exact absurd ((hids 0).2 ⟨_, hl⟩) (by simp)

end Daemon

end Gritty
