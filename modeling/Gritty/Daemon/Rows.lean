import Gritty.Daemon.Basic
import Mathlib.Data.List.Forall2

/-!
# The rows of the table

`build_session_entries` collects one row for each session in the iteration order of the `HashMap`
and sorts the rows by the id that they show, parsed back from its text.  As ids are printed and
parsed back without loss and are distinct, the order of the map does not matter: the result is the
one list of rows that shows every session of the table, in ascending id order.

## Main definitions

* `Shows` : a row has the data of a session.
* `Lists` : the rows show all sessions, in strictly ascending id order.

## Main results

* `sortKey_sessionEntry` : a row is sorted by the id that it shows.
* `Lists.unique` : one list of rows shows a table.
* `lists_iff` : it is the one that the daemon builds.
* `buildSessionEntries_order` : two iteration orders give the same rows.
-/

namespace Gritty

namespace Daemon

variable {tasks : TaskId → Task} {sessions sessions' : Sessions} {id : UInt32}
  {state : SessionState} {row : SessionEntry} {rows : List SessionEntry}

/-! ### The rows that the daemon builds -/

@[simp] theorem sessionEntry_id : (sessionEntry tasks id state).id = toString id := by
  unfold sessionEntry
  split <;> rfl

@[simp] theorem sessionEntry_name : (sessionEntry tasks id state).name = state.name.getD "" := by
  unfold sessionEntry
  split <;> rfl

/-- Rows are sorted by the id that they show. -/
@[simp] theorem sortKey_sessionEntry : sortKey (sessionEntry tasks id state) = id := by
  simp [sortKey]

instance : Std.Total fun a b : SessionEntry => sortKey a ≤ sortKey b :=
  ⟨fun _ _ => UInt32.le_total _ _⟩

instance : IsTrans SessionEntry fun a b => sortKey a ≤ sortKey b :=
  ⟨fun _ _ _ => UInt32.le_trans⟩

theorem buildSessionEntries_perm : (buildSessionEntries tasks sessions).Perm
    (sessions.entries.map fun e => sessionEntry tasks e.1 e.2) :=
  List.perm_insertionSort _ _

theorem mem_buildSessionEntries : row ∈ buildSessionEntries tasks sessions ↔
    ∃ id state, sessions.lookup id = some state ∧ row = sessionEntry tasks id state := by
  rw [buildSessionEntries_perm.mem_iff, List.mem_map]
  constructor
  · rintro ⟨e, he, rfl⟩
    exact ⟨e.1, e.2, Table.lookup_eq_some_iff.2 he, rfl⟩
  · rintro ⟨id, state, hl, rfl⟩
    exact ⟨⟨id, state⟩, Table.lookup_eq_some_iff.1 hl, rfl⟩

theorem map_sortKey_perm :
    ((buildSessionEntries tasks sessions).map sortKey).Perm sessions.keys := by
  have h := (@buildSessionEntries_perm tasks sessions).map sortKey
  have hkeys : (sessions.entries.map fun e => sessionEntry tasks e.1 e.2).map sortKey =
      sessions.keys := by
    simp [AList.keys, List.keys]
  exact hkeys ▸ h

/-- The rows are in strictly ascending id order. -/
theorem pairwise_sortKey : ((buildSessionEntries tasks sessions).map sortKey).Pairwise (· < ·) := by
  have hle : ((buildSessionEntries tasks sessions).map sortKey).Pairwise (· ≤ ·) :=
    List.pairwise_map.2 (List.pairwise_insertionSort _ _)
  have hne : ((buildSessionEntries tasks sessions).map sortKey).Nodup :=
    map_sortKey_perm.nodup_iff.2 sessions.keys_nodup
  exact (hle.and hne).imp fun h => UInt32.lt_of_le_of_ne h.1 h.2

/-! ### What the rows should be -/

/-- The row shows this session: its id and name, and what its metadata says, or blanks before the
metadata is published. -/
def Shows (tasks : TaskId → Task) (id : UInt32) (state : SessionState) (row : SessionEntry) :
    Prop :=
  row.id = toString id ∧ row.name = state.name.getD "" ∧
    match (tasks state.handle).server.metadata with
    | some m => row.ptyPath = m.ptyPath ∧ row.shellPid = m.shellPid ∧ row.createdAt = m.createdAt ∧
        row.attached = m.attached ∧ row.lastHeartbeat = m.lastHeartbeat
    | none => row.ptyPath = "" ∧ row.shellPid = 0 ∧ row.createdAt = 0 ∧ row.attached = false ∧
        row.lastHeartbeat = 0

/-- The rows show each session of the table once, in ascending id order, and nothing else. -/
def Lists (tasks : TaskId → Task) (sessions : Sessions) (rows : List SessionEntry) : Prop :=
  ∃ ids : List UInt32, ids.Pairwise (· < ·) ∧ (∀ id, id ∈ ids ↔ id ∈ sessions) ∧
    List.Forall₂ (fun id row => ∃ state, sessions.lookup id = some state ∧
      Shows tasks id state row) ids rows

theorem shows_iff : Shows tasks id state row ↔ row = sessionEntry tasks id state := by
  cases row
  cases hm : (tasks state.handle).server.metadata <;> simp [Shows, sessionEntry, hm]

/-- The rows that the daemon builds show its table. -/
theorem lists_build : Lists tasks sessions (buildSessionEntries tasks sessions) := by
  refine ⟨(buildSessionEntries tasks sessions).map sortKey, pairwise_sortKey, ?_, ?_⟩
  · intro id
    rw [map_sortKey_perm.mem_iff, ← AList.mem_keys]
  · rw [List.forall₂_map_left_iff, List.forall₂_same]
    intro row hrow
    obtain ⟨id, state, hl, rfl⟩ := mem_buildSessionEntries.1 hrow
    rw [sortKey_sessionEntry]
    exact ⟨state, hl, shows_iff.2 rfl⟩

/-- One list of rows shows the table. -/
theorem Lists.unique {rows' : List SessionEntry} (h : Lists tasks sessions rows)
    (h' : Lists tasks sessions rows') : rows = rows' := by
  obtain ⟨ids, hp, hm, hf⟩ := h
  obtain ⟨ids', hp', hm', hf'⟩ := h'
  have hids : ids = ids' := hp.eq_of_mem_iff hp' fun id => (hm id).trans (hm' id).symm
  subst hids
  refine List.right_unique_forall₂' ?_ hf hf'
  rintro id row row' ⟨state, hl, hs⟩ ⟨state', hl', hs'⟩
  obtain rfl : state = state' := Option.some.inj (hl.symm.trans hl')
  rw [shows_iff.1 hs, shows_iff.1 hs']

/-- **The daemon builds the rows that show its table.** -/
theorem lists_iff : Lists tasks sessions rows ↔ rows = buildSessionEntries tasks sessions :=
  ⟨fun h => h.unique lists_build, fun h => h ▸ lists_build⟩

/-! ### The order of the map -/

/-- What rows show a table does not depend on the order of its entries. -/
theorem Lists.perm (h : Lists tasks sessions rows)
    (hp : sessions.entries.Perm sessions'.entries) : Lists tasks sessions' rows := by
  obtain ⟨ids, hids, hm, hf⟩ := h
  refine ⟨ids, hids, fun id => (hm id).trans ?_, hf.imp ?_⟩
  · rw [← AList.lookup_isSome, ← AList.lookup_isSome, AList.perm_lookup hp]
  · rintro id row ⟨state, hl, hs⟩
    exact ⟨state, AList.perm_lookup hp ▸ hl, hs⟩

/-- **The listing does not depend on the order of the map.**  For two iteration orders of a table
the daemon builds the same rows: one for each session, strictly ascending in the numeric id, each
with the fields of its session, and blank exactly where the metadata is not yet published. -/
theorem buildSessionEntries_order (h : sessions.entries.Perm sessions'.entries) :
    buildSessionEntries tasks sessions = buildSessionEntries tasks sessions' ∧
      Lists tasks sessions (buildSessionEntries tasks sessions) :=
  ⟨lists_iff.1 (lists_build.perm h), lists_build⟩

/-- The sessions 10 and 2 in two orders; the shell of 2 is running. -/
theorem buildSessionEntries_order_ten_two :
    ∃ (tasks : TaskId → Task) (sessions sessions' : Sessions), sessions.keys = [10, 2] ∧
      sessions'.keys = [2, 10] ∧
      buildSessionEntries tasks sessions = buildSessionEntries tasks sessions' ∧
      buildSessionEntries tasks sessions =
        [⟨"2", "work", "/dev/pts/1", 4242, 1700000000, true, 0⟩,
          ⟨"10", "", "", 0, 0, false, 0⟩] := by
  let running : Task := { Task.spawned with server := { Task.spawned.server with
    metadata := some ⟨"/dev/pts/1", 4242, 1700000000, true, 0⟩ } }
  let tasks : TaskId → Task := fun i => if i = 0 then running else Task.spawned
  let sessions : Sessions := (AList.insert 2 ⟨0, some "work"⟩ ∅).insert 10 ⟨1, none⟩
  let sessions' : Sessions := (AList.insert 10 ⟨1, none⟩ ∅).insert 2 ⟨0, some "work"⟩
  refine ⟨tasks, sessions, sessions', rfl, rfl,
    (buildSessionEntries_order (List.Perm.swap _ _ _)).1, by decide⟩

end Daemon

end Gritty
