import Gritty.Oneshot.Basic
import Gritty.Protocol.Grammar
import Gritty.Text.Columns

/-!
# What `list_sessions` prints

The sessions of the reply are printed as a table, each column as wide as its longest cell.  The
widths are numbers of bytes and the cells are filled up by characters, of which there are not more,
so that every cell fits and the table can be read back.

A width that is given to `format!` at run time has sixteen bits.  `format!` panics above, and so
does `list_sessions` when it prints the head, before anything else is printed.

## Main results

* `listing_eq_none_iff` : there is a table unless some cell is longer than `maxWidth` bytes.
* `toList_listing` : what is printed is a table in the sense of `Text.table`.
* `tidy_row`, `tidy_header` : each line fits into the columns.
* `readTable_listing` : the table can be read back.
-/

namespace Gritty

namespace Oneshot

open Bytes Text

/-- `libc::tm`, as far as it is printed. -/
structure Tm where
  year : Int32
  mon : Int32
  mday : Int32
  hour : Int32
  min : Int32
  sec : Int32

/-- `{:0w$}` -/
def padZero (w : ℕ) (n : Int32) : String :=
  let digits := Nat.toDigits 10 n.toInt.natAbs
  if n < 0 then String.ofList ('-' :: (List.replicate (w - 1 - digits.length) '0' ++ digits))
  else String.ofList (List.replicate (w - digits.length) '0' ++ digits)

/-- `localtime` is `localtime_r`, which fails when the year does not fit. -/
def formatTimestamp (localtime : Int64 → Option Tm) (epochSecs : UInt64) : String :=
  match localtime epochSecs.toInt64 with
  | none => "-"
  | some tm =>
    padZero 4 (tm.year + 1900) ++ "-" ++ padZero 2 (tm.mon + 1) ++ "-" ++ padZero 2 tm.mday ++
      " " ++ padZero 2 tm.hour ++ ":" ++ padZero 2 tm.min ++ ":" ++ padZero 2 tm.sec

/-- The cells of one session. -/
structure Row where
  id : String
  name : String
  pty : String
  pid : String
  created : String
  status : String
  deriving DecidableEq

/-- `now.saturating_sub(s.last_heartbeat)` -/
def saturatingSub (a b : UInt64) : UInt64 := if a < b then 0 else a - b

/-- The status of a session whose shell is there. -/
def statusOf (now : UInt64) (s : SessionEntry) : String :=
  if s.attached then
    if s.lastHeartbeat > 0 then
      "attached (heartbeat " ++ toString (saturatingSub now s.lastHeartbeat) ++ "s ago)"
    else "attached"
  else "detached"

/-- The cells of a session. -/
def rowOf (localtime : Int64 → Option Tm) (now : UInt64) (s : SessionEntry) : Row where
  id := s.id
  name := if s.name.isEmpty then "-" else s.name
  pty := if s.shellPid = 0 then "-" else s.ptyPath
  pid := if s.shellPid = 0 then "-" else toString s.shellPid
  created := if s.shellPid = 0 then "-" else formatTimestamp localtime s.createdAt
  status := if s.shellPid = 0 then "starting" else statusOf now s

/-- The width of a column: the longest cell in bytes, and not less than the head. -/
def width (rows : List Row) (field : Row → String) (least : ℕ) : ℕ :=
  max ((rows.map fun r => (utf8 (field r)).length).max?.getD 0) least

/-- The greatest width that `format!` takes. -/
def maxWidth : ℕ := 65535

/-- `{:<w$}`, where `none` is the panic of `format!`. -/
def pad (w : ℕ) (cell : String) : Option String :=
  if maxWidth < w then none else some (String.ofList (padEnd w cell.toList))

/-- The head of the table. -/
def header : Row := ⟨"ID", "Name", "PTY", "PID", "Created", "Status"⟩

/-- One line. -/
def printRow (wId wName wPty wPid wCreated : ℕ) (r : Row) : Option String := do
  let id ← pad wId r.id
  let name ← pad wName r.name
  let pty ← pad wPty r.pty
  let pid ← pad wPid r.pid
  let created ← pad wCreated r.created
  some (id ++ "  " ++ name ++ "  " ++ pty ++ "  " ++ pid ++ "  " ++ created ++ "  " ++ r.status ++
    "\n")

/-- What `list_sessions` prints.  The widths are those of the head too: when one is too great,
nothing is printed. -/
def listing (localtime : Int64 → Option Tm) (now : UInt64) (sessions : List SessionEntry) :
    Option String :=
  if sessions.isEmpty then some "no active sessions\n"
  else
    let rows := sessions.map (rowOf localtime now)
    let wId := width rows Row.id 2
    let wName := width rows Row.name 4
    let wPty := width rows Row.pty 3
    let wPid := width rows Row.pid 3
    let wCreated := width rows Row.created 7
    ((header :: rows).mapM (printRow wId wName wPty wPid wCreated)).map "".intercalate

/-- The cells of a row but the last one. -/
def Row.cells (r : Row) : List (List Char) :=
  [r.id.toList, r.name.toList, r.pty.toList, r.pid.toList, r.created.toList]

/-- The widths of the columns. -/
def widths (rows : List Row) : List ℕ :=
  [width rows Row.id 2, width rows Row.name 4, width rows Row.pty 3, width rows Row.pid 3,
    width rows Row.created 7]

variable {localtime : Int64 → Option Tm} {now : UInt64} {sessions : List SessionEntry}
  {e : SessionEntry} {rows : List Row} {r : Row} {field : Row → String} {least w : ℕ}

theorem intercalate_empty (ls : List (List Char)) : [].intercalate ls = ls.flatten := by
  induction ls with
  | nil => rfl
  | cons l ls ih =>
    cases ls with
    | nil => simp
    | cons => rw [List.intercalate_cons_cons, ih, List.append_nil, ← List.flatten_cons]

theorem mapM_print {f : Row → Option String} {g : Row → List Char}
    (h : ∀ r, ∃ line, f r = some line ∧ line.toList = g r) (rows : List Row) :
    ∃ lines, rows.mapM f = some lines ∧ lines.map String.toList = rows.map g := by
  induction rows with
  | nil => exact ⟨[], rfl, rfl⟩
  | cons r rows ih =>
    obtain ⟨line, hf, hg⟩ := h r
    obtain ⟨lines, hlines, hmap⟩ := ih
    refine ⟨line :: lines, ?_, by rw [List.map_cons, List.map_cons, hg, hmap]⟩
    rw [List.mapM_cons, hf, hlines]
    rfl

section

variable {wId wName wPty wPid wCreated : ℕ}

theorem printRow_of_le (h : ∀ w ∈ [wId, wName, wPty, wPid, wCreated], w ≤ maxWidth) (r : Row) :
    ∃ line, printRow wId wName wPty wPid wCreated r = some line ∧
      line.toList = row ([wId, wName, wPty, wPid, wCreated].zip r.cells) r.status.toList ++
        ['\n'] := by
  have hpad : ∀ w ∈ [wId, wName, wPty, wPid, wCreated], ∀ cell : String,
      pad w cell = some (String.ofList (padEnd w cell.toList)) :=
    fun w hw cell => if_neg (Nat.not_lt.2 (h w hw))
  simp only [printRow, hpad wId (by simp), hpad wName (by simp), hpad wPty (by simp),
    hpad wPid (by simp), hpad wCreated (by simp), Option.bind_eq_bind, Option.bind_some]
  exact ⟨_, rfl, by simp [Row.cells, row, gap]⟩

theorem printRow_of_lt {w : ℕ} (hw : w ∈ [wId, wName, wPty, wPid, wCreated]) (h : maxWidth < w)
    (r : Row) : printRow wId wName wPty wPid wCreated r = none := by
  have hpad : ∀ cell : String, pad w cell = none := fun cell => if_pos h
  simp only [List.mem_cons, List.not_mem_nil, or_false] at hw
  rcases hw with rfl | rfl | rfl | rfl | rfl <;> simp [printRow, hpad]

end

/-- What is printed is a table. -/
theorem toList_listing (h : sessions ≠ [])
    (hw : ∀ w ∈ widths (sessions.map (rowOf localtime now)), w ≤ maxWidth) :
    ∃ text, listing localtime now sessions = some text ∧
      text.toList = table (widths (sessions.map (rowOf localtime now)))
        ((header :: sessions.map (rowOf localtime now)).map fun r =>
          (r.cells, r.status.toList)) := by
  have hne : sessions.isEmpty = false := by simpa using h
  obtain ⟨lines, hlines, hmap⟩ := mapM_print (printRow_of_le hw)
    (header :: sessions.map (rowOf localtime now))
  refine ⟨"".intercalate lines, ?_, ?_⟩
  · rw [listing, hne, if_neg (by simp)]
    exact congrArg (Option.map "".intercalate) hlines
  · rw [String.toList_intercalate, hmap, table, List.flatMap_map]
    show List.intercalate [] _ = _
    rw [intercalate_empty, ← List.flatMap_def]
    rfl

theorem maxWidth_lt_width (h : least ≤ maxWidth) :
    maxWidth < width rows field least ↔ ∃ r ∈ rows, maxWidth < (utf8 (field r)).length := by
  have hmax : ∀ m, maxWidth < max m least ↔ maxWidth < m := by omega
  rw [width, hmax]
  cases hm : (rows.map fun r => (utf8 (field r)).length).max? with
  | none =>
    rw [List.max?_eq_none_iff, List.map_eq_nil_iff] at hm
    simp [hm]
  | some m =>
    obtain ⟨hmem, hmax⟩ := List.max?_eq_some_iff.1 hm
    constructor
    · intro hlt
      obtain ⟨r, hr, rfl⟩ := List.mem_map.1 hmem
      exact ⟨r, hr, hlt⟩
    · rintro ⟨r, hr, hlt⟩
      exact hlt.trans_le (hmax _ (List.mem_map_of_mem hr))

theorem exists_wide_iff : (∃ w ∈ widths (sessions.map (rowOf localtime now)), maxWidth < w) ↔
    ∃ e ∈ sessions, ∃ field ∈ [Row.id, Row.name, Row.pty, Row.pid, Row.created],
      maxWidth < (utf8 (field (rowOf localtime now e))).length := by
  have hle : 2 ≤ maxWidth ∧ 3 ≤ maxWidth ∧ 4 ≤ maxWidth ∧ 7 ≤ maxWidth := by decide
  obtain ⟨h₂, h₃, h₄, h₇⟩ := hle
  simp only [widths, List.exists_mem_cons_iff, List.not_mem_nil, false_and, exists_false,
    or_false, maxWidth_lt_width, h₂, h₃, h₄, h₇, ← exists_or, ← and_or_left, List.mem_map,
    exists_exists_and_eq_and]

/-- `list_sessions` panics when a column is too wide, and only then. -/
theorem listing_eq_none_iff : listing localtime now sessions = none ↔
    ∃ w ∈ widths (sessions.map (rowOf localtime now)), maxWidth < w := by
  constructor
  · intro hnone
    by_contra hno
    have hle : ∀ w ∈ widths (sessions.map (rowOf localtime now)), w ≤ maxWidth :=
      fun w hw => Nat.not_lt.1 fun hlt => hno ⟨w, hw, hlt⟩
    by_cases hne : sessions = []
    · subst hne
      cases hnone
    · obtain ⟨text, htext, -⟩ := toList_listing hne hle
      rw [htext] at hnone
      cases hnone
  · rintro ⟨w, hw, hlt⟩
    have hne : sessions.isEmpty = false := by
      obtain ⟨e, he, -⟩ := exists_wide_iff.1 ⟨w, hw, hlt⟩
      simpa using List.ne_nil_of_mem he
    rw [listing, hne, if_neg (by simp)]
    show Option.map _ (List.mapM _ (header :: _)) = none
    rw [List.mapM_cons, printRow_of_lt hw hlt]
    rfl

theorem length_le_width (h : r ∈ rows) : (field r).toList.length ≤ width rows field least := by
  have hmem := List.mem_map_of_mem (f := fun r => (utf8 (field r)).length) h
  refine (length_le_length_utf8 _).trans (le_trans ?_ (Nat.le_max_left _ _))
  cases hm : (rows.map fun r => (utf8 (field r)).length).max? with
  | none => simp [List.max?_eq_none_iff.1 hm] at hmem
  | some m => exact (List.max?_eq_some_iff.1 hm).2 _ hmem

theorem least_le_width : least ≤ width rows field least := Nat.le_max_right _ _

/-! ### The cells -/

/-- No spaces and no line ends. -/
def Solid (cell : List Char) : Prop := ∀ c ∈ cell, c ≠ ' ' ∧ c ≠ '\n'

theorem Solid.plain {cell : List Char} (h : Solid cell) : Plain cell :=
  ⟨fun hc => (h _ hc).2 rfl, fun hc => (h _ (List.mem_of_getLast? hc)).1 rfl⟩

theorem plain_append {a b : List Char} (ha : '\n' ∉ a) (hb : Plain b) (hne : b ≠ []) :
    Plain (a ++ b) := by
  refine ⟨fun h => ?_, ?_⟩
  · rcases List.mem_append.1 h with h | h
    · exact ha h
    · exact hb.1 h
  · rw [List.getLast?_append_of_ne_nil _ hne]
    exact hb.2

theorem solid_toDigits (n : ℕ) : Solid (Nat.toDigits 10 n) := by
  intro c hc
  have hd := isDigit_of_mem_toDigits hc
  constructor <;> rintro rfl <;> exact absurd hd (by decide)

theorem solid_padZero (w : ℕ) (n : Int32) : Solid (padZero w n).toList := by
  have hzeros : ∀ k, Solid (List.replicate k '0' ++ Nat.toDigits 10 n.toInt.natAbs) := by
    intro k c hc
    rcases List.mem_append.1 hc with hc | hc
    · obtain rfl := List.eq_of_mem_replicate hc
      decide
    · exact solid_toDigits _ c hc
  rw [padZero]
  split
  · rw [String.toList_ofList]
    intro c hc
    rcases List.mem_cons.1 hc with rfl | hc
    · decide
    · exact hzeros _ c hc
  · rw [String.toList_ofList]
    exact hzeros _

theorem padZero_ne_nil (w : ℕ) (n : Int32) : (padZero w n).toList ≠ [] := by
  rw [padZero]
  split <;> simp

theorem plain_formatTimestamp (epochSecs : UInt64) :
    Plain (formatTimestamp localtime epochSecs).toList := by
  rw [formatTimestamp]
  cases localtime epochSecs.toInt64 with
  | none => exact ⟨by decide, by decide⟩
  | some tm =>
    have hno : ∀ w n, '\n' ∉ (padZero w n).toList := fun w n h => (solid_padZero w n _ h).2 rfl
    rw [String.toList_append]
    refine plain_append ?_ (solid_padZero _ _).plain (padZero_ne_nil _ _)
    simp [hno]

/-- A cell at the end of a line. -/
def Final (cell : List Char) : Prop := Plain cell ∧ cell ≠ [] ∧ cell.getLast? ≠ some '\r'

theorem final_status (e : SessionEntry) : Final (rowOf localtime now e).status.toList := by
  have hfinal : Final "starting".toList ∧ Final "attached".toList ∧ Final "detached".toList := by
    refine ⟨⟨⟨?_, ?_⟩, ?_, ?_⟩, ⟨⟨?_, ?_⟩, ?_, ?_⟩, ⟨?_, ?_⟩, ?_, ?_⟩ <;> decide
  show Final (if e.shellPid = 0 then "starting" else statusOf now e).toList
  split
  · exact hfinal.1
  · rw [statusOf]
    split
    · split
      · rw [String.toList_append, String.toList_append, toList_toString_uint64]
        refine ⟨plain_append ?_ ⟨by decide, by decide⟩ (by decide), by simp, ?_⟩
        · rw [List.mem_append, not_or]
          exact ⟨by decide, fun h => (solid_toDigits _ _ h).2 rfl⟩
        · rw [List.getLast?_append_of_ne_nil _ (by decide)]
          decide
      · exact hfinal.2.1
    · exact hfinal.2.2

/-- The texts of an entry can be read back. -/
def PlainEntry (e : SessionEntry) : Prop :=
  Plain e.id.toList ∧ Plain e.name.toList ∧ Plain e.ptyPath.toList

theorem plain_cells (h : PlainEntry e) : ∀ cell ∈ (rowOf localtime now e).cells, Plain cell := by
  have hdash : Plain "-".toList := ⟨by decide, by decide⟩
  obtain ⟨hid, hname, hpty⟩ := h
  simp only [rowOf, Row.cells, List.mem_cons, List.not_mem_nil, or_false]
  rintro cell (rfl | rfl | rfl | rfl | rfl)
  · exact hid
  · split
    · exact hdash
    · exact hname
  · split
    · exact hdash
    · exact hpty
  · split
    · exact hdash
    · rw [toList_toString_uint32]
      exact (solid_toDigits _).plain
  · split
    · exact hdash
    · exact plain_formatTimestamp _

theorem tidy_row (hrows : rows = sessions.map (rowOf localtime now)) (he : e ∈ sessions)
    (h : PlainEntry e) :
    Tidy (widths rows) ((rowOf localtime now e).cells, (rowOf localtime now e).status.toList) := by
  have hmem : rowOf localtime now e ∈ rows := hrows ▸ List.mem_map_of_mem he
  have hfinal : Final (rowOf localtime now e).status.toList := final_status e
  obtain ⟨hplain, hne, hcr⟩ := hfinal
  refine ⟨rfl, fun c hc => ⟨?_, plain_cells h _ (List.of_mem_zip hc).2⟩, hplain, hne, hcr⟩
  simp only [widths, Row.cells, List.zip_cons_cons, List.zip_nil_right, List.mem_cons,
    List.not_mem_nil, or_false] at hc
  rcases hc with rfl | rfl | rfl | rfl | rfl <;> exact length_le_width hmem

theorem tidy_header : Tidy (widths rows) (header.cells, header.status.toList) := by
  refine ⟨rfl, fun c hc => ⟨?_, ?_⟩, ⟨by decide, by decide⟩, by decide, by decide⟩
  · simp only [widths, Row.cells, List.zip_cons_cons, List.zip_nil_right, List.mem_cons,
      List.not_mem_nil, or_false] at hc
    rcases hc with rfl | rfl | rfl | rfl | rfl <;> exact least_le_width
  · have hcell : ∀ cell ∈ header.cells, '\n' ∉ cell ∧ cell.getLast? ≠ some ' ' := by decide
    exact hcell _ (List.of_mem_zip hc).2

theorem entrySafe_of_decode {src rest : List UInt8}
    (h : FrameCodec.decode src = (.ok (some (.sessionInfo sessions)), rest)) :
    ∀ e ∈ sessions, FrameCodec.EntrySafe e := by
  obtain ⟨-, -, hp, -⟩ := FrameCodec.decode_some h
  generalize (src.drop FrameCodec.headerLen).take (FrameCodec.payloadLen src) = payload at hp
  have hty := FrameCodec.typeByte_of_decodePayload hp
  rw [← hty] at hp
  change (FrameCodec.decodeString payload).map _ = _ at hp
  cases hs : FrameCodec.decodeString payload with
  | error err => simp [hs, Except.map] at hp
  | ok text =>
    obtain rfl : FrameCodec.parseSessionInfo text = sessions := by simpa [hs, Except.map] using hp
    intro e he
    rw [FrameCodec.parseSessionInfo_eq, List.mem_filterMap] at he
    obtain ⟨line, hline, he⟩ := he
    exact FrameCodec.safe_of_parseEntry he (notMem_of_mem_lines hline)

/-- **What `list_sessions` prints can be read.**  Of every reply that it can receive and that lists
sessions, it prints a table unless a cell is longer than `maxWidth` bytes.  Cutting the lines of the
table at the columns of the head gives back the cells of each session, whatever the names are,
unless an id, a name or a path ends in a space. -/
theorem readTable_listing {src rest : List UInt8}
    (h : FrameCodec.decode src = (.ok (some (.sessionInfo sessions)), rest)) (hne : sessions ≠ []) :
    (listing localtime now sessions = none ↔
      ∃ e ∈ sessions, ∃ field ∈ [Row.id, Row.name, Row.pty, Row.pid, Row.created],
        maxWidth < (utf8 (field (rowOf localtime now e))).length) ∧
    ∀ text, listing localtime now sessions = some text →
      (∀ e ∈ sessions, ∀ s ∈ [e.id, e.name, e.ptyPath], s.toList.getLast? ≠ some ' ') →
      readTable 5 text.toList =
        (sessions.map (rowOf localtime now)).map fun r => r.cells ++ [r.status.toList] := by
  refine ⟨listing_eq_none_iff.trans exists_wide_iff, fun text htext hsp => ?_⟩
  have hsafe := entrySafe_of_decode h
  have hrows : ∀ r ∈ (sessions.map (rowOf localtime now)).map fun r => (r.cells, r.status.toList),
      Tidy (widths (sessions.map (rowOf localtime now))) r := by
    intro r hr
    obtain ⟨row, hrow, rfl⟩ := List.mem_map.1 hr
    obtain ⟨e, he, rfl⟩ := List.mem_map.1 hrow
    obtain ⟨hid, hname, hpty⟩ := hsafe e he
    have hsp := hsp e he
    exact tidy_row rfl he ⟨⟨hid.2, hsp _ (by simp)⟩, ⟨hname.2, hsp _ (by simp)⟩,
      ⟨hpty.2, hsp _ (by simp)⟩⟩
  have hw : ∀ w ∈ widths (sessions.map (rowOf localtime now)), w ≤ maxWidth := by
    intro w hw
    by_contra hlt
    rw [listing_eq_none_iff.2 ⟨w, hw, Nat.not_le.1 hlt⟩] at htext
    cases htext
  obtain ⟨text', htext', hlist⟩ := toList_listing hne hw
  obtain rfl := Option.some.inj (htext.symm.trans htext')
  rw [hlist, List.map_cons]
  have hwords : (∀ cell ∈ header.cells, Word cell) ∧ Word header.status.toList := by
    unfold Word
    decide
  rw [← show (widths (sessions.map (rowOf localtime now))).length = 5 from rfl,
    readTable_table tidy_header hwords hrows, List.map_map]
  rfl

/-- A session with a space in its name, and one whose shell is not started yet. -/
def spaceSessions : List SessionEntry :=
  [⟨"0", "a b", "/dev/pts/3", 42, 17, true, 990⟩, ⟨"1", "", "", 0, 0, false, 0⟩]

theorem readTable_listing_space :
    ∃ src rest text, FrameCodec.decode src = (.ok (some (.sessionInfo spaceSessions)), rest) ∧
      listing (fun _ => none) 1000 spaceSessions = some text ∧
      readTable 5 text.toList =
        [["0".toList, "a b".toList, "/dev/pts/3".toList, "42".toList, "-".toList,
            "attached (heartbeat 10s ago)".toList],
          ["1".toList, "-".toList, "-".toList, "-".toList, "-".toList, "starting".toList]] := by
  have hsafe : FrameCodec.TextSafe (.sessionInfo spaceSessions) := by
    show ∀ e ∈ spaceSessions, FrameCodec.EntrySafe e
    unfold FrameCodec.EntrySafe
    decide
  have hlen : (FrameCodec.payload (.sessionInfo spaceSessions)).length
      ≤ FrameCodec.maxFrameSize := by
    decide
  have hdecode := FrameCodec.decode_encode hlen []
  rw [(FrameCodec.decodePayload_payload_iff _).2 hsafe] at hdecode
  obtain ⟨hnone, hread⟩ := @readTable_listing (fun _ => none) 1000 _ _ _ hdecode (by decide)
  obtain ⟨text, htext⟩ : ∃ text, listing (fun _ => none) 1000 spaceSessions = some text :=
    Option.ne_none_iff_exists'.1 fun h => absurd (hnone.1 h) (by decide)
  refine ⟨_, _, text, hdecode, htext, ?_⟩
  rw [hread text htext (by decide)]
  decide

end Oneshot

end Gritty
