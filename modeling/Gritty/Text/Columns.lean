import Gritty.Text.Lines
import Mathlib.Data.List.DropRight
import Mathlib.Data.List.Forall2

/-!
# Tables in columns

A row of a table is its cells, each filled up with spaces to the width of its column and followed by
a gap, and a last cell of any length.  Such a table is printed by `format!` with widths, and it is
read by cutting each line where the columns of the first line begin.

The first row has words for its cells, so that the columns can be found again.  Cutting the other
rows there gives back their cells, whatever spaces are in them, as long as no cell ends in one and
none has a line feed.

## Main definitions

* `padEnd`, `row`, `table` : how a table is written.
* `columns`, `cut`, `readTable` : how it is read.
* `Tidy` : a row that fits the columns and can be told from what is around it.

## Main results

* `columns_row` : the columns can be found in the first row.
* `readTable_table` : a table can be read.
-/

namespace Gritty

namespace Text

/-- `{:<w$}` : fill up to `w` characters. -/
def padEnd (w : ℕ) (cell : List Char) : List Char := cell ++ List.replicate (w - cell.length) ' '

/-- Two spaces. -/
def gap : List Char := [' ', ' ']

/-- Cells with the widths of their columns, and a last cell. -/
def row (cols : List (ℕ × List Char)) (last : List Char) : List Char :=
  (cols.flatMap fun c => padEnd c.1 c.2 ++ gap) ++ last

/-- Rows, each on a line. -/
def table (ws : List ℕ) (rows : List (List (List Char) × List Char)) : List Char :=
  rows.flatMap fun r => row (ws.zip r.1) r.2 ++ ['\n']

/-! ### Reading -/

/-- Drop the spaces at the end. -/
def trimEnd (cell : List Char) : List Char := cell.rdropWhile (· = ' ')

/-- Cut a line into columns and a last cell. -/
def cut : List ℕ → List Char → List (List Char)
  | [], line => [line]
  | w :: ws, line => line.take w :: cut ws (line.drop w)

/-- The widths of the first `n` columns, each a word and the spaces after it. -/
def columns : ℕ → List Char → List ℕ
  | 0, _ => []
  | n + 1, line =>
    let rest := line.dropWhile (· ≠ ' ')
    ((line.takeWhile (· ≠ ' ')).length + (rest.takeWhile (· = ' ')).length) ::
      columns n (rest.dropWhile (· = ' '))

/-- The cells of a table with `n` columns before the last one. -/
def readTable (n : ℕ) (text : List Char) : List (List (List Char)) :=
  match lines text with
  | [] => []
  | header :: rows => rows.map fun line => (cut (columns n header) line).map trimEnd

/-! ### What is read of what is written -/

/-- The cell fits into its column. -/
def Fits (c : ℕ × List Char) : Prop := c.2.length ≤ c.1

/-- A cell that can be told from what is around it. -/
def Plain (cell : List Char) : Prop := '\n' ∉ cell ∧ cell.getLast? ≠ some ' '

/-- The head of a column. -/
def Word (cell : List Char) : Prop := cell ≠ [] ∧ ' ' ∉ cell

variable {cols : List (ℕ × List Char)} {last cell t : List Char} {c : ℕ × List Char} {w : ℕ}

theorem padEnd_append_gap :
    padEnd w cell ++ gap = cell ++ List.replicate (w - cell.length + 2) ' ' := by
  rw [padEnd, List.append_assoc, List.replicate_add]
  rfl

theorem length_padEnd_append_gap (h : Fits c) : (padEnd c.1 c.2 ++ gap).length = c.1 + 2 := by
  have hle : c.2.length ≤ c.1 := h
  rw [padEnd_append_gap, List.length_append, List.length_replicate]
  omega

theorem trimEnd_append_replicate (n : ℕ) :
    trimEnd (cell ++ List.replicate n ' ') = trimEnd cell := by
  induction n with
  | zero => simp
  | succ n ih =>
    rw [List.replicate_succ', ← List.append_assoc, trimEnd,
      List.rdropWhile_concat_pos _ _ _ (by simp)]
    exact ih

theorem trimEnd_of_plain (h : Plain cell) : trimEnd cell = cell := by
  rw [trimEnd, List.rdropWhile_eq_self_iff]
  intro hne hsp
  exact h.2 (by rw [List.getLast?_eq_some_getLast hne, of_decide_eq_true hsp])

theorem row_cons : row (c :: cols) last = padEnd c.1 c.2 ++ gap ++ row cols last := by
  simp [row]

theorem cut_row (h : ∀ c ∈ cols, Fits c) : cut (cols.map fun c => c.1 + 2) (row cols last) =
    (cols.map fun c => padEnd c.1 c.2 ++ gap) ++ [last] := by
  induction cols with
  | nil => rfl
  | cons c cols ih =>
    have hlen := length_padEnd_append_gap (h c List.mem_cons_self)
    rw [List.map_cons, row_cons, cut, ← hlen, List.take_left, List.drop_left,
      ih fun c hc => h c (List.mem_cons_of_mem _ hc)]
    rfl

theorem map_trimEnd_cut_row (h : ∀ c ∈ cols, Fits c ∧ Plain c.2) (hlast : Plain last) :
    (cut (cols.map fun c => c.1 + 2) (row cols last)).map trimEnd =
      cols.map Prod.snd ++ [last] := by
  rw [cut_row fun c hc => (h c hc).1, List.map_append, List.map_map, List.map_singleton,
    trimEnd_of_plain hlast]
  congr 1
  refine List.map_congr_left fun c hc => ?_
  show trimEnd (padEnd c.1 c.2 ++ gap) = c.2
  rw [padEnd_append_gap, trimEnd_append_replicate, trimEnd_of_plain (h c hc).2]

theorem head?_row (h : ∀ c ∈ cols, Word c.2) (hlast : Word last) :
    ∃ d rest, row cols last = d :: rest ∧ d ≠ ' ' := by
  have hword : ∀ {cell : List Char}, Word cell →
      ∀ t, ∃ d rest, cell ++ t = d :: rest ∧ d ≠ ' ' := by
    rintro (_ | ⟨d, cell⟩) ⟨hne, hsp⟩ t
    · exact absurd rfl hne
    · exact ⟨d, cell ++ t, rfl, fun hd => hsp (hd ▸ List.mem_cons_self)⟩
  cases cols with
  | nil => simpa [row] using hword hlast []
  | cons c cols =>
    rw [row_cons, padEnd, List.append_assoc, List.append_assoc]
    exact hword (h c List.mem_cons_self) _

theorem columns_succ {n m : ℕ} (hcell : Word cell) (ht : ∃ d rest, t = d :: rest ∧ d ≠ ' ') :
    columns (n + 1) (cell ++ List.replicate (m + 1) ' ' ++ t) =
      (cell.length + (m + 1)) :: columns n t := by
  obtain ⟨d, rest, rfl, hd⟩ := ht
  have hsp : ∀ a ∈ cell, decide (a ≠ ' ') = true := by
    intro a ha
    rw [decide_eq_true_eq]
    rintro rfl
    exact hcell.2 ha
  have hrep : ∀ a ∈ List.replicate (m + 1) ' ', decide (a = ' ') = true := by
    intro a ha
    simp [List.eq_of_mem_replicate ha]
  rw [columns, List.append_assoc, List.takeWhile_append_of_pos hsp,
    List.dropWhile_append_of_pos hsp]
  have htake : (List.replicate (m + 1) ' ' ++ d :: rest).takeWhile (· ≠ ' ') = [] := by
    simp [List.replicate_succ]
  have hdrop : (List.replicate (m + 1) ' ' ++ d :: rest).dropWhile (· ≠ ' ') =
      List.replicate (m + 1) ' ' ++ d :: rest := by
    simp [List.replicate_succ]
  rw [htake, hdrop, List.takeWhile_append_of_pos hrep, List.dropWhile_append_of_pos hrep]
  simp [hd]

/-- **The columns can be found in the first row.** -/
theorem columns_row (h : ∀ c ∈ cols, Fits c ∧ Word c.2) (hlast : Word last) :
    columns cols.length (row cols last) = cols.map fun c => c.1 + 2 := by
  induction cols with
  | nil => rfl
  | cons c cols ih =>
    have hc := h c List.mem_cons_self
    have hcols : ∀ c ∈ cols, Fits c ∧ Word c.2 := fun c hc => h c (List.mem_cons_of_mem _ hc)
    have hfits : c.2.length ≤ c.1 := hc.1
    rw [row_cons, padEnd_append_gap, List.length_cons,
      columns_succ hc.2 (head?_row (fun c hc => (hcols c hc).2) hlast), ih hcols, List.map_cons]
    congr 1
    omega

/-- A row of which each cell fits and can be read back. -/
structure Tidy (ws : List ℕ) (r : List (List Char) × List Char) : Prop where
  length : r.1.length = ws.length
  cells : ∀ c ∈ ws.zip r.1, Fits c ∧ Plain c.2
  last : Plain r.2
  last_ne : r.2 ≠ []
  last_cr : r.2.getLast? ≠ some '\r'

theorem notMem_row {d : Char} (hd : d ≠ ' ') (h : ∀ c ∈ cols, d ∉ c.2) (hlast : d ∉ last) :
    d ∉ row cols last := by
  simp only [row, List.mem_append, List.mem_flatMap, padEnd, gap, List.mem_replicate, List.mem_cons,
    List.not_mem_nil, or_false, not_or, not_exists, not_and]
  refine ⟨fun c hc => ⟨⟨h c hc, fun _ => hd⟩, hd, hd⟩, hlast⟩

theorem lines_table {ws : List ℕ} {rows : List (List (List Char) × List Char)}
    (h : ∀ r ∈ rows, Tidy ws r) :
    lines (table ws rows) = rows.map fun r => row (ws.zip r.1) r.2 := by
  induction rows with
  | nil => rfl
  | cons r rows ih =>
    have hr := h r List.mem_cons_self
    have hlf : '\n' ∉ row (ws.zip r.1) r.2 :=
      notMem_row (by decide) (fun c hc => (hr.cells c hc).2.1) hr.last.1
    have hcr : (row (ws.zip r.1) r.2).getLast? ≠ some '\r' := by
      rw [row, List.getLast?_append_of_ne_nil _ hr.last_ne]
      exact hr.last_cr
    rw [table, List.flatMap_cons, List.append_assoc, List.singleton_append, lines_append_lf hlf,
      stripCr_eq_self_iff.2 hcr, List.map_cons]
    exact congrArg _ (ih fun r hr => h r (List.mem_cons_of_mem _ hr))

/-- **A table can be read.**  If the first row is words, cutting the others at its columns gives
back their cells. -/
theorem readTable_table {ws : List ℕ} {header : List (List Char) × List Char}
    {rows : List (List (List Char) × List Char)} (hheader : Tidy ws header)
    (hwords : (∀ cell ∈ header.1, Word cell) ∧ Word header.2) (hrows : ∀ r ∈ rows, Tidy ws r) :
    readTable ws.length (table ws (header :: rows)) = rows.map fun r => r.1 ++ [r.2] := by
  have hws : ∀ {r : List (List Char) × List Char}, Tidy ws r →
      (ws.zip r.1).map (fun c => c.1 + 2) = ws.map (· + 2) := by
    intro r hr
    have h := congrArg (List.map (· + 2)) (List.map_fst_zip hr.length.ge)
    rw [List.map_map] at h
    exact h
  have hcolumns : columns ws.length (row (ws.zip header.1) header.2) = ws.map (· + 2) := by
    rw [← hws hheader, ← columns_row, List.length_zip, hheader.length, Nat.min_self]
    · exact fun c hc => ⟨(hheader.cells c hc).1, hwords.1 _ (List.of_mem_zip hc).2⟩
    · exact hwords.2
  have hlines : lines (table ws (header :: rows)) =
      (header :: rows).map fun r => row (ws.zip r.1) r.2 := by
    refine lines_table fun r hr => ?_
    rcases List.mem_cons.1 hr with rfl | hr
    · exact hheader
    · exact hrows r hr
  rw [readTable, hlines, List.map_cons]
  show ((rows.map fun r => row (ws.zip r.1) r.2).map fun line => _) = _
  rw [hcolumns, List.map_map]
  refine List.map_congr_left fun r hr => ?_
  have hr := hrows r hr
  show (cut (ws.map (· + 2)) (row (ws.zip r.1) r.2)).map trimEnd = r.1 ++ [r.2]
  rw [← hws hr, map_trimEnd_cut_row hr.cells hr.last, List.map_snd_zip hr.length.le]

end Text

end Gritty
