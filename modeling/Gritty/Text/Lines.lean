import Mathlib.Algebra.Ring.Nat
import Mathlib.Data.List.Basic
import Mathlib.Tactic.Common

/-!
# Line-oriented text

The splitting functions of the standard library that line-oriented wire formats rest on, over
texts given as their characters:

* `Text.lines` : the lines of a text; a line ends at a line feed, and one carriage return right
  before the line feed belongs to the line end;
* `Text.splitOnce` : the text before and after the first occurrence of a character;
* `Text.rsplitOnce` : the text before and after the last one.

Splitting at *every* occurrence is `List.splitOn`.

The main results say which texts survive being joined with line feeds and split again, and that
splitting never gains characters.

* `lines_intercalate` : every line but the last loses a carriage return at its end.
* `notMem_of_mem_lines` : lines hold no line feed.
* `length_lines_le` : splitting into lines gains no characters, even when each line is charged its
  line feed.
-/

namespace Gritty

namespace Text

/-- The lines of a text.  The last line need not end in a line feed, and an empty rest after a
line feed is not a line. -/
def lines : List Char → List (List Char)
  | [] => []
  | '\n' :: cs => [] :: lines cs
  | '\r' :: '\n' :: cs => [] :: lines cs
  | c :: cs => (c :: (lines cs).headD []) :: (lines cs).tail

/-- Split at the first `d`. -/
def splitOnce (d : Char) : List Char → Option (List Char × List Char)
  | [] => none
  | c :: cs => if c = d then some ([], cs) else (splitOnce d cs).map fun kv => (c :: kv.1, kv.2)

/-- Split at the last `d`. -/
def rsplitOnce (d : Char) (cs : List Char) : Option (List Char × List Char) :=
  (splitOnce d cs.reverse).map fun vk => (vk.2.reverse, vk.1.reverse)

/-- A line without the carriage return that a line end would absorb. -/
def stripCr (l : List Char) : List Char := if l.getLast? = some '\r' then l.dropLast else l

/-! ### Lines -/

@[simp] theorem lines_nil : lines [] = [] := rfl

@[simp] theorem lines_lf (cs : List Char) : lines ('\n' :: cs) = [] :: lines cs := by
  rw [lines]

@[simp] theorem lines_crlf (cs : List Char) : lines ('\r' :: '\n' :: cs) = [] :: lines cs := by
  rw [lines]

theorem lines_cons {c : Char} {cs : List Char} (hc : c ≠ '\n')
    (hcr : ∀ cs', ¬ (c = '\r' ∧ cs = '\n' :: cs')) :
    lines (c :: cs) = (c :: (lines cs).headD []) :: (lines cs).tail := by
  rw [lines]
  · exact fun h => hc h
  · exact fun cs' h h' => hcr cs' ⟨h, h'⟩

theorem stripCr_cons {c d : Char} {l : List Char} :
    stripCr (c :: d :: l) = c :: stripCr (d :: l) := by
  simp only [stripCr, List.getLast?_cons_cons, List.dropLast_cons_cons]
  split <;> rfl

/-- The first line ends at the first line feed. -/
theorem lines_append_lf {x : List Char} (hx : '\n' ∉ x) (t : List Char) :
    lines (x ++ '\n' :: t) = stripCr x :: lines t := by
  induction x with
  | nil => simp [stripCr]
  | cons c x ih =>
    simp only [List.mem_cons, not_or] at hx
    by_cases hcr : c = '\r' ∧ x = []
    · obtain ⟨rfl, rfl⟩ := hcr
      simp [stripCr]
    · rw [List.cons_append, lines_cons (Ne.symm hx.1), ih hx.2]
      · cases x with
        | nil => simp_all [stripCr]
        | cons d x => simp [stripCr_cons]
      · rintro cs' ⟨rfl, h⟩
        cases x with
        | nil => exact hcr ⟨rfl, rfl⟩
        | cons d x =>
          obtain rfl : d = '\n' := by simpa using congrArg List.head? h
          exact hx.2 List.mem_cons_self

theorem lines_of_notMem {x : List Char} (hx : '\n' ∉ x) (hne : x ≠ []) : lines x = [x] := by
  induction x with
  | nil => exact absurd rfl hne
  | cons c x ih =>
    simp only [List.mem_cons, not_or] at hx
    rw [lines_cons (Ne.symm hx.1)]
    · cases x with
      | nil => rfl
      | cons d x => rw [ih hx.2 (by simp)]; rfl
    · rintro cs' ⟨-, rfl⟩
      exact hx.2 List.mem_cons_self

/-- Lines hold no line feed. -/
theorem notMem_of_mem_lines {t l : List Char} (h : l ∈ lines t) : '\n' ∉ l := by
  induction t using lines.induct generalizing l with
  | case1 => simp at h
  | case2 cs ih =>
    rw [lines_lf, List.mem_cons] at h
    rcases h with rfl | h
    · simp
    · exact ih h
  | case3 cs ih =>
    rw [lines_crlf, List.mem_cons] at h
    rcases h with rfl | h
    · simp
    · exact ih h
  | case4 c cs hc hcr ih =>
    rw [lines_cons hc fun cs' h => hcr cs' h.1 h.2, List.mem_cons] at h
    rcases h with rfl | h
    · rw [List.mem_cons, not_or]
      refine ⟨fun h => hc h.symm, ?_⟩
      cases hl : lines cs with
      | nil => simp
      | cons l ls => exact ih (by simp [hl])
    · exact ih (List.mem_of_mem_tail h)

/-- Splitting into lines gains no characters, even when each line is charged its line feed. -/
theorem length_lines_le (t : List Char) :
    ((lines t).map fun l => l.length + 1).sum ≤ t.length + 1 := by
  induction t using lines.induct with
  | case1 => simp
  | case2 cs ih =>
    simp only [lines_lf, List.map_cons, List.sum_cons, List.length_cons, List.length_nil]
    omega
  | case3 cs ih =>
    simp only [lines_crlf, List.map_cons, List.sum_cons, List.length_cons, List.length_nil]
    omega
  | case4 c cs hc hcr ih =>
    rw [lines_cons hc fun cs' h => hcr cs' h.1 h.2]
    cases hl : lines cs with
    | nil => simp
    | cons l ls =>
      simp only [hl, List.map_cons, List.sum_cons] at ih
      simp only [List.headD_cons, List.tail_cons, List.map_cons, List.sum_cons, List.length_cons]
      omega

/-- **Joining lines and splitting them again.**  Every line but the last loses a carriage return
at its end. -/
theorem lines_intercalate {xs : List (List Char)} (hlf : ∀ x ∈ xs, '\n' ∉ x)
    (hne : ∀ x ∈ xs, x ≠ []) :
    lines (['\n'].intercalate xs) = xs.dropLast.map stripCr ++ xs.getLast?.toList := by
  induction xs with
  | nil => simp
  | cons x xs ih =>
    have hx := hlf x List.mem_cons_self
    cases xs with
    | nil => simpa using lines_of_notMem hx (hne x List.mem_cons_self)
    | cons y ys =>
      rw [List.intercalate_cons_cons, List.append_assoc, List.singleton_append, lines_append_lf hx,
        ih (fun z hz => hlf z (List.mem_cons_of_mem _ hz))
          fun z hz => hne z (List.mem_cons_of_mem _ hz)]
      simp

theorem dropLast_append_getLast? {α : Type*} (xs : List α) :
    xs.dropLast ++ xs.getLast?.toList = xs := by
  cases hl : xs.getLast? with
  | none => simp_all
  | some x =>
    obtain ⟨init, rfl⟩ := List.getLast?_eq_some_iff.1 hl
    simp

theorem stripCr_eq_self_iff {l : List Char} : stripCr l = l ↔ l.getLast? ≠ some '\r' := by
  unfold stripCr
  split
  · next h =>
    obtain ⟨l, rfl⟩ := List.getLast?_eq_some_iff.1 h
    simp
  · next h => simpa using h

/-- A carriage return at the end of a line is at the end of the line's second part. -/
theorem stripCr_append_cons {k v : List Char} {d : Char} (hd : d ≠ '\r') :
    stripCr (k ++ d :: v) = k ++ d :: stripCr v := by
  cases v with
  | nil => simp [stripCr, hd]
  | cons c v =>
    simp only [stripCr, List.getLast?_append, List.getLast?_cons_cons]
    split <;> split <;> simp_all [List.dropLast_append_of_ne_nil]

/-! ### Splitting once -/

theorem splitOnce_eq_some_iff {d : Char} {cs k v : List Char} :
    splitOnce d cs = some (k, v) ↔ d ∉ k ∧ cs = k ++ d :: v := by
  induction cs generalizing k with
  | nil => simp [splitOnce]
  | cons c cs ih =>
    rw [splitOnce]
    split
    · next h =>
      subst h
      constructor
      · intro h
        obtain ⟨rfl, rfl⟩ := Prod.mk.inj (Option.some.inj h)
        simp
      · rintro ⟨hk, h⟩
        cases k with
        | nil => simpa using h
        | cons e k => simp_all
    · next hc =>
      rw [Option.map_eq_some_iff]
      constructor
      · rintro ⟨⟨k', v'⟩, h, he⟩
        obtain ⟨rfl, rfl⟩ := Prod.mk.inj he
        obtain ⟨hk, rfl⟩ := ih.1 h
        exact ⟨by simp [hk, Ne.symm hc], rfl⟩
      · rintro ⟨hk, h⟩
        cases k with
        | nil => simp_all
        | cons e k =>
          obtain ⟨rfl, rfl⟩ : c = e ∧ cs = k ++ d :: v := by simpa using h
          simp only [List.mem_cons, not_or] at hk
          exact ⟨(k, v), ih.2 ⟨hk.2, rfl⟩, rfl⟩

theorem splitOnce_append {d : Char} {k : List Char} (hk : d ∉ k) (v : List Char) :
    splitOnce d (k ++ d :: v) = some (k, v) := splitOnce_eq_some_iff.2 ⟨hk, rfl⟩

theorem splitOnce_eq_none_iff {d : Char} {cs : List Char} : splitOnce d cs = none ↔ d ∉ cs := by
  constructor
  · intro h hd
    obtain ⟨k, v, rfl, hk⟩ := List.eq_append_cons_of_mem hd
    simp [splitOnce_append hk] at h
  · intro hd
    cases h : splitOnce d cs with
    | none => rfl
    | some kv =>
      obtain ⟨-, rfl⟩ := splitOnce_eq_some_iff.1 h
      simp at hd

theorem rsplitOnce_eq_some_iff {d : Char} {cs k v : List Char} :
    rsplitOnce d cs = some (k, v) ↔ d ∉ v ∧ cs = k ++ d :: v := by
  rw [rsplitOnce, Option.map_eq_some_iff]
  constructor
  · rintro ⟨⟨v', k'⟩, h, he⟩
    obtain ⟨rfl, rfl⟩ := Prod.mk.inj he
    obtain ⟨hv, hcs⟩ := splitOnce_eq_some_iff.1 h
    exact ⟨by simpa using hv, by simpa using congrArg List.reverse hcs⟩
  · rintro ⟨hv, rfl⟩
    have h := splitOnce_append (k := v.reverse) (by simpa using hv) k.reverse
    exact ⟨(v.reverse, k.reverse), by simpa using h, by simp⟩

theorem rsplitOnce_eq_none_iff {d : Char} {cs : List Char} : rsplitOnce d cs = none ↔ d ∉ cs := by
  rw [rsplitOnce, Option.map_eq_none_iff, splitOnce_eq_none_iff, List.mem_reverse]

/-! ### Splitting everywhere -/

theorem notMem_of_mem_splitOn {d : Char} {cs l : List Char} (h : l ∈ cs.splitOn d) : d ∉ l := by
  induction cs generalizing l with
  | nil => simp_all
  | cons c cs ih =>
    rw [List.splitOn_cons_eq_if_modifyHead] at h
    split at h
    · rcases List.mem_cons.1 h with rfl | h
      · simp
      · exact ih h
    · next hc =>
      cases hs : cs.splitOn d with
      | nil => simp [hs] at h
      | cons p ps =>
        rw [hs, List.modifyHead_cons] at h
        rcases List.mem_cons.1 h with rfl | h
        · have hp : d ∉ p := ih (by simp [hs])
          rw [List.mem_cons, not_or]
          exact ⟨fun h => hc (by simp [h]), hp⟩
        · exact ih (by simp [hs, h])

theorem subset_intercalate {sep l : List Char} {ls : List (List Char)} (h : l ∈ ls) :
    l ⊆ sep.intercalate ls := by
  intro c hc
  induction ls with
  | nil => cases h
  | cons p ps ih =>
    cases ps with
    | nil =>
      obtain rfl := List.mem_singleton.1 h
      simpa using hc
    | cons q qs =>
      rw [List.intercalate_cons_cons, List.append_assoc]
      rcases List.mem_cons.1 h with rfl | h
      · exact List.mem_append_left _ hc
      · exact List.mem_append_right _ (List.mem_append_right _ (ih h))

theorem notMem_intercalate {sep : List Char} {ls : List (List Char)} {c : Char} (hsep : c ∉ sep)
    (h : ∀ l ∈ ls, c ∉ l) : c ∉ sep.intercalate ls := by
  induction ls with
  | nil => simp
  | cons p ps ih =>
    have hp := h p List.mem_cons_self
    have hps := ih fun l hl => h l (List.mem_cons_of_mem _ hl)
    cases ps with
    | nil => simpa using hp
    | cons q qs => simp_all [List.intercalate_cons_cons]

theorem subset_of_mem_splitOn {d : Char} {cs l : List Char} (h : l ∈ cs.splitOn d) : l ⊆ cs := by
  have hcs : [d].intercalate (cs.splitOn d) = cs := List.intercalate_splitOn d
  exact hcs ▸ subset_intercalate h

/-- Joining puts one separator between any two parts. -/
theorem length_intercalate {d : Char} {ls : List (List Char)} (h : ls ≠ []) :
    ([d].intercalate ls).length + 1 = (ls.map fun l => l.length + 1).sum := by
  induction ls with
  | nil => exact absurd rfl h
  | cons l ls ih =>
    cases ls with
    | nil => simp
    | cons l' ls =>
      have := ih (by simp)
      simp only [List.intercalate_cons_cons, List.length_append, List.length_singleton,
        List.map_cons, List.sum_cons] at this ⊢
      omega

theorem length_intercalate_le (d : Char) (ls : List (List Char)) :
    ([d].intercalate ls).length ≤ (ls.map fun l => l.length + 1).sum := by
  by_cases h : ls = []
  · simp [h]
  · have := length_intercalate (d := d) h
    omega

end Text

end Gritty
