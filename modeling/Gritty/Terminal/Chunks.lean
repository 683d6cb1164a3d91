import Gritty.Terminal.Escape

/-!
# Reads cut anywhere

`process` works on one read, and the terminal cuts what is typed into reads as it likes.  `scan`
goes over the same bytes one by one and collects nothing: it gives the *atoms*, the data bytes and
the commands in their order.  The actions of `process` spell the atoms of `scan`, and lists of
actions that spell the same atoms are the same list once adjacent data actions are merged.

## Main definitions

* `spell` : the atoms of a list of actions.
* `scan` : the processor, byte by byte.
* `merge` : adjacent data actions become one.
* `feed` : one read after the other.

## Main results

* `scan_append` : a scan can be cut anywhere.
* `spell_process`, `spell_feed` : one read, and many, spell what is scanned.
* `merge_eq_group` : what is merged depends on the atoms only.
* `merge_feed` : read boundaries do not matter.
-/

namespace Gritty

namespace Terminal

/-- A piece of what a list of actions spells. -/
inductive Atom where
  | byte (b : UInt8)
  | detach
  | suspend
  | help
  deriving DecidableEq

/-- The atoms an action stands for. -/
def EscapeAction.atoms : EscapeAction → List Atom
  | .data bytes => bytes.map .byte
  | .detach => [.detach]
  | .suspend => [.suspend]
  | .help => [.help]

/-- What a list of actions spells. -/
def spell (actions : List EscapeAction) : List Atom :=
  actions.flatMap EscapeAction.atoms

@[simp] theorem spell_append (as bs : List EscapeAction) :
    spell (as ++ bs) = spell as ++ spell bs := by
  simp [spell]

@[simp] theorem spell_nil : spell [] = [] := rfl

@[simp] theorem spell_cons (a : EscapeAction) (as : List EscapeAction) :
    spell (a :: as) = a.atoms ++ spell as := by
  simp [spell]

theorem detach_mem_spell {actions : List EscapeAction} :
    Atom.detach ∈ spell actions ↔ EscapeAction.detach ∈ actions := by
  induction actions with
  | nil => simp
  | cons a as ih => cases a <;> simp [EscapeAction.atoms, ih]

/-- The command a byte stands for after a tilde at the beginning of a line. -/
def command (b : UInt8) : Option Atom :=
  if b = dot then some .detach
  else if b = ctrlZ then some .suspend
  else if b = question then some .help
  else if b = tilde then some (.byte tilde)
  else none

namespace EscapeState

/-- What one more byte adds. -/
def emitted (st : EscapeState) (b : UInt8) : List Atom :=
  match st with
  | .normal => [.byte b]
  | .afterNewline => if b = tilde then [] else [.byte b]
  | .afterTilde => ((command b).map fun a => [a]).getD [.byte tilde, .byte b]

/-- The state after one more byte. -/
def next (st : EscapeState) (b : UInt8) : EscapeState :=
  if st = .afterNewline ∧ b = tilde then .afterTilde
  else if b = lf ∨ b = cr then .afterNewline
  else .normal

/-- The bytes one by one, until a detach. -/
def scan (st : EscapeState) : List UInt8 → List Atom × EscapeState
  | [] => ([], st)
  | b :: input =>
    if st = .afterTilde ∧ b = dot then ([.detach], .afterTilde)
    else
      let rest := scan (st.next b) input
      (st.emitted b ++ rest.1, rest.2)

/-! ### The actions of one read -/

@[simp] theorem spell_flush (actions : List EscapeAction) (dataBuf : List UInt8) :
    spell (flush actions dataBuf) = spell actions ++ dataBuf.map .byte := by
  unfold flush
  split_ifs with h
  · simp [List.isEmpty_iff.mp h]
  · simp [EscapeAction.atoms]

@[simp] theorem data_nil_mem_flush {actions : List EscapeAction} {dataBuf : List UInt8} :
    .data [] ∈ flush actions dataBuf ↔ .data [] ∈ actions := by
  unfold flush
  split_ifs with h
  · rfl
  · simpa using fun he => absurd (by simp [← he]) h

theorem processFrom_dot (actions : List EscapeAction) (dataBuf input : List UInt8) :
    processFrom .afterTilde actions dataBuf (dot :: input) =
      (flush actions dataBuf ++ [.detach], .afterTilde) :=
  rfl

theorem processFrom_cons {st : EscapeState} {b : UInt8} (h : ¬(st = .afterTilde ∧ b = dot))
    (actions : List EscapeAction) (dataBuf : List UInt8) :
    ∃ actions' dataBuf',
      (∀ input, processFrom st actions dataBuf (b :: input) =
        processFrom (st.next b) actions' dataBuf' input) ∧
      spell actions' ++ dataBuf'.map .byte =
        spell actions ++ dataBuf.map .byte ++ st.emitted b ∧
      (.data [] ∈ actions' → .data [] ∈ actions) := by
  cases st with
  | normal =>
    refine ⟨actions, dataBuf ++ [b], fun input => ?_, by simp [emitted], id⟩
    by_cases hb : b = lf ∨ b = cr <;> simp [processFrom, next, hb]
  | afterNewline =>
    by_cases ht : b = tilde
    · exact ⟨flush actions dataBuf, [], fun input => by simp [processFrom, next, ht],
        by simp [emitted, ht], data_nil_mem_flush.mp⟩
    · refine ⟨actions, dataBuf ++ [b], fun input => ?_, by simp [emitted, ht], id⟩
      by_cases hb : b = lf ∨ b = cr <;> simp [processFrom, next, ht, hb]
  | afterTilde =>
    have hd : b ≠ dot := fun hb => h ⟨rfl, hb⟩
    by_cases hz : b = ctrlZ
    · subst hz
      exact ⟨flush actions dataBuf ++ [.suspend], [], fun _ => rfl,
        by simp [emitted, command, hd, EscapeAction.atoms], by simp⟩
    by_cases hq : b = question
    · subst hq
      exact ⟨flush actions dataBuf ++ [.help], [], fun _ => rfl,
        by simp [emitted, command, hd, hz, EscapeAction.atoms], by simp⟩
    by_cases ht : b = tilde
    · subst ht
      exact ⟨actions, dataBuf ++ [tilde], fun _ => rfl,
        by simp [emitted, command, hd, hz, hq], id⟩
    refine ⟨actions, dataBuf ++ [tilde, b], fun input => ?_,
      by simp [emitted, command, hd, hz, hq, ht], id⟩
    by_cases hb : b = lf ∨ b = cr <;> simp [processFrom, next, hd, hz, hq, ht, hb]

theorem spell_processFrom (st : EscapeState) (actions : List EscapeAction)
    (dataBuf input : List UInt8) :
    spell (processFrom st actions dataBuf input).1 =
        spell actions ++ dataBuf.map .byte ++ (scan st input).1 ∧
      (processFrom st actions dataBuf input).2 = (scan st input).2 := by
  induction input generalizing st actions dataBuf with
  | nil => simp [processFrom, scan]
  | cons b input ih =>
    by_cases hd : st = .afterTilde ∧ b = dot
    · obtain ⟨rfl, rfl⟩ := hd
      simp [processFrom_dot, scan, EscapeAction.atoms]
    · obtain ⟨actions', dataBuf', hround, hspell, -⟩ := processFrom_cons hd actions dataBuf
      obtain ⟨hatoms, hstate⟩ := ih (st.next b) actions' dataBuf'
      rw [hround, scan, if_neg hd, hatoms, hstate, hspell]
      exact ⟨List.append_assoc _ _ _, rfl⟩

theorem spell_process (st : EscapeState) (input : List UInt8) :
    spell (process st input).1 = (scan st input).1 ∧ (process st input).2 = (scan st input).2 := by
  simpa [process] using spell_processFrom st [] [] input

theorem data_nil_notMem_processFrom (st : EscapeState) (actions : List EscapeAction)
    (dataBuf input : List UInt8) (h : .data [] ∉ actions) :
    .data [] ∉ (processFrom st actions dataBuf input).1 := by
  induction input generalizing st actions dataBuf with
  | nil => simpa [processFrom] using h
  | cons b input ih =>
    by_cases hd : st = .afterTilde ∧ b = dot
    · obtain ⟨rfl, rfl⟩ := hd
      simpa [processFrom_dot] using h
    · obtain ⟨actions', dataBuf', hround, -, hnil⟩ := processFrom_cons hd actions dataBuf
      rw [hround]
      exact ih _ _ _ fun hmem => h (hnil hmem)

theorem data_nil_notMem_process (st : EscapeState) (input : List UInt8) :
    .data [] ∉ (process st input).1 :=
  data_nil_notMem_processFrom st [] [] input (by simp)

/-! ### One byte after the other -/

theorem emitted_detach {st : EscapeState} {b : UInt8} (h : ¬(st = .afterTilde ∧ b = dot)) :
    .detach ∉ st.emitted b := by
  cases st with
  | normal => simp [emitted]
  | afterNewline => by_cases hb : b = tilde <;> simp [emitted, hb]
  | afterTilde =>
    have hd : b ≠ dot := fun hb => h ⟨rfl, hb⟩
    unfold emitted command
    split_ifs <;> simp

/-- The bytes after a detach are not looked at, and without one the scan goes on from where it
was. -/
theorem scan_append (st : EscapeState) (u v : List UInt8) :
    scan st (u ++ v) =
      if .detach ∈ (scan st u).1 then scan st u
      else ((scan st u).1 ++ (scan (scan st u).2 v).1, (scan (scan st u).2 v).2) := by
  induction u generalizing st with
  | nil => simp [scan]
  | cons b u ih =>
    by_cases hd : st = .afterTilde ∧ b = dot
    · simp [scan, hd]
    · simp only [List.cons_append, scan, hd, if_false, ih, List.mem_append,
        emitted_detach hd, false_or]
      split_ifs <;> simp

theorem processFrom_append (st : EscapeState) (actions : List EscapeAction)
    (dataBuf u v : List UInt8) (h : .detach ∈ (scan st u).1) :
    processFrom st actions dataBuf (u ++ v) = processFrom st actions dataBuf u := by
  induction u generalizing st actions dataBuf with
  | nil => simp [scan] at h
  | cons b u ih =>
    by_cases hd : st = .afterTilde ∧ b = dot
    · obtain ⟨rfl, rfl⟩ := hd
      rfl
    · obtain ⟨actions', dataBuf', hround, -, -⟩ := processFrom_cons hd actions dataBuf
      have hrest : .detach ∈ (scan (st.next b) u).1 := by
        simpa [scan, hd, emitted_detach hd] using h
      rw [List.cons_append, hround, hround]
      exact ih _ _ _ hrest

theorem process_append {st : EscapeState} {u : List UInt8} (h : .detach ∈ (scan st u).1)
    (v : List UInt8) : process st (u ++ v) = process st u :=
  processFrom_append st [] [] u v h

/-- A detach ends the scan. -/
theorem eq_nil_of_scan_eq {st : EscapeState} {input : List UInt8} {before after : List Atom}
    (h : (scan st input).1 = before ++ .detach :: after) : after = [] := by
  induction input generalizing st before with
  | nil => simp [scan] at h
  | cons b input ih =>
    by_cases hd : st = .afterTilde ∧ b = dot
    · rw [scan, if_pos hd] at h
      cases before with
      | nil => simpa using h.symm
      | cons a before => simp at h
    · rw [scan, if_neg hd] at h
      obtain ⟨more, hmore, hrest⟩ | ⟨more, hmore, hrest⟩ := List.append_eq_append_iff.mp h
      · exact ih hrest
      · cases more with
        | nil =>
          have hnil : (scan (st.next b) input).1 = [] ++ .detach :: after := by
            simpa using hrest.symm
          exact ih hnil
        | cons a more =>
          obtain ⟨rfl, -⟩ : Atom.detach = a ∧ _ := by simpa using hrest
          exact absurd (by simp [hmore]) (emitted_detach hd)

end EscapeState

/-! ### Merging -/

/-- Put an action in front; the data of two data actions in a row is joined. -/
def glue (a : EscapeAction) (rest : List EscapeAction) : List EscapeAction :=
  match a, rest with
  | .data xs, .data ys :: rest => .data (xs ++ ys) :: rest
  | a, rest => a :: rest

/-- Adjacent data actions become one. -/
def merge (actions : List EscapeAction) : List EscapeAction :=
  actions.foldr glue []

/-- The merged actions that spell the given atoms. -/
def group : List Atom → List EscapeAction
  | [] => []
  | .byte b :: rest => glue (.data [b]) (group rest)
  | .detach :: rest => .detach :: group rest
  | .suspend :: rest => .suspend :: group rest
  | .help :: rest => .help :: group rest

theorem glue_glue (xs ys : List UInt8) (rest : List EscapeAction) :
    glue (.data xs) (glue (.data ys) rest) = glue (.data (xs ++ ys)) rest := by
  cases rest with
  | nil => rfl
  | cons a rest => cases a <;> simp [glue]

theorem group_bytes (bytes : List UInt8) (atoms : List Atom) (h : bytes ≠ []) :
    group (bytes.map .byte ++ atoms) = glue (.data bytes) (group atoms) := by
  induction bytes with
  | nil => exact absurd rfl h
  | cons b bytes ih =>
    by_cases hb : bytes = []
    · simp [hb, group]
    · simp [group, ih hb, glue_glue]

theorem merge_eq_group (actions : List EscapeAction) (h : .data [] ∉ actions) :
    merge actions = group (spell actions) := by
  induction actions with
  | nil => rfl
  | cons a as ih =>
    obtain ⟨ha, has⟩ : EscapeAction.data [] ≠ a ∧ .data [] ∉ as := by simpa using h
    change glue a (merge as) = group (a.atoms ++ spell as)
    rw [ih has]
    cases a with
    | data bytes =>
      have hb : bytes ≠ [] := fun hb => ha (by rw [hb])
      exact (group_bytes bytes _ hb).symm
    | detach => rfl
    | suspend => rfl
    | help => rfl

namespace EscapeState

/-! ### A run of reads -/

/-- The reads in turn, until one of them has a detach. -/
def feed (state : EscapeState) : List (List UInt8) → List EscapeAction × EscapeState
  | [] => ([], state)
  | input :: inputs =>
    let read := process state input
    if .detach ∈ read.1 then read
    else
      let rest := feed read.2 inputs
      (read.1 ++ rest.1, rest.2)

theorem spell_feed (st : EscapeState) (inputs : List (List UInt8)) :
    spell (feed st inputs).1 = (scan st inputs.flatten).1 ∧
      (feed st inputs).2 = (scan st inputs.flatten).2 := by
  induction inputs generalizing st with
  | nil => simp [feed, scan]
  | cons input inputs ih =>
    obtain ⟨hspell, hstate⟩ := spell_process st input
    have hdetach : EscapeAction.detach ∈ (process st input).1 ↔ .detach ∈ (scan st input).1 := by
      rw [← detach_mem_spell, hspell]
    simp only [feed, List.flatten_cons, scan_append, hdetach]
    split_ifs with hd
    · exact ⟨hspell, hstate⟩
    · obtain ⟨hrest, hfinal⟩ := ih (scan st input).2
      simp only [spell_append, hstate, hspell, hrest, hfinal, and_self]

theorem data_nil_notMem_feed (st : EscapeState) (inputs : List (List UInt8)) :
    .data [] ∉ (feed st inputs).1 := by
  induction inputs generalizing st with
  | nil => simp [feed]
  | cons input inputs ih =>
    simp only [feed]
    split_ifs
    · exact data_nil_notMem_process st input
    · simp [data_nil_notMem_process, ih]

/-- **Read boundaries do not matter.**  However the input is cut into reads, the merged actions
are those of one read of all of it, and so is the final state. -/
theorem merge_feed (st : EscapeState) (inputs : List (List UInt8)) :
    merge (feed st inputs).1 = merge (process st inputs.flatten).1 ∧
      (.detach ∉ (process st inputs.flatten).1 →
        (feed st inputs).2 = (process st inputs.flatten).2) := by
  obtain ⟨hfeed, hlast⟩ := spell_feed st inputs
  obtain ⟨hprocess, hfinal⟩ := spell_process st inputs.flatten
  constructor
  · rw [merge_eq_group _ (data_nil_notMem_feed st inputs),
      merge_eq_group _ (data_nil_notMem_process st _), hfeed, hprocess]
  · intro _
    rw [hlast, hfinal]

example : merge (feed .new [[0x61, lf], [tilde], [], [0x62, lf, tilde], [question, 0x63]]).1 =
    [.data [0x61, lf, tilde, 0x62, lf], .help, .data [0x63]] := by decide

end EscapeState

end Terminal

end Gritty
