import Gritty.Terminal.Chunks
import Mathlib.Data.Nat.Find

/-!
# The rule of the escape sequences

Which positions of the input are escapes, and what every position contributes, is said here without
a machine: a position is judged by the byte before it and the byte after it.  The state of the
processor in front of a position is a function of the same bytes, and `process` does what the rule
says.

## Main definitions

* `IsEscape`, `IsDetach` : the positions where an escape sequence begins.
* `contribution` : what a position contributes.
* `stateAt` : the state of the processor in front of a position.
* `Recognized` : what the rule says of the actions on an input, and of the final state.

## Main results

* `isEscape_iff`, `stateAt_eq_afterTilde` : the rule and the machine judge positions alike.
* `scan_new` : a scan contributes what its positions do.
* `IsDetach.take` : an escape is decided by the bytes up to its second one.
* `process_new` : a new processor does with one read what the rule says.
-/

namespace Gritty

namespace Terminal

/-- Position `i` is the first of a line. -/
def AtLineStart (w : List UInt8) (i : ℕ) : Prop :=
  i = 0 ∨ w[i - 1]? = some cr ∨ w[i - 1]? = some lf

instance (w : List UInt8) (i : ℕ) : Decidable (AtLineStart w i) :=
  inferInstanceAs (Decidable (_ ∨ _ ∨ _))

/-- Position `i` is a tilde that begins a line. -/
def OpenTilde (w : List UInt8) (i : ℕ) : Prop :=
  w[i]? = some tilde ∧ AtLineStart w i

instance (w : List UInt8) (i : ℕ) : Decidable (OpenTilde w i) :=
  inferInstanceAs (Decidable (_ ∧ _))

/-- Position `i` is an escape. -/
def IsEscape (w : List UInt8) (i : ℕ) : Prop :=
  OpenTilde w i ∧ ∃ c ∈ [dot, ctrlZ, question, tilde], w[i + 1]? = some c

instance (w : List UInt8) (i : ℕ) : Decidable (IsEscape w i) :=
  inferInstanceAs (Decidable (_ ∧ _))

/-- The escape at position `i` is `~.`. -/
def IsDetach (w : List UInt8) (i : ℕ) : Prop :=
  IsEscape w i ∧ w[i + 1]? = some dot

/-- What position `i` contributes: an escape its command, the second byte of an escape nothing, a
tilde that begins the last line and is all there is of it nothing yet, and any other byte
itself. -/
def contribution (w : List UInt8) (i : ℕ) : List Atom :=
  if IsEscape w i then (w[i + 1]?.bind command).toList
  else if 0 < i ∧ IsEscape w (i - 1) then []
  else if OpenTilde w i ∧ i + 1 = w.length then []
  else (w[i]?.map .byte).toList

/-- The state of a new processor in front of position `k`. -/
def stateAt (w : List UInt8) (k : ℕ) : EscapeState :=
  if AtLineStart w k then .afterNewline
  else if OpenTilde w (k - 1) then .afterTilde
  else .normal

/-- The first position the processor is not done with. -/
def pending (w : List UInt8) (k : ℕ) : ℕ :=
  if stateAt w k = .afterTilde then k - 1 else k

/-- The positions the processor takes: all up to the first `~.`. -/
def Stops (w : List UInt8) (stop : ℕ) : Prop :=
  (∀ j, j + 1 < stop → ¬IsDetach w j) ∧
    (stop = w.length ∧ (∀ j, ¬IsDetach w j) ∨ ∃ i, stop = i + 1 ∧ IsDetach w i)

theorem command_isSome {b : UInt8} :
    (command b).isSome ↔ b ∈ [dot, ctrlZ, question, tilde] := by
  unfold command
  split_ifs <;> simp_all

theorem isEscape_iff {w : List UInt8} {i : ℕ} {b : UInt8} (h : w[i + 1]? = some b) :
    IsEscape w i ↔ OpenTilde w i ∧ (command b).isSome := by
  simp [IsEscape, h, command_isSome]

theorem not_isEscape_of_not_openTilde {w : List UInt8} {i : ℕ} (h : ¬OpenTilde w i) :
    ¬IsEscape w i :=
  fun he => h he.1

theorem not_atLineStart_succ {w : List UInt8} {i : ℕ} (h : w[i]? = some tilde) :
    ¬AtLineStart w (i + 1) := by
  rintro (h' | h' | h')
  · omega
  · simp [h, show tilde ≠ cr by decide] at h'
  · simp [h, show tilde ≠ lf by decide] at h'

theorem atLineStart_succ {w : List UInt8} {i : ℕ} {b : UInt8} (h : w[i]? = some b) :
    AtLineStart w (i + 1) ↔ b = lf ∨ b = cr := by
  simp [AtLineStart, h, or_comm]

theorem stateAt_succ {w : List UInt8} {k : ℕ} {b : UInt8} (h : w[k]? = some b) :
    stateAt w (k + 1) = (stateAt w k).next b := by
  have hopen : OpenTilde w k ↔ AtLineStart w k ∧ b = tilde := by
    simp [OpenTilde, h, and_comm]
  have hnl : AtLineStart w k ∧ b = tilde → ¬(b = lf ∨ b = cr) := by
    rintro ⟨-, rfl⟩
    decide
  simp only [stateAt, atLineStart_succ h, EscapeState.next, Nat.add_sub_cancel, hopen]
  split_ifs <;> simp_all

/-- A tilde is held back exactly behind a tilde that begins a line. -/
theorem stateAt_eq_afterTilde {w : List UInt8} {k : ℕ} :
    stateAt w k = .afterTilde ↔ 0 < k ∧ OpenTilde w (k - 1) := by
  have hnot : 0 < k → OpenTilde w (k - 1) → ¬AtLineStart w k := by
    intro hk ho
    have := not_atLineStart_succ ho.1
    rwa [Nat.sub_add_cancel hk] at this
  have hzero : k = 0 → AtLineStart w k := Or.inl
  unfold stateAt
  split_ifs with hl ho
  · simpa using fun hk ho => hnot hk ho hl
  · simpa [ho] using Nat.pos_of_ne_zero fun hk => hl (hzero hk)
  · simp [ho]

/-! ### What the positions contribute -/

theorem contribution_plain {w : List UInt8} {k : ℕ} {b : UInt8} (h : w[k]? = some b)
    (hk : ¬OpenTilde w k) (hprev : ¬(0 < k ∧ OpenTilde w (k - 1))) :
    contribution w k = [.byte b] := by
  have hnot : ¬(0 < k ∧ IsEscape w (k - 1)) := fun ⟨hpos, he⟩ => hprev ⟨hpos, he.1⟩
  rw [contribution, if_neg (not_isEscape_of_not_openTilde hk), if_neg hnot,
    if_neg fun h' => hk h'.1]
  simp [h]

theorem not_isEscape_pred {w : List UInt8} {i : ℕ} (ho : OpenTilde w i) :
    ¬(0 < i ∧ IsEscape w (i - 1)) := by
  rintro ⟨hpos, he⟩
  have hline := not_atLineStart_succ he.1.1
  rw [Nat.sub_add_cancel hpos] at hline
  exact hline ho.2

theorem contribution_tilde {w : List UInt8} {i : ℕ} {b : UInt8} (ho : OpenTilde w i)
    (h : w[i + 1]? = some b) :
    contribution w i = ((command b).map fun a => [a]).getD [.byte tilde] ∧
      contribution w (i + 1) = if (command b).isSome then [] else [.byte b] := by
  have hlen : i + 1 < w.length := (List.getElem?_eq_some_iff.mp h).1
  have hsucc : ¬OpenTilde w (i + 1) := fun h' => not_atLineStart_succ ho.1 h'.2
  have he : IsEscape w i ↔ (command b).isSome := by simp [isEscape_iff h, ho]
  constructor
  · rw [contribution, if_neg (not_isEscape_pred ho)]
    cases hc : command b with
    | some a => simp [he, h, hc]
    | none => simp [he, hc, ho.1, show i + 1 ≠ w.length by omega]
  · rw [contribution, if_neg (not_isEscape_of_not_openTilde hsucc), Nat.add_sub_cancel]
    cases hc : command b with
    | some a => simp [he, hc]
    | none => simp [he, hc, hsucc, h]

theorem contribution_last {w : List UInt8} {i : ℕ} (ho : OpenTilde w i) (h : i + 1 = w.length) :
    contribution w i = [] := by
  have hend : ¬IsEscape w i := by
    rintro ⟨-, c, -, hc⟩
    have := (List.getElem?_eq_some_iff.mp hc).1
    omega
  rw [contribution, if_neg hend, if_neg (not_isEscape_pred ho), if_pos ⟨ho, h⟩]

theorem emitted_of_not_openTilde {w : List UInt8} {k : ℕ} {b : UInt8} (h : w[k]? = some b)
    (ho : ¬OpenTilde w k) (hst : stateAt w k ≠ .afterTilde) :
    (stateAt w k).emitted b = [.byte b] := by
  unfold stateAt at hst ⊢
  split_ifs at hst ⊢ with hline hprev
  · have hb : b ≠ tilde := fun hb => ho ⟨hb ▸ h, hline⟩
    simp [EscapeState.emitted, hb]
  · exact absurd rfl hst
  · rfl

/-! ### The scan of a new processor -/

/-- What the positions from `i` up to `stop` contribute. -/
def between (w : List UInt8) (i stop : ℕ) : List Atom :=
  (List.range' i (stop - i)).flatMap (contribution w)

theorem between_of_le {w : List UInt8} {i stop : ℕ} (h : stop ≤ i) : between w i stop = [] := by
  simp [between, Nat.sub_eq_zero_of_le h]

theorem between_of_lt {w : List UInt8} {i stop : ℕ} (h : i < stop) :
    between w i stop = contribution w i ++ between w (i + 1) stop := by
  have hlen : stop - i = (stop - (i + 1)) + 1 := by omega
  simp [between, hlen, List.range'_succ]

theorem between_succ {w : List UInt8} {i stop : ℕ} (h : i ≤ stop) :
    between w i (stop + 1) = between w i stop ++ contribution w stop := by
  have hlen : stop + 1 - i = (stop - i) + 1 := by omega
  have hstop : i + (stop - i) = stop := by omega
  simp [between, hlen, List.range'_concat, hstop]

/-- With no `~.` before position `i`, the positions to take reach over it. -/
theorem Stops.lt {w : List UInt8} {stop i : ℕ} (h : Stops w stop)
    (hbefore : ∀ j < i, ¬IsDetach w j) (hi : i < w.length) : i < stop := by
  obtain ⟨rfl, -⟩ | ⟨j, rfl, hj⟩ := h.2
  · exact hi
  · by_contra hle
    exact hbefore j (by omega) hj

theorem Stops.between_pending {w : List UInt8} {stop : ℕ} (hstop : Stops w stop) :
    between w (pending w w.length) stop = [] := by
  have hle : stop ≤ w.length := by
    obtain ⟨rfl, -⟩ | ⟨j, rfl, hj⟩ := hstop.2
    · omega
    · have := (List.getElem?_eq_some_iff.mp hj.2).1
      omega
  by_cases hst : stateAt w w.length = .afterTilde
  · obtain ⟨hpos, ho⟩ := stateAt_eq_afterTilde.mp hst
    rw [pending, if_pos hst]
    by_cases hlt : w.length - 1 < stop
    · rw [between_of_lt hlt, contribution_last ho (by omega), between_of_le (by omega)]
      rfl
    · rw [between_of_le (by omega)]
  · rw [pending, if_neg hst, between_of_le hle]

theorem scan_drop {w : List UInt8} {stop : ℕ} (hstop : Stops w stop) {k : ℕ}
    (hk : k ≤ w.length) (hbefore : ∀ j < pending w k, ¬IsDetach w j) :
    ((stateAt w k).scan (w.drop k)).1 = between w (pending w k) stop := by
  induction hn : w.length - k generalizing k with
  | zero =>
    obtain rfl : k = w.length := by omega
    rw [List.drop_length, EscapeState.scan, hstop.between_pending]
  | succ n ih =>
    have hlt : k < w.length := by omega
    obtain ⟨b, hb⟩ : ∃ b, w[k]? = some b := ⟨w[k], List.getElem?_eq_getElem hlt⟩
    have hdrop : w.drop k = b :: w.drop (k + 1) := by
      rw [List.drop_eq_getElem_cons hlt, ← (List.getElem?_eq_some_iff.mp hb).2]
    by_cases hst : stateAt w k = .afterTilde
    · -- the tilde before position `k` is decided now
      obtain ⟨hpos, ho⟩ := stateAt_eq_afterTilde.mp hst
      obtain ⟨i, rfl⟩ : ∃ i, k = i + 1 := ⟨k - 1, by omega⟩
      rw [Nat.add_sub_cancel] at ho
      have hpend : pending w (i + 1) = i := by rw [pending, if_pos hst, Nat.add_sub_cancel]
      have hsucc : ¬OpenTilde w (i + 1) := fun h' => not_atLineStart_succ ho.1 h'.2
      have hnext : pending w (i + 1 + 1) = i + 1 + 1 :=
        if_neg fun h' => hsucc (stateAt_eq_afterTilde.mp h').2
      rw [hpend] at hbefore ⊢
      obtain ⟨hfirst, hsecond⟩ := contribution_tilde ho hb
      rw [hdrop, between_of_lt (hstop.lt hbefore (by omega)), hfirst, hst]
      by_cases hd : b = dot
      · subst hd
        have hdetach : IsDetach w i := ⟨(isEscape_iff hb).mpr ⟨ho, by decide⟩, hb⟩
        have hle : stop ≤ i + 1 := Nat.not_lt.mp fun h => hstop.1 i h hdetach
        rw [between_of_le hle]
        rfl
      · have hi : ∀ j < i + 1, ¬IsDetach w j :=
          Nat.forall_lt_succ_right.2
            ⟨hbefore, fun h' => hd (Option.some.inj (hb.symm.trans h'.2))⟩
        have hi' : ∀ j < i + 1 + 1, ¬IsDetach w j :=
          Nat.forall_lt_succ_right.2 ⟨hi, fun h' => hsucc h'.1.1⟩
        have hrest := ih (k := i + 1 + 1) hlt (by rwa [hnext]) (by omega)
        rw [hnext, stateAt_succ hb, hst] at hrest
        rw [between_of_lt (hstop.lt hi hlt), hsecond, ← hrest, EscapeState.scan,
          if_neg fun h => hd h.2]
        cases hc : command b <;> simp [EscapeState.emitted, hc]
    · have hpend : pending w k = k := if_neg hst
      rw [hpend] at hbefore ⊢
      rw [hdrop, EscapeState.scan, if_neg fun h => hst h.1]
      by_cases ho : OpenTilde w k
      · -- a tilde that begins a line waits for the next byte
        obtain rfl : b = tilde := Option.some.inj (hb.symm.trans ho.1)
        have hnext : pending w (k + 1) = k :=
          if_pos (stateAt_eq_afterTilde.mpr ⟨by omega, by simpa using ho⟩)
        have hrest := ih (k := k + 1) hlt (by rwa [hnext]) (by omega)
        rw [hnext, stateAt_succ hb] at hrest
        rw [← hrest, stateAt, if_pos ho.2]
        rfl
      · have hnext : pending w (k + 1) = k + 1 :=
          if_neg fun h' => ho (stateAt_eq_afterTilde.mp h').2
        have hk' : ∀ j < k + 1, ¬IsDetach w j :=
          Nat.forall_lt_succ_right.2 ⟨hbefore, fun h' => ho h'.1.1⟩
        have hrest := ih (k := k + 1) hlt (by rwa [hnext]) (by omega)
        have hplain := contribution_plain hb ho fun h => hst (stateAt_eq_afterTilde.mpr h)
        rw [hnext, stateAt_succ hb] at hrest
        rw [between_of_lt (hstop.lt hbefore hlt), hplain, ← hrest,
          emitted_of_not_openTilde hb ho hst]

theorem scan_drop_state {w : List UInt8} (hno : ∀ j, ¬IsDetach w j) {k : ℕ} (hk : k ≤ w.length) :
    ((stateAt w k).scan (w.drop k)).2 = stateAt w w.length := by
  induction hn : w.length - k generalizing k with
  | zero =>
    obtain rfl : k = w.length := by omega
    rw [List.drop_length]
    rfl
  | succ n ih =>
    have hlt : k < w.length := by omega
    have hb : w[k]? = some w[k] := List.getElem?_eq_getElem hlt
    have hgo : ¬(stateAt w k = .afterTilde ∧ w[k] = dot) := by
      rintro ⟨hst, hd⟩
      obtain ⟨hpos, ho⟩ := stateAt_eq_afterTilde.mp hst
      have hdot : w[k - 1 + 1]? = some dot := by rw [Nat.sub_add_cancel hpos, hb, hd]
      exact hno (k - 1) ⟨(isEscape_iff hdot).mpr ⟨ho, by decide⟩, hdot⟩
    rw [List.drop_eq_getElem_cons hlt, EscapeState.scan, if_neg hgo, ← stateAt_succ hb]
    exact ih (k := k + 1) hlt (by omega)

theorem stateAt_zero (w : List UInt8) : stateAt w 0 = .new :=
  if_pos (Or.inl rfl)

theorem scan_new {w : List UInt8} {stop : ℕ} (hstop : Stops w stop) :
    (EscapeState.new.scan w).1 = between w 0 stop := by
  have hpend : pending w 0 = 0 := by simp [pending]
  have hscan := scan_drop hstop (k := 0) (by omega) (by simp [hpend])
  rwa [stateAt_zero, hpend, List.drop_zero] at hscan

theorem detach_mem_contribution {w : List UInt8} {i : ℕ} :
    .detach ∈ contribution w i ↔ IsDetach w i := by
  have hcommand : ∀ b, command b = some .detach ↔ b = dot := by
    intro b
    unfold command
    split_ifs <;> simp_all
  unfold contribution IsDetach
  split_ifs with h
  · simp [h, Option.bind_eq_some_iff, hcommand]
  all_goals simp [h]

theorem detach_mem_between {w : List UInt8} {i stop : ℕ} :
    .detach ∈ between w i stop ↔ ∃ j, i ≤ j ∧ j < stop ∧ IsDetach w j := by
  simp only [between, List.mem_flatMap, List.mem_range'_1, detach_mem_contribution]
  constructor
  · rintro ⟨j, ⟨hle, hlt⟩, hj⟩
    exact ⟨j, hle, by omega, hj⟩
  · rintro ⟨j, hle, hlt, hj⟩
    exact ⟨j, ⟨hle, by omega⟩, hj⟩

theorem Stops.of_first {w : List UInt8} {i : ℕ} (hi : IsDetach w i)
    (hfirst : ∀ j < i, ¬IsDetach w j) : Stops w (i + 1) :=
  ⟨fun j hj => hfirst j (by omega), .inr ⟨i, rfl, hi⟩⟩

theorem Stops.of_none {w : List UInt8} (hno : ∀ j, ¬IsDetach w j) : Stops w w.length :=
  ⟨fun j _ => hno j, .inl ⟨rfl, hno⟩⟩

theorem exists_stops (w : List UInt8) : ∃ stop, Stops w stop := by
  classical
  by_cases h : ∃ i, IsDetach w i
  · exact ⟨_, .of_first (Nat.find_spec h) fun j hj => Nat.find_min h hj⟩
  · exact ⟨_, .of_none (not_exists.mp h)⟩

theorem detach_mem_scan_new {w : List UInt8} :
    .detach ∈ (EscapeState.new.scan w).1 ↔ ∃ i, IsDetach w i := by
  obtain ⟨stop, hstop⟩ := exists_stops w
  rw [scan_new hstop, detach_mem_between]
  constructor
  · rintro ⟨i, -, -, hi⟩
    exact ⟨i, hi⟩
  · rintro ⟨i, hi⟩
    obtain ⟨-, hno⟩ | ⟨j, rfl, hj⟩ := hstop.2
    · exact absurd hi (hno i)
    · exact ⟨j, by omega, by omega, hj⟩

theorem stateAt_length {w : List UInt8} :
    stateAt w w.length = .afterTilde ↔ ∃ i, i + 1 = w.length ∧ OpenTilde w i := by
  rw [stateAt_eq_afterTilde]
  constructor
  · rintro ⟨hpos, ho⟩
    exact ⟨w.length - 1, by omega, ho⟩
  · rintro ⟨i, hi, ho⟩
    rw [← hi, Nat.add_sub_cancel]
    exact ⟨by omega, ho⟩

/-! ### The actions of a new processor -/

/-- What the rule says of the actions and the final state for the input `w`. -/
structure Recognized (w : List UInt8) (actions : List EscapeAction) (final : EscapeState) :
    Prop where
  detach_iff : .detach ∈ actions ↔ ∃ i, IsDetach w i
  detach_last : ∀ before after, actions = before ++ .detach :: after → after = []
  /-- Everything up to the first `~.` counts, and nothing behind it is looked at. -/
  detached : ∀ i, IsDetach w i → (∀ j < i, ¬IsDetach w j) →
    spell actions = between w 0 i ++ [.detach] ∧
      ∀ v, EscapeState.new.process (w.take (i + 2) ++ v) = (actions, final)
  undetached : (∀ i, ¬IsDetach w i) → spell actions = between w 0 w.length
  /-- A tilde in line-start position at the very end is held back. -/
  held : (∀ i, ¬IsDetach w i) →
    (final = .afterTilde ↔ ∃ i, i + 1 = w.length ∧ OpenTilde w i)
  nonempty : .data [] ∉ actions

/-- An escape is decided by the bytes up to its second one. -/
theorem IsDetach.take {w : List UInt8} {i : ℕ} (h : IsDetach w i) :
    IsDetach (w.take (i + 2)) i := by
  obtain ⟨⟨⟨ht, hline⟩, c, hc, hw⟩, hd⟩ := h
  have htake : ∀ j ≤ i + 1, (w.take (i + 2))[j]? = w[j]? := fun j hj =>
    List.getElem?_take_of_lt (by omega)
  refine ⟨⟨⟨?_, ?_⟩, c, hc, ?_⟩, ?_⟩
  · rwa [htake i (by omega)]
  · rwa [AtLineStart, htake (i - 1) (by omega)]
  · rwa [htake (i + 1) le_rfl]
  · rwa [htake (i + 1) le_rfl]

theorem process_take {w : List UInt8} {i : ℕ} (h : IsDetach w i) (v : List UInt8) :
    EscapeState.new.process (w.take (i + 2) ++ v) = EscapeState.new.process w := by
  have hdetach : .detach ∈ (EscapeState.new.scan (w.take (i + 2))).1 :=
    detach_mem_scan_new.mpr ⟨i, h.take⟩
  calc EscapeState.new.process (w.take (i + 2) ++ v)
      = EscapeState.new.process (w.take (i + 2)) := EscapeState.process_append hdetach v
    _ = EscapeState.new.process (w.take (i + 2) ++ w.drop (i + 2)) :=
        (EscapeState.process_append hdetach _).symm
    _ = EscapeState.new.process w := by rw [List.take_append_drop]

theorem eq_nil_of_process_eq {st : EscapeState} {w : List UInt8} {before after : List EscapeAction}
    (h : (st.process w).1 = before ++ .detach :: after) : after = [] := by
  have hspell := (EscapeState.spell_process st w).1
  rw [h] at hspell
  have hafter : spell after = [] := EscapeState.eq_nil_of_scan_eq
    (by simpa [EscapeAction.atoms] using hspell.symm)
  have hempty : .data [] ∉ after := by
    have := EscapeState.data_nil_notMem_process st w
    rw [h] at this
    simp_all
  cases after with
  | nil => rfl
  | cons a after => cases a <;> simp_all [EscapeAction.atoms]

/-- **The rule of the escape sequences** is what a new processor does with one read. -/
theorem process_new (w : List UInt8) :
    Recognized w (EscapeState.new.process w).1 (EscapeState.new.process w).2 := by
  obtain ⟨hspell, hstate⟩ := EscapeState.spell_process .new w
  constructor
  case detach_iff => rw [← detach_mem_spell, hspell, detach_mem_scan_new]
  case detach_last => exact fun before after h => eq_nil_of_process_eq h
  case detached =>
    intro i hi hfirst
    constructor
    · rw [hspell, scan_new (.of_first hi hfirst), between_succ (by omega), contribution,
        if_pos hi.1, hi.2]
      rfl
    · exact process_take hi
  case undetached =>
    intro hno
    rw [hspell, scan_new (.of_none hno)]
  case held =>
    intro hno
    have hfinal := scan_drop_state hno (k := 0) (by omega)
    rw [stateAt_zero, List.drop_zero] at hfinal
    rw [hstate, hfinal, stateAt_length]
  case nonempty => exact EscapeState.data_nil_notMem_process .new w

end Terminal

end Gritty
