import Gritty.LTS.Refine
import Mathlib.Data.List.Basic
import Mathlib.Logic.Function.Basic

/-!
# A registry of named sessions

What a session daemon is for: sessions are started and get numbers in order, some with a name; a
target is a name or, when nobody has it, the numeral of a number; a session goes when it is killed,
forgotten or found ended.  `Registry.lts` says which answers are right in which registry.

The labels of a path determine the registry: a session is there if and only if it was started and no
label took it out.  Hence what a listing shows is a matter of the answers before it, and who is gone
is not heard of again, whatever names are given to later sessions.

## Main definitions

* `Registry`, `Registry.Answers` : the sessions that are there, and who answers to a target.
* `Registry.Label`, `Registry.Step` : the answers, and which of them are right.
* `Label.Removes`, `Label.Mentions` : which sessions an answer takes out, and which it is about.

## Main results

* `live_iff` : a session is there if and only if it was started and was not taken out.
* `not_mentioned_of_removes` : who is gone is not heard of again.
-/

namespace Gritty

/-- The sessions that are there, each with its name if it has one. -/
structure Registry (N : Type*) where
  /-- how many sessions were started; each gets the next number -/
  started : ℕ
  live : ℕ → Option (Option N)

namespace Registry

variable {N : Type*}

/-- Nothing was started. -/
def empty : Registry N := ⟨0, fun _ => none⟩

/-- Some session has the name. -/
def Named (r : Registry N) (n : N) : Prop := ∃ k, r.live k = some (some n)

/-- Session `k` answers to a target: by its name, or by its number when nobody has that name. -/
def Answers (numeral : N → Option ℕ) (r : Registry N) (target : N) (k : ℕ) : Prop :=
  r.live k = some (some target) ∨
    (¬ r.Named target ∧ numeral target = some k ∧ ∃ name, r.live k = some name)

/-- Start a session. -/
def start (r : Registry N) (name : Option N) : Registry N :=
  ⟨r.started + 1, Function.update r.live r.started (some name)⟩

/-- Take sessions out. -/
def drop (r : Registry N) (ks : List ℕ) : Registry N :=
  { r with live := fun k => if k ∈ ks then none else r.live k }

/-- The sessions in the order of their numbers. -/
def rows (r : Registry N) : List (ℕ × Option N) :=
  (List.range r.started).filterMap fun k => (r.live k).map fun name => (k, name)

/-- The answers. -/
inductive Label (N : Type*) where
  | start (name : Option N) (k : ℕ)
  /-- the name is taken -/
  | taken (n : N)
  | attach (target : N) (k : ℕ)
  | kill (target : N) (k : ℕ)
  /-- nobody answers to the target -/
  | missing (target : N)
  /-- who answers to the target has just ended -/
  | ended (target : N) (k : ℕ)
  | list (rows : List (ℕ × Option N))
  | forget (ks : List ℕ)

/-- Which answers are right. -/
inductive Step (numeral : N → Option ℕ) (r : Registry N) : Label N → Registry N → Prop
  | start {name} : (∀ n, name = some n → ¬ r.Named n) →
      Step numeral r (.start name r.started) (r.start name)
  | taken {n} : r.Named n → Step numeral r (.taken n) r
  | attach {target k} : Answers numeral r target k → Step numeral r (.attach target k) r
  | kill {target k} : Answers numeral r target k → Step numeral r (.kill target k) (r.drop [k])
  | missing {target} : (∀ k, ¬ Answers numeral r target k) → Step numeral r (.missing target) r
  | ended {target k} : Answers numeral r target k → Step numeral r (.ended target k) (r.drop [k])
  | list : Step numeral r (.list r.rows) r
  | forget {ks} : (∀ k ∈ ks, ∃ name, r.live k = some name) →
      Step numeral r (.forget ks) (r.drop ks)

/-- The registry as a transition system. -/
def lts (numeral : N → Option ℕ) : LTS (Registry N) (Label N) := ⟨Step numeral⟩

/-- The label takes the session out. -/
def Label.Removes (k : ℕ) : Label N → Prop
  | .kill _ k' | .ended _ k' => k' = k
  | .forget ks => k ∈ ks
  | .start _ _ | .taken _ | .attach _ _ | .missing _ | .list _ => False

/-- The label is about the session. -/
def Label.Mentions (k : ℕ) : Label N → Prop
  | .start _ k' | .attach _ k' | .kill _ k' | .ended _ k' => k' = k
  | .list rows => ∃ name, (k, name) ∈ rows
  | .forget ks => k ∈ ks
  | .taken _ | .missing _ => False

variable {numeral : N → Option ℕ} {r r' : Registry N} {l : Label N}
  {ls before after : List (Label N)} {n target : N} {k k' : ℕ} {name : Option N}

theorem Label.Removes.mentions (h : l.Removes k) : l.Mentions k := by
  cases l with
  | kill | ended | forget => exact h
  | start | taken | attach | missing | list => exact h.elim

theorem live_start {name' : Option N} : (r.start name).live k = some name' ↔
    (k = r.started ∧ name = name') ∨ (k ≠ r.started ∧ r.live k = some name') := by
  by_cases h : k = r.started
  · subst h
    simp [start]
  · simp [start, h]

theorem live_drop {ks : List ℕ} :
    (r.drop ks).live k = some name ↔ k ∉ ks ∧ r.live k = some name := by
  by_cases h : k ∈ ks <;> simp [drop, h]

theorem mem_rows : (k, name) ∈ r.rows ↔ k < r.started ∧ r.live k = some name := by
  simp only [rows, List.mem_filterMap, List.mem_range, Option.map_eq_some_iff, Prod.mk.injEq]
  constructor
  · rintro ⟨k, hk, name, h, rfl, rfl⟩
    exact ⟨hk, h⟩
  · rintro ⟨hk, h⟩
    exact ⟨k, hk, name, h, rfl, rfl⟩

theorem pairwise_rows : r.rows.Pairwise fun p q => p.1 < q.1 := by
  refine List.Pairwise.filterMap _ ?_ List.pairwise_lt_range
  intro k k' hlt p hp q hq
  simp only [Option.map_eq_some_iff] at hp hq
  obtain ⟨-, -, rfl⟩ := hp
  obtain ⟨-, -, rfl⟩ := hq
  exact hlt

theorem Answers.live (h : Answers numeral r target k) : ∃ name, r.live k = some name := by
  rcases h with h | ⟨-, -, h⟩
  · exact ⟨_, h⟩
  · exact h

/-! ### What the registry keeps -/

/-- Numbers are given out in order, and a name to one session. -/
structure WellFormed (r : Registry N) : Prop where
  lt_started : ∀ k name, r.live k = some name → k < r.started
  distinct : ∀ k k' n, r.live k = some (some n) → r.live k' = some (some n) → k = k'

theorem WellFormed.empty : WellFormed (empty : Registry N) := by
  constructor <;> simp [Registry.empty]

theorem WellFormed.drop (hi : WellFormed r) (ks : List ℕ) : WellFormed (r.drop ks) where
  lt_started k name h := hi.lt_started k name (live_drop.1 h).2
  distinct k k' n h h' := hi.distinct k k' n (live_drop.1 h).2 (live_drop.1 h').2

theorem WellFormed.step (hi : WellFormed r) (h : Step numeral r l r') : WellFormed r' := by
  cases h with
  | taken | attach | missing | list => exact hi
  | kill | ended | forget => exact hi.drop _
  | @start name hn =>
    constructor
    · intro k name' h
      show k < r.started + 1
      rcases live_start.1 h with ⟨rfl, -⟩ | ⟨-, h⟩
      · exact Nat.lt_succ_self _
      · exact Nat.lt_succ_of_lt (hi.lt_started _ _ h)
    · intro k k' n h h'
      rcases live_start.1 h with ⟨rfl, rfl⟩ | ⟨-, h⟩ <;>
        rcases live_start.1 h' with ⟨rfl, hn'⟩ | ⟨-, h'⟩
      · rfl
      · exact absurd ⟨_, h'⟩ (hn n rfl)
      · exact absurd ⟨_, h⟩ (hn n hn')
      · exact hi.distinct k k' n h h'

/-! ### The registry and its history -/

/-- The labels determine who is there. -/
structure History (ls : List (Label N)) (r : Registry N) : Prop where
  live : ∀ k name, r.live k = some name ↔ .start name k ∈ ls ∧ ∀ l ∈ ls, ¬ l.Removes k
  mentioned : ∀ l ∈ ls, ∀ k, l.Mentions k → k < r.started

/-- The label starts nobody and takes nobody out. -/
theorem History.keep (hi : History ls r) (hs : ∀ name k, l ≠ .start name k)
    (hr : ∀ k, ¬ l.Removes k) (hm : ∀ k, l.Mentions k → k < r.started) :
    History (ls ++ [l]) r := by
  constructor
  · intro k name
    rw [hi.live k name]
    simp [or_imp, forall_and, hr, Ne.symm (hs name k)]
  · intro l' hl' k hk
    rcases List.mem_append.1 hl' with hl' | hl'
    · exact hi.mentioned l' hl' k hk
    · obtain rfl := List.mem_singleton.1 hl'
      exact hm k hk

/-- The label takes sessions out. -/
theorem History.drop (hi : History ls r) {ks : List ℕ} (hs : ∀ name k, l ≠ .start name k)
    (hr : ∀ k, l.Removes k ↔ k ∈ ks) (hm : ∀ k, l.Mentions k → k < r.started) :
    History (ls ++ [l]) (r.drop ks) := by
  constructor
  · intro k name
    rw [live_drop, hi.live k name]
    simp [or_imp, forall_and, hr, Ne.symm (hs name k), and_comm, and_left_comm]
  · intro l' hl' k hk
    rcases List.mem_append.1 hl' with hl' | hl'
    · exact hi.mentioned l' hl' k hk
    · obtain rfl := List.mem_singleton.1 hl'
      exact hm k hk

theorem History.start (hi : History ls r) (name : Option N) :
    History (ls ++ [.start name r.started]) (r.start name) := by
  -- the number is new
  have hnew : ∀ l ∈ ls, ¬ l.Mentions r.started := fun l hl h =>
    Nat.lt_irrefl _ (hi.mentioned l hl _ h)
  constructor
  · intro k name'
    rw [live_start, hi.live k name']
    by_cases hk : k = r.started
    · subst hk
      have hno : Label.start name' r.started ∉ ls := fun h => hnew _ h rfl
      have hrem : ∀ l ∈ ls, ¬ l.Removes r.started := fun l hl h => hnew l hl h.mentions
      simp [or_imp, forall_and, hno, Label.Removes, eq_comm]
      exact fun _ => hrem
    · simp [or_imp, forall_and, Label.Removes, hk]
  · intro l hl k hk
    show k < r.started + 1
    rcases List.mem_append.1 hl with hl | hl
    · exact Nat.lt_succ_of_lt (hi.mentioned l hl k hk)
    · obtain rfl := List.mem_singleton.1 hl
      exact hk ▸ Nat.lt_succ_self _

theorem History.step (hi : History ls r) (hw : WellFormed r) (h : Step numeral r l r') :
    History (ls ++ [l]) r' := by
  have hlt : ∀ {k}, (∃ name, r.live k = some name) → k < r.started := by
    rintro k ⟨name, h⟩
    exact hw.lt_started k name h
  cases h with
  | start => exact hi.start _
  | taken | missing => exact hi.keep (by simp) (fun _ => id) fun _ => False.elim
  | attach ha => exact hi.keep (by simp) (fun _ => id) fun _ hk => hk ▸ hlt ha.live
  | list =>
    refine hi.keep (by simp) (fun _ => id) ?_
    rintro k ⟨name, hk⟩
    exact (mem_rows.1 hk).1
  | @kill target k ha | @ended target k ha =>
    refine hi.drop (by simp) (fun k' => ?_) fun k' hk => hk ▸ hlt ha.live
    rw [List.mem_singleton]
    exact eq_comm
  | forget hl => exact hi.drop (by simp) (fun _ => Iff.rfl) fun k hk => hlt (hl k hk)

theorem wellFormed (h : (lts numeral).Path empty ls r) : WellFormed r :=
  h.invariant (I := fun _ r => WellFormed r) .empty fun _ _ _ _ hi hst => hi.step hst

theorem history (h : (lts numeral).Path empty ls r) : History ls r := by
  refine (h.invariant (I := fun ls r => History ls r ∧ WellFormed r) ⟨?_, .empty⟩ ?_).1
  · constructor <;> simp [empty]
  · exact fun ls t l t' hi hst => ⟨hi.1.step hi.2 hst, hi.2.step hst⟩

/-- **A session is there** if and only if it was started and was not taken out. -/
theorem live_iff (h : (lts numeral).Path empty ls r) :
    r.live k = some name ↔ .start name k ∈ ls ∧ ∀ l ∈ ls, ¬ l.Removes k :=
  (history h).live k name

/-! ### Who is gone -/

/-- The session was there and is not any more. -/
def Gone (r : Registry N) (k : ℕ) : Prop := k < r.started ∧ r.live k = none

theorem gone_drop {ks : List ℕ} (h : Gone r k) : Gone (r.drop ks) k := by
  refine ⟨h.1, ?_⟩
  by_cases hk : k ∈ ks <;> simp [drop, hk, h.2]

theorem Gone.step (hg : Gone r k) (h : Step numeral r l r') : Gone r' k ∧ ¬ l.Mentions k := by
  have hno : ¬ ∃ name, r.live k = some name := by
    rintro ⟨name, h⟩
    simp [hg.2] at h
  cases h with
  | taken | missing => exact ⟨hg, id⟩
  | attach ha => exact ⟨hg, fun hk => hno (hk ▸ ha.live)⟩
  | kill ha | ended ha => exact ⟨gone_drop hg, fun hk => hno (hk ▸ ha.live)⟩
  | forget hl => exact ⟨gone_drop hg, fun hk => hno (hl k hk)⟩
  | list =>
    refine ⟨hg, ?_⟩
    rintro ⟨name, hk⟩
    exact hno ⟨name, (mem_rows.1 hk).2⟩
  | start =>
    have hne : k ≠ r.started := Nat.ne_of_lt hg.1
    exact ⟨⟨Nat.lt_succ_of_lt hg.1, by simp [Registry.start, hne, hg.2]⟩,
      fun hk => hne hk.symm⟩

/-- **Who is gone is not heard of again.** -/
theorem not_mentioned_of_removes (h : (lts numeral).Path empty (before ++ l :: after) r)
    (hl : l.Removes k) : ∀ l' ∈ after, ¬ l'.Mentions k := by
  obtain ⟨r₁, r₂, hpath, hst, hafter⟩ := h.cut_at
  have hw := wellFormed hpath
  have hg : Gone r₂ k := by
    cases hst with
    | kill ha | ended ha =>
      obtain ⟨name, hlive⟩ := ha.live
      obtain rfl : _ = k := hl
      exact ⟨hw.lt_started _ _ hlive, by simp [drop]⟩
    | forget hk =>
      obtain ⟨name, hlive⟩ := hk k hl
      exact ⟨hw.lt_started _ _ hlive, by simp [drop, show k ∈ _ from hl]⟩
    | start | taken | attach | missing | list => exact hl.elim
  refine (hafter.invariant (I := fun ls r => Gone r k ∧ ∀ l' ∈ ls, ¬ l'.Mentions k)
    ⟨hg, by simp⟩ ?_).2
  rintro ls t l' t' ⟨hg, hls⟩ hst
  obtain ⟨hg', hl'⟩ := hg.step hst
  refine ⟨hg', fun m hm => ?_⟩
  rcases List.mem_append.1 hm with hm | hm
  · exact hls m hm
  · exact List.mem_singleton.1 hm ▸ hl'

end Registry

end Gritty
