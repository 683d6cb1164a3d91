import Mathlib.Data.List.Nodup
import Mathlib.Tactic.Common

/-!
# Logs written in turns

Owners take turns at writing to a log: once the next owner has taken over, the ones before it do
not write any more (`InTurn`).  When no owner has two turns, the log is cut into the parts of its
owners, one after the other.

`entriesOf` selects the entries of one owner, and the lemmas beside it say how that goes with
appending, mapping and counting.

## Main results

* `mem_owners` : only owners write.
* `entriesOf_filterMap` : entries can be mapped before or after they are selected.
* `flatMap_filter` : the log is the parts of its owners, one after the other.
-/

namespace Gritty

variable {γ β : Type*}

/-- The entries of `log` were written in turns: each by the newest of the `owners` at the time. -/
inductive InTurn : List γ → List (γ × β) → Prop
  | nil : InTurn [] []
  | turn {owners : List γ} {log : List (γ × β)} (c : γ) :
      InTurn owners log → InTurn (owners ++ [c]) log
  | entry {owners : List γ} {log : List (γ × β)} {c : γ} (x : β) :
      InTurn (owners ++ [c]) log → InTurn (owners ++ [c]) (log ++ [(c, x)])

section

variable [DecidableEq γ]

/-- The entries of one owner. -/
def entriesOf (c : γ) (log : List (γ × β)) : List β := (log.filter fun p => p.1 = c).map Prod.snd

variable {c : γ} {log log' : List (γ × β)}

@[simp] theorem entriesOf_nil : entriesOf c ([] : List (γ × β)) = [] := rfl

@[simp] theorem entriesOf_append :
    entriesOf c (log ++ log') = entriesOf c log ++ entriesOf c log' := by
  simp [entriesOf]

@[simp] theorem entriesOf_self {x : β} : entriesOf c [(c, x)] = [x] := by simp [entriesOf]

theorem entriesOf_flatMap {α : Type*} {l : List α} {g : α → List (γ × β)} :
    entriesOf c (l.flatMap g) = l.flatMap fun a => entriesOf c (g a) := by
  simp [entriesOf, List.filter_flatMap, List.map_flatMap]

theorem entriesOf_of_ne {d : γ} {x : β} (h : d ≠ c) : entriesOf c [(d, x)] = [] := by
  simp [entriesOf, h]

/-- Entries can be mapped before or after they are selected. -/
theorem entriesOf_filterMap {β' : Type*} {g : β → Option β'} :
    entriesOf c (log.filterMap fun p => (g p.2).map fun y => (p.1, y)) =
      (entriesOf c log).filterMap g := by
  induction log with
  | nil => rfl
  | cons p log ih =>
    have hcons : p :: log = [p] ++ log := rfl
    obtain ⟨d, x⟩ := p
    rw [hcons, List.filterMap_append, entriesOf_append, entriesOf_append, List.filterMap_append, ih]
    by_cases hd : d = c
    · subst hd
      cases h : g x <;> simp [h]
    · cases h : g x <;> simp [h, entriesOf_of_ne hd]

/-- Entries that only one owner writes can be counted among its own. -/
theorem length_filter_entriesOf {q : β → Bool} (h : ∀ p ∈ log, q p.2 = true → p.1 = c) :
    (log.filter fun p => q p.2).length = ((entriesOf c log).filter q).length := by
  rw [entriesOf, List.filter_map, List.length_map, List.filter_filter]
  refine congrArg List.length (List.filter_congr fun p hp => ?_)
  cases hq : q p.2
  · simp [hq]
  · simp [hq, h p hp hq]

theorem mem_entriesOf {x : β} : x ∈ entriesOf c log ↔ (c, x) ∈ log := by
  simp [entriesOf]

@[simp] theorem entriesOf_map_self {l : List β} : entriesOf c (l.map fun x => (c, x)) = l := by
  induction l with
  | nil => rfl
  | cons x l ih =>
    have hl : (x :: l).map (fun x => (c, x)) = [(c, x)] ++ l.map fun x => (c, x) := rfl
    rw [hl, entriesOf_append, entriesOf_self, ih]
    rfl

theorem entriesOf_eq_nil (h : ∀ p ∈ log, p.1 ≠ c) : entriesOf c log = [] := by
  rw [entriesOf, List.map_eq_nil_iff, List.filter_eq_nil_iff]
  exact fun p hp hc => h p hp (by simpa using hc)

theorem entriesOf_map_of_ne {d : γ} {l : List β} (h : d ≠ c) :
    entriesOf c (l.map fun x => (d, x)) = [] := by
  refine entriesOf_eq_nil fun p hp => ?_
  obtain ⟨x, -, rfl⟩ := List.mem_map.1 hp
  exact h

end

namespace InTurn

variable {owners : List γ} {log : List (γ × β)}

theorem entry_of_getLast? {c : γ} (h : InTurn owners log) (hc : owners.getLast? = some c) (x : β) :
    InTurn owners (log ++ [(c, x)]) := by
  obtain ⟨os, rfl⟩ := List.getLast?_eq_some_iff.1 hc
  exact h.entry x

theorem turns (h : InTurn owners log) (more : List γ) : InTurn (owners ++ more) log := by
  induction more generalizing owners with
  | nil => simpa using h
  | cons c more ih => simpa using ih (h.turn c)

/-- Only owners write. -/
theorem mem_owners (h : InTurn owners log) {p : γ × β} (hp : p ∈ log) : p.1 ∈ owners := by
  induction h with
  | nil => cases hp
  | turn c _ ih => exact List.mem_append_left _ (ih hp)
  | entry x _ ih =>
    rcases List.mem_append.1 hp with hp | hp
    · exact ih hp
    · obtain rfl := List.mem_singleton.1 hp
      simp

/-- **The log is the parts of its owners, one after the other.** -/
theorem flatMap_filter [DecidableEq γ] (h : InTurn owners log) (hn : owners.Nodup) :
    (owners.flatMap fun c => log.filter fun p => p.1 = c) = log := by
  induction h with
  | nil => rfl
  | @turn owners log c h ih =>
    obtain ⟨hn', -, hc⟩ := List.nodup_append.1 hn
    have hlog : log.filter (fun p => p.1 = c) = [] := by
      rw [List.filter_eq_nil_iff]
      intro p hp hpc
      exact hc p.1 (h.mem_owners hp) c (by simp) (by simpa using hpc)
    rw [List.flatMap_append, ih hn', List.flatMap_singleton, hlog, List.append_nil]
  | @entry owners log c x h ih =>
    have hc : ∀ o ∈ owners, o ≠ c := fun o ho => (List.nodup_append.1 hn).2.2 o ho c (by simp)
    -- the new entry belongs to the last part
    have hold : (owners.flatMap fun o => (log ++ [(c, x)]).filter fun p => p.1 = o) =
        owners.flatMap fun o => log.filter fun p => p.1 = o := by
      refine List.flatMap_congr fun o ho => ?_
      simp [(hc o ho).symm]
    have hi := ih hn
    rw [List.flatMap_append, List.flatMap_singleton] at hi ⊢
    rw [hold, List.filter_append, ← List.append_assoc, hi]
    simp

end InTurn

end Gritty
