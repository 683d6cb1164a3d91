import Mathlib.Data.List.AList
import Mathlib.Tactic.Common

/-!
# Finite tables

A table is Mathlib's `AList`: entries with distinct keys, in some order.  The order stands for the
iteration order of a hash map, on which nothing should depend.  What a program computes by walking
over the entries is therefore characterised without the order.

## Main results

* `lookup_eq_some_iff` : an entry is found under its key exactly when it is among the entries.
* `lookup_retain` : which entries `retain` leaves.
* `lookup_erase_iff`, `lookup_insert_iff` : what is found after a key is erased or inserted.
* `find?_eq_some_iff` : a first-match scan finds the only match, in whatever order the entries are.
-/

namespace Gritty

namespace Table

variable {α : Type*} {β : α → Type*}

/-- `HashMap::retain` -/
def retain (p : Sigma β → Bool) (s : AList β) : AList β :=
  ⟨s.entries.filter p, s.nodupKeys.sublist List.filter_sublist⟩

@[simp] theorem entries_retain (p : Sigma β → Bool) (s : AList β) :
    (retain p s).entries = s.entries.filter p := rfl

section Lookup

variable [DecidableEq α] {p : Sigma β → Bool} {s : AList β} {a : α} {b : β a}

theorem lookup_eq_some_iff : s.lookup a = some b ↔ ⟨a, b⟩ ∈ s.entries := AList.mem_lookup_iff

theorem lookup_retain : (retain p s).lookup a = some b ↔ s.lookup a = some b ∧ p ⟨a, b⟩ = true := by
  rw [lookup_eq_some_iff, lookup_eq_some_iff, entries_retain, List.mem_filter]

theorem lookup_erase_iff {a' : α} :
    (s.erase a').lookup a = some b ↔ a ≠ a' ∧ s.lookup a = some b := by
  by_cases h : a = a'
  · subst h
    simp
  · rw [AList.lookup_erase_ne h]
    exact ⟨fun hl => ⟨h, hl⟩, fun hl => hl.2⟩

theorem lookup_insert_iff {a' : α} {b' : β a'} :
    (s.insert a' b').lookup a = some b ↔
      (⟨a, b⟩ : Sigma β) = ⟨a', b'⟩ ∨ (a ≠ a' ∧ s.lookup a = some b) := by
  by_cases h : a = a'
  · subst h
    rw [AList.lookup_insert]
    simp [eq_comm]
  · rw [AList.lookup_insert_ne h]
    simp [h]

theorem exists_lookup_of_mem (h : a ∈ s) : ∃ b, s.lookup a = some b :=
  Option.isSome_iff_exists.1 (AList.lookup_isSome.2 h)

theorem mem_of_lookup (h : s.lookup a = some b) : a ∈ s :=
  AList.lookup_isSome.1 (by rw [h]; rfl)

end Lookup

/-- **A first-match scan finds the only match, in whatever order the entries are.** -/
theorem find?_eq_some_iff {γ : Type*} {l : List γ} {p : γ → Bool}
    (hu : ∀ x ∈ l, ∀ y ∈ l, p x = true → p y = true → x = y) {x : γ} :
    l.find? p = some x ↔ x ∈ l ∧ p x = true := by
  refine ⟨fun h => ⟨List.mem_of_find?_eq_some h, List.find?_some h⟩, ?_⟩
  rintro ⟨hx, hp⟩
  have hsome : (l.find? p).isSome = true := List.find?_isSome.2 ⟨x, hx, hp⟩
  obtain ⟨y, hy⟩ := Option.isSome_iff_exists.1 hsome
  rw [hy, hu y (List.mem_of_find?_eq_some hy) x hx (List.find?_some hy) hp]

end Table

end Gritty
