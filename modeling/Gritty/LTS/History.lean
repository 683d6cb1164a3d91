import Gritty.LTS.Basic
import Mathlib.Data.List.Induction

/-!
# Histories and projections of runs

What happened in a run is read off its moves: each move contributes a list, and the history is
their concatenation.  Nothing has to be added to the state for it, so that a specification can speak
of bytes written or connections made without touching the program.

A log that the state keeps anyway is such a history, and the moves of a component are a history that
is itself a run of the component.  So a law of the component's runs is a law of the whole.

## Main results

* `Run.log` : a log that each step extends by what its move contributes is the history of the run.
* `Run.project` : when each step is a run of the component, so is the history of these runs.
* `Run.cut`, `Run.cut_at` : a run can be cut anywhere, and at each of its moves.
* `Run.le_of_mem` : a quantity that no step makes smaller is nowhere larger than at the end.
-/

namespace Gritty

namespace LTS

variable {S L T M β : Type*} {A : LTS S L} {B : LTS T M} {s₀ s s' : S} {tr tr' : List (Move S L)}

namespace Run

/-- A log that each step extends by what its move contributes is the history of the run. -/
theorem log {f : S → List β} {g : Move S L → List β} (h : A.Run s₀ tr s)
    (hstep : ∀ s l s', A.step s l s' → f s' = f s ++ g ⟨s, l, s'⟩) :
    f s = f s₀ ++ tr.flatMap g := by
  induction h with
  | refl => simp
  | tail _ hst ih => rw [hstep _ _ _ hst, ih, List.flatMap_append, List.append_assoc]; simp

/-- **The projection rule.**  If the moves that a step contributes are a run of the component `B`,
from where the component is before the step to where it is after it, then the history of a run is a
run of the component. -/
theorem project {f : S → T} {g : Move S L → List (Move T M)} {I : S → Prop} (h : A.Run s₀ tr s)
    (h₀ : I s₀) (hI : ∀ s l s', I s → A.step s l s' → I s')
    (hstep : ∀ s l s', I s → A.step s l s' → B.Run (f s) (g ⟨s, l, s'⟩) (f s')) :
    B.Run (f s₀) (tr.flatMap g) (f s) := by
  have h' : I s ∧ B.Run (f s₀) (tr.flatMap g) (f s) := by
    induction h with
    | refl => exact ⟨h₀, .refl⟩
    | tail _ hst ih =>
      refine ⟨hI _ _ _ ih.1 hst, ?_⟩
      rw [List.flatMap_append, List.flatMap_singleton]
      exact ih.2.append (hstep _ _ _ ih.1 hst)
  exact h'.2

/-- What no step makes smaller is nowhere larger than at the end. -/
theorem le_of_mem {f : S → ℕ} (h : A.Run s₀ tr s)
    (hstep : ∀ s l s', A.step s l s' → f s ≤ f s') {m : Move S L} (hm : m ∈ tr) :
    f m.dst ≤ f s := by
  induction h with
  | refl => cases hm
  | tail _ hst ih =>
    rcases List.mem_append.1 hm with hm | hm
    · exact Nat.le_trans (ih hm) (hstep _ _ _ hst)
    · obtain rfl := List.mem_singleton.1 hm
      exact Nat.le_refl _

/-- A run can be cut anywhere. -/
theorem cut (h : A.Run s₀ (tr ++ tr') s) : ∃ s₁, A.Run s₀ tr s₁ ∧ A.Run s₁ tr' s := by
  induction tr' using List.reverseRecOn generalizing s with
  | nil => exact ⟨s, by simpa using h, .refl⟩
  | append_singleton tr' m ih =>
    rw [← List.append_assoc] at h
    generalize htr : tr ++ tr' ++ [m] = trs at h
    cases h with
    | refl => simp at htr
    | tail h hst =>
      obtain ⟨rfl, rfl⟩ : tr ++ tr' = _ ∧ m = _ := by
        obtain ⟨h₁, h₂⟩ := List.append_inj' htr rfl
        exact ⟨h₁, List.singleton_inj.1 h₂⟩
      obtain ⟨s₁, h₁, h₂⟩ := ih h
      exact ⟨s₁, h₁, h₂.tail hst⟩

/-- A run can be cut at each of its moves. -/
theorem cut_at {m : Move S L} (h : A.Run s₀ (tr ++ m :: tr') s) :
    A.Run s₀ tr m.src ∧ A.step m.src m.lbl m.dst ∧ A.Run m.dst tr' s := by
  obtain ⟨s₂, h₁, h₂⟩ : ∃ s₂, A.Run s₀ (tr ++ [m]) s₂ ∧ A.Run s₂ tr' s :=
    cut (by simpa using h)
  generalize htr : tr ++ [m] = trs at h₁
  cases h₁ with
  | refl => simp at htr
  | tail h₁ hst =>
    obtain ⟨rfl, hm⟩ := List.append_inj' htr rfl
    obtain rfl := List.singleton_inj.1 hm
    exact ⟨h₁, hst, h₂⟩

end Run

end LTS

end Gritty
