import Gritty.LTS.Basic
import Mathlib.Data.List.Induction

/-!
# Refinement

A specification is a transition system whose labels are what can be observed.  Its *paths* are the
lists of labels that may follow each other (`LTS.Path`).  A system refines a specification when what
is observed of each of its moves is a path of the specification, between states that are related
(`LTS.Refines`).  One move may be observed as no label, as one or as several.

What is observed of a whole run is then a path of the specification, so that every law of its paths
is a law of the runs of the system.

## Main results

* `Path.invariant` : what holds of the empty path and is kept by one more label holds of every path.
* `Path.cut_at` : a path can be cut at each of its labels.
* `Refines.run` : what is observed of a run is a path of the specification.
-/

namespace Gritty

namespace LTS

variable {S L T M : Type*}

/-- The labels `ls`, in order, can lead from `t₀` to `t`. -/
inductive Path (B : LTS T M) (t₀ : T) : List M → T → Prop
  | refl : Path B t₀ [] t₀
  | tail {ls : List M} {t t' : T} {l : M} :
      Path B t₀ ls t → B.step t l t' → Path B t₀ (ls ++ [l]) t'

variable {A : LTS S L} {B : LTS T M} {t₀ t t' : T} {ls ls' : List M}

namespace Path

theorem single {l : M} (h : B.step t l t') : B.Path t [l] t' := refl.tail h

theorem append (h : B.Path t₀ ls t) (h' : B.Path t ls' t') : B.Path t₀ (ls ++ ls') t' := by
  induction h' with
  | refl => simpa using h
  | tail _ hst ih =>
    rw [← List.append_assoc]
    exact ih.tail hst

/-- **The path rule.**  What holds of the empty path and is kept by one more label holds of every
path. -/
theorem invariant {I : List M → T → Prop} (h : B.Path t₀ ls t) (h₀ : I [] t₀)
    (hstep : ∀ ls t l t', I ls t → B.step t l t' → I (ls ++ [l]) t') : I ls t := by
  induction h with
  | refl => exact h₀
  | tail _ hst ih => exact hstep _ _ _ _ ih hst

/-- A path can be cut at each of its labels. -/
theorem cut_at {l : M} {after : List M} (h : B.Path t₀ (ls ++ l :: after) t) :
    ∃ t₁ t₂, B.Path t₀ ls t₁ ∧ B.step t₁ l t₂ ∧ B.Path t₂ after t := by
  induction after using List.reverseRecOn generalizing t with
  | nil =>
    generalize hall : ls ++ [l] = all at h
    cases h with
    | refl => simp at hall
    | tail h hst =>
      obtain ⟨rfl, rfl⟩ := List.append_singleton_inj.1 hall
      exact ⟨_, _, h, hst, .refl⟩
  | append_singleton after l' ih =>
    generalize hall : ls ++ l :: (after ++ [l']) = all at h
    cases h with
    | refl => simp at hall
    | tail h hst =>
      rw [← List.cons_append, ← List.append_assoc] at hall
      obtain ⟨rfl, rfl⟩ := List.append_singleton_inj.1 hall
      obtain ⟨t₁, t₂, h₁, h₂, h₃⟩ := ih h
      exact ⟨t₁, t₂, h₁, h₂, h₃.tail hst⟩

end Path

/-- Each move of `A` that meets `P`, seen through `obs`, is a path of `B`, and related states stay
related. -/
def Refines (A : LTS S L) (B : LTS T M) (obs : Move S L → List M) (P : Move S L → Prop)
    (R : S → T → Prop) : Prop :=
  ∀ s l s' t, R s t → P ⟨s, l, s'⟩ → A.step s l s' → ∃ t', B.Path t (obs ⟨s, l, s'⟩) t' ∧ R s' t'

/-- **What is observed of a run is a path of the specification.** -/
theorem Refines.run {obs : Move S L → List M} {P : Move S L → Prop} {R : S → T → Prop}
    (h : A.Refines B obs P R) {s₀ s : S} {tr : List (Move S L)} (hr : A.Run s₀ tr s)
    (h₀ : R s₀ t₀) (hP : ∀ m ∈ tr, P m) : ∃ t, B.Path t₀ (tr.flatMap obs) t ∧ R s t := by
  refine hr.invariant (I := fun tr s => ∃ t, B.Path t₀ (tr.flatMap obs) t ∧ R s t) hP
    ⟨t₀, .refl, h₀⟩ ?_
  rintro tr s l s' ⟨t, hpath, hrel⟩ hm hst
  obtain ⟨t', hpath', hrel'⟩ := h s l s' t hrel hm hst
  rw [List.flatMap_append, List.flatMap_singleton]
  exact ⟨t', hpath.append hpath', hrel'⟩

end LTS

end Gritty
