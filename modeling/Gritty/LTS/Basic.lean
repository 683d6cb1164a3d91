import Mathlib.Data.List.Basic
import Mathlib.Tactic.Cases

/-!
# Runs of labelled transition systems

The semantics of a task, of a party among others or of a whole system as a labelled transition
system.  A *run* keeps its moves, so a law can speak of what happened on the way and not only of the
state reached.

## Main definitions

* `LTS S L` : a transition relation `S → L → S → Prop`.
* `LTS.Run s₀ tr s` : the moves `tr`, oldest first, lead from `s₀` to `s`.
* `LTS.Reachable s₀ s` : some run leads from `s₀` to `s`.
* `LTS.ofFun` : the system of a partial step function, and `LTS.exec`, its executable runs.

## Main results

* `Run.invariant` : the run rule, over the moves made and the state reached.
* `Reachable.invariant` : the rule for predicates on states.
* `run_of_exec` : performing labels is a run.
-/

namespace Gritty

/-- A labelled transition system with states `S` and labels `L`. -/
structure LTS (S : Type*) (L : Type*) where
  /-- `step s l s'` : the system can move from `s` to `s'` on the label `l`. -/
  step : S → L → S → Prop

/-- One move of a run: the state it leaves, its label, the state it enters. -/
structure Move (S : Type*) (L : Type*) where
  src : S
  lbl : L
  dst : S

namespace LTS

variable {S L : Type*} (A : LTS S L)

/-- `Run s₀ tr s` : performing the moves `tr` in order leads from `s₀` to `s`. -/
inductive Run (s₀ : S) : List (Move S L) → S → Prop
  | refl : Run s₀ [] s₀
  | tail {tr : List (Move S L)} {s s' : S} {l : L} :
      Run s₀ tr s → A.step s l s' → Run s₀ (tr ++ [⟨s, l, s'⟩]) s'

/-- `s` is reachable from `s₀`. -/
def Reachable (s₀ s : S) : Prop := ∃ tr, A.Run s₀ tr s

variable {A} {s₀ s : S} {tr : List (Move S L)}

namespace Run

theorem reachable (h : A.Run s₀ tr s) : A.Reachable s₀ s := ⟨tr, h⟩

/-- **The run rule.**  A predicate on the moves made and the state reached holds after a run when
it holds of the empty run and every move of the run that meets `P` keeps it. -/
theorem invariant {P : Move S L → Prop} {I : List (Move S L) → S → Prop} (h : A.Run s₀ tr s)
    (hP : ∀ m ∈ tr, P m) (h₀ : I [] s₀)
    (hstep : ∀ tr s l s', I tr s → P ⟨s, l, s'⟩ → A.step s l s' → I (tr ++ [⟨s, l, s'⟩]) s') :
    I tr s := by
  induction h with
  | refl => exact h₀
  | tail _ hst ih =>
    simp only [List.mem_append, List.mem_singleton] at hP
    exact hstep _ _ _ _ (ih fun m hm => hP m (.inl hm)) (hP _ (.inr rfl)) hst

/-- Each move of a run is a step of the system, taken in a state that an earlier part of the run
reaches. -/
theorem move (h : A.Run s₀ tr s) {m : Move S L} (hm : m ∈ tr) :
    A.step m.src m.lbl m.dst ∧ ∃ tr₁ tr₂, tr = tr₁ ++ m :: tr₂ ∧ A.Run s₀ tr₁ m.src := by
  induction h with
  | refl => cases hm
  | @tail tr s s' l hr hst ih =>
    rcases List.mem_append.1 hm with hm | hm
    · obtain ⟨h, tr₁, tr₂, rfl, h₁⟩ := ih hm
      exact ⟨h, tr₁, tr₂ ++ [⟨s, l, s'⟩], by simp, h₁⟩
    · obtain rfl := List.mem_singleton.1 hm
      exact ⟨hst, tr, [], rfl, hr⟩

theorem single {l : L} {s' : S} (h : A.step s l s') : A.Run s [⟨s, l, s'⟩] s' := refl.tail h

theorem append {s' : S} {tr' : List (Move S L)} (h : A.Run s₀ tr s) (h' : A.Run s tr' s') :
    A.Run s₀ (tr ++ tr') s' := by
  induction h' with
  | refl => simpa using h
  | tail _ hst ih => rw [← List.append_assoc]; exact ih.tail hst

end Run

namespace Reachable

theorem refl (s : S) : A.Reachable s s := ⟨[], .refl⟩

theorem tail {s' : S} {l : L} (h : A.Reachable s₀ s) (hst : A.step s l s') : A.Reachable s₀ s' := by
  obtain ⟨tr, h⟩ := h
  exact ⟨_, h.tail hst⟩

/-- Reachable states satisfy every inductive invariant. -/
theorem invariant {I : S → Prop} (h : A.Reachable s₀ s) (h₀ : I s₀)
    (hstep : ∀ s l s', I s → A.step s l s' → I s') : I s := by
  obtain ⟨tr, h⟩ := h
  exact h.invariant (P := fun _ => True) (I := fun _ s => I s) (fun _ _ => trivial) h₀
    fun _ s l s' hi _ hst => hstep s l s' hi hst

end Reachable

/-! ### Systems given by a step function -/

/-- The system of a partial step function; `none` means that the label is not enabled. -/
def ofFun (f : S → L → Option S) : LTS S L := ⟨fun s l s' => f s l = some s'⟩

/-- Perform the labels in order. -/
def exec (f : S → L → Option S) (s : S) : List L → Option S
  | [] => some s
  | l :: ls => (f s l).bind fun s' => exec f s' ls

/-- The moves that performing the labels makes, up to the first that is not enabled. -/
def trace (f : S → L → Option S) (s : S) : List L → List (Move S L)
  | [] => []
  | l :: ls =>
    match f s l with
    | some s' => ⟨s, l, s'⟩ :: trace f s' ls
    | none => []

variable {f : S → L → Option S}

/-- Performing labels is a run. -/
theorem run_of_exec {ls : List L} {s' : S} (h : exec f s ls = some s') :
    (ofFun f).Run s (trace f s ls) s' := by
  induction ls generalizing s with
  | nil =>
    obtain rfl : s = s' := by simpa [exec] using h
    exact .refl
  | cons l ls ih =>
    obtain ⟨s₁, h₁, h₂⟩ := Option.bind_eq_some_iff.1 h
    have htrace : trace f s (l :: ls) = [⟨s, l, s₁⟩] ++ trace f s₁ ls := by simp [trace, h₁]
    rw [htrace]
    exact (Run.single h₁).append (ih h₂)

theorem lbl_mem_of_trace {ls : List L} {m : Move S L} (h : m ∈ trace f s ls) : m.lbl ∈ ls := by
  induction ls generalizing s with
  | nil => cases h
  | cons l ls ih =>
    unfold trace at h
    split at h
    · rcases List.mem_cons.1 h with rfl | h
      · exact List.mem_cons_self
      · exact List.mem_cons_of_mem _ (ih h)
    · cases h

end LTS

end Gritty
