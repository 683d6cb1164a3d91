import Mathlib.Data.List.Basic
import Mathlib.Tactic.Common

/-!
# Offers to a non-blocking sink

A non-blocking write is an *offer*: the sink takes a prefix of what it is offered and reports its
length.  A writer that looks at the length offers the rest again, and a writer that does not has
lost it.

For the second kind of writer the sink has the stream whole exactly when it took every offer whole.
Lost elements cannot be made good by later ones, since the sink never takes more than it is offered.

## Main results

* `accepted_sublist` : the sink takes nothing that it is not offered, and keeps the order.
* `accepted_eq_offered_iff` : the sink has the offered elements if and only if it took every offer
  whole.
-/

namespace Gritty

/-- Some elements offered to a sink, and how many of them it takes. -/
structure Offer (α : Type*) where
  data : List α
  taken : ℕ

namespace Offer

variable {α : Type*}

/-- The sink takes all that is offered. -/
def Whole (o : Offer α) : Prop := o.data.length ≤ o.taken

instance (o : Offer α) : Decidable o.Whole := inferInstanceAs (Decidable (_ ≤ _))

/-- The elements that a sequence of offers puts before the sink. -/
def offered (l : List (Offer α)) : List α := l.flatMap data

/-- The elements that the sink takes. -/
def accepted (l : List (Offer α)) : List α := l.flatMap fun o => o.data.take o.taken

@[simp] theorem offered_nil : offered ([] : List (Offer α)) = [] := rfl

@[simp] theorem accepted_nil : accepted ([] : List (Offer α)) = [] := rfl

@[simp] theorem accepted_append (l l' : List (Offer α)) :
    accepted (l ++ l') = accepted l ++ accepted l' := by
  simp [accepted]

@[simp] theorem offered_append (l l' : List (Offer α)) :
    offered (l ++ l') = offered l ++ offered l' := by
  simp [offered]

theorem length_accepted_le (l : List (Offer α)) : (accepted l).length ≤ (offered l).length := by
  induction l with
  | nil => exact Nat.le_refl _
  | cons o l ih =>
    have h : (o.data.take o.taken).length ≤ o.data.length := List.length_take_le' _ _
    simp only [accepted, offered, List.flatMap_cons, List.length_append] at ih ⊢
    omega

/-- The sink takes nothing that it is not offered, and keeps the order. -/
theorem accepted_sublist (l : List (Offer α)) : (accepted l).Sublist (offered l) := by
  induction l with
  | nil => exact .refl _
  | cons o l ih => exact (List.take_sublist _ _).append ih

/-- **The sink has the offered elements if and only if it took every offer whole.**  Lost elements
cannot be made good by later ones, since the sink never takes more than it is offered. -/
theorem accepted_eq_offered_iff (l : List (Offer α)) :
    accepted l = offered l ↔ ∀ o ∈ l, o.Whole := by
  induction l with
  | nil => simp
  | cons o l ih =>
    have hcons : accepted (o :: l) = o.data.take o.taken ++ accepted l := rfl
    have hcons' : offered (o :: l) = o.data ++ offered l := rfl
    rw [hcons, hcons', List.forall_mem_cons, ← ih]
    constructor
    · intro h
      have hlen := congrArg List.length h
      have hle := length_accepted_le l
      simp only [List.length_append, List.length_take] at hlen
      have hw : o.Whole := by unfold Whole; omega
      rw [List.take_of_length_le hw] at h
      exact ⟨hw, List.append_cancel_left h⟩
    · rintro ⟨hw, h⟩
      rw [List.take_of_length_le hw, h]

end Offer

end Gritty
