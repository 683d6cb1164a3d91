import Mathlib.Tactic.Common

/-!
# Where a program goes by itself

A program that needs nobody has a partial step function `next : S → Option S`.  `Leads next G s`
says that its steps from `s` come to a state in `G`.  There is only one way to go, so that this can
be decided step by step: where there is a next step the question moves on to the next state, and
where there is none only `s` itself is left.

Statements such as "the signal is taken without waiting for anybody" are of this form, and so are
their negations.

## Main results

* `leads_iff_of_some` : where there is a step, `s` leads to `G` if it is in `G` or the next state
  leads there.
* `leads_iff_of_none` : where there is none, `s` has to be in `G`.
* `Leads.mono` : an invariant of the steps can be used at the state that they come to.
-/

namespace Gritty

namespace LTS

variable {S : Type*}

/-- The steps from a state come to one in `G`. -/
inductive Leads (next : S → Option S) (G : S → Prop) : S → Prop
  | here {s : S} : G s → Leads next G s
  | step {s s' : S} : next s = some s' → Leads next G s' → Leads next G s

variable {next : S → Option S} {G G' : S → Prop} {s s' : S}

theorem leads_iff_of_some (h : next s = some s') (hg : ¬ G s) :
    Leads next G s ↔ Leads next G s' := by
  constructor
  · intro hl
    cases hl with
    | here hs => exact absurd hs hg
    | step h' hl =>
      obtain rfl := Option.some.inj (h.symm.trans h')
      exact hl
  · exact .step h

theorem leads_iff_of_none (h : next s = none) : Leads next G s ↔ G s := by
  constructor
  · intro hl
    cases hl with
    | here hs => exact hs
    | step h' => simp [h] at h'
  · exact .here

/-- An invariant of the steps can be used at the state that they come to. -/
theorem Leads.mono {I : S → Prop} (h : Leads next G s) (hs : I s)
    (hI : ∀ s s', I s → next s = some s' → I s') (hG : ∀ s, I s → G s → G' s) :
    Leads next G' s := by
  induction h with
  | here hg => exact .here (hG _ hs hg)
  | step hn _ ih => exact .step hn (ih (hI _ _ hs hn))

end LTS

end Gritty
