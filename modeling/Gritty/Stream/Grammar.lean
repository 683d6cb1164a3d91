import Gritty.Stream.Decoder
import Mathlib.Data.List.Forall2

/-!
# What a decoder accepts

A decoder is a function on buffers.  `StreamDecoder.Reads` describes it by two sets instead: which
pieces of the stream are items, and of which rests the decoder waits for more.  All the rest is an
error.

Draining then accepts exactly the streams that are items one after the other, followed by a rest
that is waited for, and it fails exactly where after some items neither an item nor such a rest
begins.  Both are equivalences, so that the two sets describe the decoder completely.

## Main results

* `drain_append` : items in front are drained first.
* `drain_ok_iff` : what is accepted.
* `drain_error_iff` : where draining fails.
-/

namespace Gritty

namespace StreamDecoder

variable {α β ε : Type*} {D : StreamDecoder α β ε} {IsItem : List α → β → Prop}
  {Waits : List α → Prop} {b b' r : List α} {x : β} {xs : List β} {e : ε}

/-- The decoder reads these items, and waits at these rests. -/
structure Reads (D : StreamDecoder α β ε) (IsItem : List α → β → Prop) (Waits : List α → Prop) :
    Prop where
  some_iff : ∀ {b b' x}, D.decode b = (.ok (some x), b') ↔ ∃ p, b = p ++ b' ∧ IsItem p x
  none_iff : ∀ {b}, D.decode b = (.ok none, b) ↔ Waits b

namespace Reads

/-- Items in front are drained first. -/
theorem drain_append (h : D.Reads IsItem Waits) {ps : List (List α)}
    (hps : List.Forall₂ IsItem ps xs) (b : List α) :
    D.drain (ps.flatten ++ b) = (D.drain b).prepend xs := by
  induction hps with
  | nil => rfl
  | @cons p x ps xs hp _ ih =>
    rw [List.flatten_cons, List.append_assoc, drain_of_some (h.some_iff.2 ⟨p, rfl, hp⟩), ih]
    rfl

theorem exists_items (h : D.Reads IsItem Waits) (b : List α) :
    ∃ ps rest, b = ps.flatten ++ rest ∧ List.Forall₂ IsItem ps (D.drain b).items ∧
      D.drain rest = ⟨[], (D.drain b).stop⟩ := by
  induction b using drainCalls.induct (D := D) with
  | case1 b b' hd =>
    rw [drain_of_none hd]
    exact ⟨[], b, rfl, .nil, drain_of_none hd⟩
  | case2 b x b' hd ih =>
    obtain ⟨p, rfl, hp⟩ := h.some_iff.1 hd
    obtain ⟨ps, rest, hb', hps, hrest⟩ := ih
    rw [drain_of_some hd]
    refine ⟨p :: ps, rest, ?_, .cons hp hps, hrest⟩
    rw [List.flatten_cons, List.append_assoc, ← hb']
  | case3 b e b' hd =>
    rw [drain_of_error hd]
    exact ⟨[], b, rfl, .nil, drain_of_error hd⟩

theorem drain_eq_nil_ok_iff (h : D.Reads IsItem Waits) :
    D.drain b = ⟨[], .ok r⟩ ↔ r = b ∧ Waits b := by
  constructor
  · intro hd
    cases hdec : D.decode b with
    | mk answer b' =>
      rcases answer with e | _ | x
      · simp [drain_of_error hdec] at hd
      · rw [drain_of_none hdec] at hd
        obtain rfl : b = r := by simpa using congrArg Yield.stop hd
        obtain rfl := D.none_keeps hdec
        exact ⟨rfl, h.none_iff.1 hdec⟩
      · simp [drain_of_some hdec, Yield.prepend] at hd
  · rintro ⟨rfl, hw⟩
    exact drain_of_none (h.none_iff.2 hw)

/-- **What is accepted** is items one after the other, and a rest of which more is awaited. -/
theorem drain_ok_iff (h : D.Reads IsItem Waits) : D.drain b = ⟨xs, .ok r⟩ ↔
    ∃ ps, b = ps.flatten ++ r ∧ List.Forall₂ IsItem ps xs ∧ Waits r := by
  constructor
  · intro hd
    obtain ⟨ps, rest, rfl, hps, hrest⟩ := h.exists_items b
    rw [hd] at hps hrest
    obtain ⟨rfl, hw⟩ := h.drain_eq_nil_ok_iff.1 hrest
    exact ⟨ps, rfl, hps, hw⟩
  · rintro ⟨ps, rfl, hps, hw⟩
    rw [h.drain_append hps, h.drain_eq_nil_ok_iff.2 ⟨rfl, hw⟩]
    simp [Yield.prepend]

/-- **Where draining fails** items come first, and what follows is an error at once. -/
theorem drain_error_iff (h : D.Reads IsItem Waits) : D.drain b = ⟨xs, .error e⟩ ↔
    ∃ ps rest, b = ps.flatten ++ rest ∧ List.Forall₂ IsItem ps xs ∧
      (D.decode rest).1 = .error e := by
  constructor
  · intro hd
    obtain ⟨ps, rest, rfl, hps, hrest⟩ := h.exists_items b
    rw [hd] at hps hrest
    refine ⟨ps, rest, rfl, hps, ?_⟩
    cases hdec : D.decode rest with
    | mk answer b' =>
      rcases answer with e' | _ | x
      · simpa [drain_of_error hdec] using hrest
      · simp [drain_of_none hdec] at hrest
      · simp [drain_of_some hdec, Yield.prepend] at hrest
  · rintro ⟨ps, rest, rfl, hps, herr⟩
    have hdec : D.decode rest = (.error e, (D.decode rest).2) := Prod.ext herr rfl
    rw [h.drain_append hps, drain_of_error hdec]
    simp [Yield.prepend]

end Reads

end StreamDecoder

end Gritty
