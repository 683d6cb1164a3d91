import Mathlib.Data.List.Basic
import Mathlib.Tactic.Common

/-!
# Incremental decoders

A `StreamDecoder` reads items from the front of a growing buffer.  Its laws say that it answers
"not yet" without touching the buffer, that an item takes at least `minLen` elements, and that an
answer, once given, is not changed by what arrives later.

`drain` decodes until nothing more comes, and `feed` drains the buffer after each chunk.  The loops
need no bound on their length from outside: each item makes the buffer shorter.

## Main results

* `StreamDecoder.calls_drain_le` : decoding until nothing more comes takes at most
  `length / minLen + 1` calls.
* `StreamDecoder.drain_append` : draining a longer buffer continues where draining its front
  stopped.
* `StreamDecoder.feed_eq` : feeding a stream chunk by chunk gives what decoding the whole stream
  at once gives, however the stream is cut.
-/

namespace Gritty

/-- A decoder of items `β` from a buffer of `α`, with errors `ε`. -/
structure StreamDecoder (α β ε : Type*) where
  /-- One call: the answer and the buffer it leaves. -/
  decode : List α → Except ε (Option β) × List α
  /-- Every item takes at least this many elements. -/
  minLen : ℕ
  minLen_pos : 0 < minLen
  decode_nil : decode [] = (.ok none, [])
  none_keeps : ∀ {b b'}, decode b = (.ok none, b') → b' = b
  some_consumes : ∀ {b b' x}, decode b = (.ok (some x), b') → ∃ p, b = p ++ b' ∧ minLen ≤ p.length
  some_append : ∀ {b b' x}, decode b = (.ok (some x), b') →
    ∀ t, decode (b ++ t) = (.ok (some x), b' ++ t)
  error_append : ∀ {b b' e}, decode b = (.error e, b') →
    ∀ t, ∃ b'', decode (b ++ t) = (.error e, b'')

namespace StreamDecoder

variable {α β ε : Type*} (D : StreamDecoder α β ε)

/-- What a decoding loop yields: the items, and the first error or the buffer that is left. -/
structure Yield (α β ε : Type*) where
  items : List β
  stop : Except ε (List α)

/-- Put items in front. -/
def Yield.prepend (xs : List β) (y : Yield α β ε) : Yield α β ε := ⟨xs ++ y.items, y.stop⟩

@[simp] theorem Yield.prepend_nil (y : Yield α β ε) : y.prepend [] = y := rfl

variable {D} in
theorem length_lt_of_some {b b' : List α} {x : β} (h : D.decode b = (.ok (some x), b')) :
    b'.length + D.minLen ≤ b.length := by
  obtain ⟨p, rfl, hp⟩ := D.some_consumes h
  rw [List.length_append]
  omega

/-- Call the decoder until it answers "not yet" or its first error.  Also counts the calls. -/
def drainCalls (b : List α) : ℕ × Yield α β ε :=
  match h : D.decode b with
  | (.ok none, b') => (1, ⟨[], .ok b'⟩)
  | (.ok (some x), b') =>
    let r := drainCalls b'
    (r.1 + 1, r.2.prepend [x])
  | (.error e, _) => (1, ⟨[], .error e⟩)
termination_by b.length
decreasing_by have := length_lt_of_some h; have := D.minLen_pos; omega

/-- The yield of a whole buffer. -/
def drain (b : List α) : Yield α β ε := (D.drainCalls b).2

/-- Append the chunks one by one to the buffer, draining it after each, up to the first error. -/
def feed (b : List α) : List (List α) → Yield α β ε
  | [] => ⟨[], .ok b⟩
  | c :: cs =>
    match D.drain (b ++ c) with
    | ⟨xs, .error e⟩ => ⟨xs, .error e⟩
    | ⟨xs, .ok b'⟩ => (feed b' cs).prepend xs

variable {D} {b b' : List α}

theorem drain_of_none (h : D.decode b = (.ok none, b')) : D.drain b = ⟨[], .ok b⟩ := by
  obtain rfl := D.none_keeps h
  rw [drain, drainCalls]
  split <;> simp_all

theorem drain_of_some {x : β} (h : D.decode b = (.ok (some x), b')) :
    D.drain b = (D.drain b').prepend [x] := by
  rw [drain, drainCalls]
  split <;> simp_all [drain]

theorem drain_of_error {e : ε} (h : D.decode b = (.error e, b')) : D.drain b = ⟨[], .error e⟩ := by
  rw [drain, drainCalls]
  split <;> simp_all

/-- **The loop is short**: with at least `minLen` elements per item, a buffer is drained after at
most `length / minLen + 1` calls. -/
theorem calls_drain_le (b : List α) : (D.drainCalls b).1 ≤ b.length / D.minLen + 1 := by
  induction b using drainCalls.induct (D := D) with
  | case1 b b' h => rw [drainCalls]; split <;> simp_all
  | case2 b x b' h ih =>
    have hlen := length_lt_of_some h
    have hdiv : b'.length / D.minLen + 1 ≤ b.length / D.minLen := by
      rw [← Nat.add_div_right _ D.minLen_pos]
      exact Nat.div_le_div_right hlen
    have hcalls : (D.drainCalls b).1 = (D.drainCalls b').1 + 1 := by
      rw [drainCalls]
      split <;> simp_all
    omega
  | case3 b e b' h => rw [drainCalls]; split <;> simp_all

/-- **Prefix stability**: draining a longer buffer continues where draining its front stopped. -/
theorem drain_append (b t : List α) : D.drain (b ++ t) =
    match D.drain b with
    | ⟨xs, .error e⟩ => ⟨xs, .error e⟩
    | ⟨xs, .ok b'⟩ => (D.drain (b' ++ t)).prepend xs := by
  induction b using drainCalls.induct (D := D) with
  | case1 b b' h => simp [drain_of_none h]
  | case2 b x b' h ih =>
    rw [drain_of_some (D.some_append h t), ih, drain_of_some h]
    cases hd : D.drain b' with
    | mk xs stop => cases stop <;> simp [Yield.prepend]
  | case3 b e b' h =>
    obtain ⟨b'', h'⟩ := D.error_append h t
    simp [drain_of_error h', drain_of_error h]

/-- What is left after draining holds no further item. -/
theorem drain_of_drain_ok {xs : List β} (h : D.drain b = ⟨xs, .ok b'⟩) :
    D.drain b' = ⟨[], .ok b'⟩ := by
  induction b using drainCalls.induct (D := D) generalizing xs with
  | case1 b b'' hn =>
    rw [drain_of_none hn] at h
    obtain rfl : b = b' := by simpa using congrArg Yield.stop h
    exact drain_of_none hn
  | case2 b x b'' hs ih =>
    rw [drain_of_some hs] at h
    have hstop : (D.drain b'').stop = .ok b' := by simpa [Yield.prepend] using congrArg Yield.stop h
    have hdrain : D.drain b'' = ⟨(D.drain b'').items, .ok b'⟩ := by rw [← hstop]
    exact ih hdrain
  | case3 b e b'' he =>
    rw [drain_of_error he] at h
    simp at h

/-- **Cutting does not matter.**  From a buffer that holds no item yet, feeding the chunks one by
one yields what draining everything at once yields. -/
theorem feed_eq {cs : List (List α)} (hb : D.drain b = ⟨[], .ok b⟩) :
    D.feed b cs = D.drain (b ++ cs.flatten) := by
  induction cs generalizing b with
  | nil => simp [feed, hb]
  | cons c cs ih =>
    rw [feed, List.flatten_cons, ← List.append_assoc, drain_append (b ++ c)]
    cases hd : D.drain (b ++ c) with
    | mk xs stop =>
      cases stop with
      | error e => rfl
      | ok b' => simp [ih (drain_of_drain_ok hd)]

theorem drain_nil : D.drain [] = ⟨[], .ok []⟩ := drain_of_none D.decode_nil

end StreamDecoder

end Gritty
