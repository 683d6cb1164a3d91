import Gritty.LTS.History
import Gritty.Stream.Decoder

/-!
# Wires

One direction of a stream connection: a queue of elements, at one end a writer that encodes items,
at the other a reader that decodes them from what has arrived.  Writing can fail halfway; then a
part of the item is on the wire and nothing is written after it.  Someone who does not use the codec
can put any elements on a wire.

A reader sees elements, not items, so that it reads items at all has to be shown.  When the items
are good ones, a wire is a queue of items: what was written is what was read followed by what is
still on the wire.  The part of an item that a failed write has left makes the decoder wait, and so
it is never read as something else.

## Main definitions

* `Codec` : an incremental decoder together with an encoder of its items.
* `Wire.lts` : writing, reading and injecting, as a transition system.
* `Wire.Holds` : the items that are on a wire, and the part of one behind them.

## Main results

* `Holds.step` : one move conserves the items.
* `queue` : a wire is a queue of items.
* `failures_stick` : nothing is written after a write that failed.
-/

namespace Gritty

/-- An incremental decoder together with an encoder of its items, which it reads back when they are
good. -/
structure Codec (α β ε : Type*) extends StreamDecoder α β ε where
  encode : β → List α
  Good : β → Prop
  decode_encode : ∀ {x}, Good x → ∀ t, decode (encode x ++ t) = (.ok (some x), t)

/-- One direction of a connection. -/
structure Wire (α : Type*) where
  /-- what was put on the wire and not taken off by the reader, the part that has not arrived yet
  included -/
  elems : List α
  /-- a write failed -/
  broken : Bool

namespace Codec

variable {α β ε : Type*} (D : Codec α β ε)

/-- A part of an encoded item, but not all of it. -/
def Part (p : List α) (x : β) : Prop := ∃ q, q ≠ [] ∧ p ++ q = D.encode x

variable {D} {x : β} {xs : List β} {p : List α}

theorem decode_part (hx : D.Good x) (h : D.Part p x) : D.decode p = (.ok none, p) := by
  obtain ⟨q, hq, he⟩ := h
  have hwhole : D.decode (p ++ q) = (.ok (some x), []) := by
    rw [he]
    simpa using D.decode_encode hx []
  cases hd : D.decode p with
  | mk answer b' =>
    rcases answer with e | _ | y
    · obtain ⟨b'', h'⟩ := D.error_append hd q
      simp [hwhole] at h'
    · rw [D.none_keeps hd]
    · have h' := D.some_append hd q
      rw [hwhole, Prod.mk.injEq] at h'
      exact absurd (List.append_eq_nil_iff.1 h'.2.symm).2 hq

theorem drain_part (hx : D.Good x) (h : D.Part p x) : D.drain p = ⟨[], .ok p⟩ :=
  StreamDecoder.drain_of_none (decode_part hx h)

/-- Draining encoded items yields them. -/
theorem drain_encode (hxs : ∀ x ∈ xs, D.Good x) (t : List α) :
    D.drain (xs.flatMap D.encode ++ t) = (D.drain t).prepend xs := by
  induction xs with
  | nil => rfl
  | cons x xs ih =>
    have hx := D.decode_encode (hxs x List.mem_cons_self) (xs.flatMap D.encode ++ t)
    rw [List.flatMap_cons, List.append_assoc, StreamDecoder.drain_of_some hx,
      ih fun y hy => hxs y (List.mem_cons_of_mem _ hy)]
    rfl

end Codec

namespace Wire

variable {α β ε : Type*}

/-- What happens on a wire. -/
inductive Label (α β : Type*) where
  /-- an item is written, or its writing fails when `cut` of its elements are on the wire -/
  | write (x : β) (ok : Bool) (cut : ℕ)
  /-- elements are put on the wire by someone who does not use the codec -/
  | inject (elems : List α)
  /-- an item is read -/
  | read (x : β)

/-- Nothing was put on the wire. -/
def empty : Wire α := ⟨[], false⟩

variable (D : Codec α β ε)

/-- Nothing is written on a broken wire. -/
def write (w : Wire α) (x : β) (ok : Bool) (cut : ℕ) : Option (Wire α) :=
  if w.broken then if ok then none else some w
  else if ok then some ⟨w.elems ++ D.encode x, false⟩
  else if cut < (D.encode x).length then some ⟨w.elems ++ (D.encode x).take cut, true⟩
  else none

/-- Put elements on the wire. -/
def inject (w : Wire α) (elems : List α) : Wire α := { w with elems := w.elems ++ elems }

/-- The reader decodes the next item. -/
def take (w : Wire α) : Option (β × Wire α) :=
  match D.decode w.elems with
  | (.ok (some y), rest) => some (y, { w with elems := rest })
  | _ => none

variable [DecidableEq β]

/-- The reader decodes the item `x` next. -/
def read (w : Wire α) (x : β) : Option (Wire α) :=
  (w.take D).bind fun p => if p.1 = x then some p.2 else none

/-- What a label does, when it can happen. -/
def step (w : Wire α) : Label α β → Option (Wire α)
  | .write x ok cut => w.write D x ok cut
  | .inject elems => some (w.inject elems)
  | .read x => w.read D x

/-- The wire as a transition system. -/
def lts : LTS (Wire α) (Label α β) := .ofFun (step D)

namespace Label

/-- The item written, if it was. -/
def written : Label α β → List β
  | .write x true _ => [x]
  | .write _ false _ | .inject _ | .read _ => []

/-- The item read. -/
def taken : Label α β → List β
  | .read x => [x]
  | .write _ _ _ | .inject _ => []

/-- Writing an item failed. -/
def Failed : Label α β → Prop
  | .write _ ok _ => ok = false
  | .inject _ | .read _ => False

/-- Only good items are written, and nothing else. -/
def Good : Label α β → Prop
  | .write x _ _ => D.Good x
  | .inject _ => False
  | .read _ => True

end Label

/-- The items written, in order. -/
def written (tr : List (Move (Wire α) (Label α β))) : List β := tr.flatMap fun m => m.lbl.written

/-- The items read, in order. -/
def taken (tr : List (Move (Wire α) (Label α β))) : List β := tr.flatMap fun m => m.lbl.taken

variable {D} {w w' : Wire α} {x : β} {ok : Bool} {cut : ℕ} {l : Label α β} {pending : List β}
  {tr : List (Move (Wire α) (Label α β))}

/-! ### One move -/

omit [DecidableEq β] in
theorem write_eq_some (h : w.write D x ok cut = some w') :
    (w.broken = true ∧ ok = false ∧ w' = w) ∨
      (w.broken = false ∧ ok = true ∧ w' = ⟨w.elems ++ D.encode x, false⟩) ∨
      (w.broken = false ∧ ok = false ∧ cut < (D.encode x).length ∧
        w' = ⟨w.elems ++ (D.encode x).take cut, true⟩) := by
  unfold write at h
  cases hb : w.broken with
  | true =>
    cases ok with
    | true => simp [hb] at h
    | false => exact .inl ⟨rfl, rfl, by simpa [hb, eq_comm] using h⟩
  | false =>
    cases ok with
    | true => exact .inr (.inl ⟨rfl, rfl, by simpa [hb, eq_comm] using h⟩)
    | false =>
      obtain ⟨hcut, hw⟩ : cut < (D.encode x).length ∧
          ⟨w.elems ++ (D.encode x).take cut, true⟩ = w' := by simpa [hb] using h
      exact .inr (.inr ⟨rfl, rfl, hcut, hw.symm⟩)

theorem read_eq_some (h : w.read D x = some w') :
    D.decode w.elems = (.ok (some x), w'.elems) ∧ w'.broken = w.broken := by
  obtain ⟨⟨y, w''⟩, ht, hx⟩ := Option.bind_eq_some_iff.1 h
  obtain ⟨rfl, rfl⟩ : y = x ∧ w'' = w' := by simpa using hx
  unfold take at ht
  split at ht
  · next z rest hd =>
    obtain ⟨rfl, rfl⟩ := Prod.mk.inj (Option.some.inj ht)
    exact ⟨hd, rfl⟩
  · cases ht

theorem step_of_broken (h : step D w l = some w') (hb : w.broken = true) :
    w'.broken = true ∧ l.written = [] := by
  cases l with
  | write x ok cut =>
    rcases write_eq_some h with ⟨-, rfl, rfl⟩ | ⟨hb', -⟩ | ⟨hb', -⟩
    · exact ⟨hb, rfl⟩
    · simp [hb] at hb'
    · simp [hb] at hb'
  | inject elems =>
    obtain rfl := Option.some.inj h
    exact ⟨hb, rfl⟩
  | read x => exact ⟨(read_eq_some h).2.trans hb, rfl⟩

theorem broken_of_failed (h : step D w l = some w') (hl : l.Failed) : w'.broken = true := by
  cases l with
  | write x ok cut =>
    obtain rfl : ok = false := hl
    rcases write_eq_some h with ⟨hb, -, rfl⟩ | ⟨-, h, -⟩ | ⟨-, -, -, rfl⟩
    · exact hb
    · cases h
    · rfl
  | inject => exact hl.elim
  | read => exact hl.elim

/-! ### The items on a wire -/

/-- The wire holds the items `pending`, and maybe a part of one whose writing failed. -/
inductive Holds (D : Codec α β ε) (w : Wire α) (pending : List β) : Prop
  | whole : (∀ x ∈ pending, D.Good x) → w.elems = pending.flatMap D.encode → Holds D w pending
  | part {p : List α} {x : β} : (∀ x ∈ pending, D.Good x) → w.broken = true → D.Good x →
      D.Part p x → w.elems = pending.flatMap D.encode ++ p → Holds D w pending

namespace Holds

omit [DecidableEq β] in
theorem good (h : Holds D w pending) : ∀ x ∈ pending, D.Good x := by
  cases h with
  | whole hg => exact hg
  | part hg => exact hg

omit [DecidableEq β] in
/-- Draining the wire yields the items, and no error. -/
theorem drain (h : Holds D w pending) : ∃ rest, D.drain w.elems = ⟨pending, .ok rest⟩ := by
  cases h with
  | whole hg he =>
    refine ⟨[], ?_⟩
    rw [he, ← List.append_nil (pending.flatMap _), Codec.drain_encode hg, StreamDecoder.drain_nil]
    simp [StreamDecoder.Yield.prepend]
  | @part p x hg _ hx hp he =>
    refine ⟨p, ?_⟩
    rw [he, Codec.drain_encode hg, Codec.drain_part hx hp]
    simp [StreamDecoder.Yield.prepend]

omit [DecidableEq β] in
/-- The next item that can be read is the first one. -/
theorem decode (h : Holds D w pending) : (D.decode w.elems).1 = .ok pending.head? := by
  cases pending with
  | nil =>
    cases h with
    | whole _ he => simp [he, D.decode_nil]
    | part _ _ hx hp he =>
      have he' : w.elems = _ := he
      rw [he', List.flatMap_nil, List.nil_append, Codec.decode_part hx hp]
      rfl
  | cons y ys =>
    have hy := h.good y List.mem_cons_self
    cases h with
    | whole _ he => rw [he, List.flatMap_cons, D.decode_encode hy]; rfl
    | part _ _ _ _ he => rw [he, List.flatMap_cons, List.append_assoc, D.decode_encode hy]; rfl

/-- **One move conserves the items**: those on the wire and the one that is written are the one that
is read and those that are left. -/
theorem step (h : Holds D w pending) (hl : l.Good D) (hst : step D w l = some w') :
    ∃ pending', Holds D w' pending' ∧ pending ++ l.written = l.taken ++ pending' := by
  cases l with
  | inject => exact hl.elim
  | write x ok cut =>
    rcases write_eq_some hst with ⟨hb, rfl, rfl⟩ | ⟨hb, rfl, rfl⟩ | ⟨hb, rfl, hcut, rfl⟩
    · exact ⟨pending, h, by simp [Label.written, Label.taken]⟩
    · -- the wire was not broken, so it ends with a whole item
      cases h with
      | part _ hb' => simp [hb] at hb'
      | whole hg he =>
        refine ⟨pending ++ [x], .whole ?_ ?_, rfl⟩
        · intro y hy
          rcases List.mem_append.1 hy with hy | hy
          · exact hg y hy
          · exact List.mem_singleton.1 hy ▸ hl
        · simp [he]
    · cases h with
      | part _ hb' => simp [hb] at hb'
      | whole hg he =>
        have hpart : D.Part ((D.encode x).take cut) x := by
          refine ⟨(D.encode x).drop cut, ?_, List.take_append_drop _ _⟩
          simpa using hcut
        exact ⟨pending, .part hg rfl hl hpart (by simp [he]),
          by simp [Label.written, Label.taken]⟩
  | read x =>
    obtain ⟨hd, hb⟩ := read_eq_some hst
    cases pending with
    | nil =>
      have hn := h.decode
      simp [hd] at hn
    | cons y ys =>
      have hy := h.good y List.mem_cons_self
      have hg : ∀ x ∈ ys, D.Good x := fun z hz => h.good z (List.mem_cons_of_mem _ hz)
      cases h with
      | whole _ he =>
        rw [he, List.flatMap_cons, D.decode_encode hy] at hd
        obtain ⟨hx, hrest⟩ := Prod.mk.inj hd
        obtain rfl : y = x := by simpa using hx
        exact ⟨ys, .whole hg hrest.symm, by simp [Label.written, Label.taken]⟩
      | part _ hb' hx' hp he =>
        rw [he, List.flatMap_cons, List.append_assoc, D.decode_encode hy] at hd
        obtain ⟨hx, hrest⟩ := Prod.mk.inj hd
        obtain rfl : y = x := by simpa using hx
        exact ⟨ys, .part hg (hb.trans hb') hx' hp hrest.symm,
          by simp [Label.written, Label.taken]⟩

end Holds

/-! ### Runs -/

/-- **A wire is a queue of items.**  When good items are written and nothing else is put on the
wire, what was written is what was read, in the same order, followed by what is still on it. -/
theorem queue (hr : (lts D).Run empty tr w) (hg : ∀ m ∈ tr, m.lbl.Good D) :
    ∃ pending, Holds D w pending ∧ written tr = taken tr ++ pending := by
  refine hr.invariant (P := fun m => m.lbl.Good D)
    (I := fun tr w => ∃ pending, Holds D w pending ∧ written tr = taken tr ++ pending) hg
    ⟨[], .whole (by simp) rfl, rfl⟩ ?_
  rintro tr w l w' ⟨pending, hh, hw⟩ hl hst
  obtain ⟨pending', hh', hc⟩ := hh.step hl hst
  refine ⟨pending', hh', ?_⟩
  have hwritten : written (tr ++ [⟨w, l, w'⟩]) = written tr ++ l.written := by simp [written]
  have htaken : taken (tr ++ [⟨w, l, w'⟩]) = taken tr ++ l.taken := by simp [taken]
  rw [hwritten, hw, htaken, List.append_assoc, hc, List.append_assoc]

/-- **Failures stick**: nothing is written after a write that failed. -/
theorem failures_stick (hr : (lts D).Run w tr w') :
    (tr.map Move.lbl).Pairwise fun l l' => l.Failed → l'.written = [] := by
  have h : ((tr.map Move.lbl).Pairwise fun l l' => l.Failed → l'.written = []) ∧
      ((∃ l ∈ tr.map Move.lbl, l.Failed) → w'.broken = true) := by
    induction hr with
    | refl => simp
    | @tail tr w₁ w₂ l hr hst ih =>
      obtain ⟨hp, hb⟩ := ih
      simp only [List.map_append, List.map_cons, List.map_nil]
      refine ⟨List.pairwise_append.2 ⟨hp, List.pairwise_singleton _ _, ?_⟩, ?_⟩
      · intro l₁ h₁ l₂ h₂ hf
        obtain rfl := List.mem_singleton.1 h₂
        exact (step_of_broken hst (hb ⟨l₁, h₁, hf⟩)).2
      · rintro ⟨l', hl', hf⟩
        rcases List.mem_append.1 hl' with h' | h'
        · exact (step_of_broken hst (hb ⟨l', h', hf⟩)).1
        · obtain rfl := List.mem_singleton.1 h'
          exact broken_of_failed hst hf
  exact h.1

end Wire

end Gritty
