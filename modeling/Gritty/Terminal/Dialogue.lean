import Gritty.Server.Conversation
import Gritty.Terminal.Basic

/-!
# What the client may say on one connection

`Pos` says how far a connection has come, `Says` what may be done on it then, and `Dialogue` is the
protocol: what may be done on a connection from a position on, up to any moment.  It says nothing
about the client, whose moves are shown to follow it elsewhere.

## Main definitions

* `Opening` : a request, and what `relay` says first when it is granted.
* `Pos`, `Says`, `Dialogue` : the protocol.
* `Pos.script` : the frames that are still to be said at a position.
* `Carries` : a move carries a connection from a position to another.

## Main results

* `said_le_script` : what is written is a prefix of what there is to write.
* `answered` : after the request nothing is written unless the reply grants it.
* `stops` : nothing is done after a last frame was read.
* `Dialogue.trans`, `drop` : dialogues can be put together, and dropped at any time.
-/

namespace Gritty

namespace Terminal

open Server (Act IsLast)

/-- What the client has to say when it opens a connection. -/
structure Opening where
  request : Frame
  env : List (String × String)
  redraw : Bool

/-- The reply grants the request. -/
inductive Accepts : Frame → Frame → Prop
  | created {name id} : Accepts (.newSession name) (.sessionCreated id)
  | attached {session} : Accepts (.attach session) .ok

/-- The frames that the loop of `relay` writes. -/
inductive IsRelayed : Frame → Prop
  | data {bytes} : IsRelayed (.data bytes)
  | resize {cols rows} : IsRelayed (.resize cols rows)
  | ping : IsRelayed .ping

/-- How far a connection has come. -/
inductive Pos where
  | unopened
  /-- the request is due -/
  | asking (o : Opening)
  /-- the reply is due -/
  | asked (o : Opening)
  /-- `Env` is due -/
  | accepted (o : Opening)
  /-- `Resize` is due -/
  | greeted (o : Opening)
  /-- the Ctrl-L is due -/
  | sized (o : Opening)
  | relaying
  | over

/-- The frames that may be written at a position. -/
inductive Due : Pos → Frame → Prop
  | request {o} : Due (.asking o) o.request
  | env {o} : Due (.accepted o) (.env o.env)
  | resize {o cols rows} : Due (.greeted o) (.resize cols rows)
  | redraw {o} : Due (.sized o) (.data [ctrlL])
  | relayed {f} : IsRelayed f → Due .relaying f

/-- The position after a frame was written. -/
def Pos.next : Pos → Pos
  | .asking o => .asked o
  | .accepted o => .greeted o
  | .greeted o => if o.redraw then .sized o else .relaying
  | .sized _ => .relaying
  | p => p

/-- The position after the request was granted. -/
def Opening.first (o : Opening) : Pos := if o.env.isEmpty then .greeted o else .accepted o

/-- What the client makes of a frame that it reads. -/
inductive Hears : Pos → Frame → Pos → Prop
  | accept {o reply} : Accepts o.request reply → Hears (.asked o) reply o.first
  | refuse {o reply} : ¬ Accepts o.request reply → Hears (.asked o) reply .over
  | passive {f} : ¬ IsLast f → Hears .relaying f .relaying
  | last {f} : IsLast f → Hears .relaying f .over

/-- What may be done on a connection. -/
inductive Says : Pos → Act → Pos → Prop
  | sent {p f} : Due p f → Says p (.sent f true) p.next
  | failed {p f} : Due p f → Says p (.sent f false) .over
  | read {p f p'} : Hears p f p' → Says p (.read f) p'

/-- What may be done on a connection from a position on, when it may be opened with `O`. -/
inductive Dialogue (O : Opening → Prop) : Pos → List Act → Prop
  | nil {p} : Dialogue O p []
  | opens {o as} : O o → Dialogue O (.asking o) as → Dialogue O .unopened as
  | cons {p a p' as} : Says p a p' → Dialogue O p' as → Dialogue O p (a :: as)

/-- The frame of a send, also when it failed. -/
def frame? : Act → Option Frame
  | .sent f _ => some f
  | .read _ => none

/-- The frames written, and the one whose sending failed. -/
def said (as : List Act) : List Frame := as.filterMap frame?

/-- The variables, when there are any. -/
def Opening.envFrames (o : Opening) : List Frame := if o.env.isEmpty then [] else [.env o.env]

/-- The Ctrl-L that makes the session redraw its screen. -/
def Opening.redrawFrames (o : Opening) : List Frame := if o.redraw then [.data [ctrlL]] else []

/-- What remains to be written at a position, when `rest` is relayed. -/
def Pos.script (cols rows : UInt16) (rest : List Frame) : Pos → List Frame
  | .asking o => o.request :: (o.envFrames ++ .resize cols rows :: (o.redrawFrames ++ rest))
  | .asked o => o.envFrames ++ .resize cols rows :: (o.redrawFrames ++ rest)
  | .accepted o => .env o.env :: .resize cols rows :: (o.redrawFrames ++ rest)
  | .greeted o => .resize cols rows :: (o.redrawFrames ++ rest)
  | .sized _ => .data [ctrlL] :: rest
  | .relaying => rest
  | .unopened | .over => []

variable {O : Opening → Prop} {o : Opening} {p p' : Pos} {as : List Act} {f : Frame}

theorem Accepts.not_last {request reply : Frame} (h : Accepts request reply) : ¬ IsLast reply := by
  cases h <;> exact not_false

theorem script_first {cols rows : UInt16} {rest : List Frame} :
    o.first.script cols rows rest = (Pos.asked o).script cols rows rest := by
  unfold Opening.first
  by_cases he : o.env.isEmpty <;> simp [he, Pos.script, Opening.envFrames]

/-- A frame that is due comes next. -/
theorem Due.script (h : Due p f) (cols rows : UInt16) {rest : List Frame}
    (hr : ∀ g ∈ rest, IsRelayed g) : ∃ cols' rows' rest', (∀ g ∈ rest', IsRelayed g) ∧
      p.script cols' rows' rest' = f :: p.next.script cols rows rest := by
  cases h with
  | request | env | redraw => exact ⟨cols, rows, rest, hr, rfl⟩
  | @resize o cols' rows' =>
    refine ⟨cols', rows', rest, hr, ?_⟩
    cases hd : o.redraw <;> simp [Pos.script, Pos.next, Opening.redrawFrames, hd]
  | relayed hf =>
    refine ⟨cols, rows, f :: rest, fun g hg => ?_, rfl⟩
    rcases List.mem_cons.1 hg with rfl | hg
    · exact hf
    · exact hr g hg

namespace Dialogue

theorem nil_of_over (h : Dialogue O .over as) : as = [] := by
  cases h with
  | nil => rfl
  | cons hs _ =>
    cases hs with
    | sent hd | failed hd => cases hd
    | read hh => cases hh

/-- **What is written is a prefix of what there is to write.** -/
theorem said_le_script (h : Dialogue O p as) (hp : p ≠ .unopened) : ∃ cols rows rest,
    (∀ f ∈ rest, IsRelayed f) ∧ said as <+: p.script cols rows rest := by
  induction h with
  | nil => exact ⟨0, 0, [], by simp, List.nil_prefix⟩
  | opens => exact absurd rfl hp
  | @cons p a p' as hs ht ih =>
    cases hs with
    | @sent f hd =>
      have hnext : p.next ≠ .unopened := by
        cases hd <;> simp only [Pos.next, ne_eq, reduceCtorEq, not_false_eq_true]
        split <;> simp
      obtain ⟨cols, rows, rest, hr, hpre⟩ := ih hnext
      obtain ⟨cols', rows', rest', hr', hscript⟩ := hd.script cols rows hr
      refine ⟨cols', rows', rest', hr', ?_⟩
      rw [hscript]
      exact List.cons_prefix_cons.2 ⟨rfl, hpre⟩
    | @failed f hd =>
      obtain rfl := ht.nil_of_over
      have hnone : ∀ g ∈ ([] : List Frame), IsRelayed g := by simp
      obtain ⟨cols, rows, rest, hr, hscript⟩ := hd.script 0 0 hnone
      refine ⟨cols, rows, rest, hr, ?_⟩
      rw [hscript]
      exact List.cons_prefix_cons.2 ⟨rfl, List.nil_prefix⟩
    | read hh =>
      cases hh with
      | @accept o reply hacc =>
        obtain ⟨cols, rows, rest, hr, hpre⟩ := ih (by unfold Opening.first; split <;> simp)
        exact ⟨cols, rows, rest, hr, script_first ▸ hpre⟩
      | refuse | last =>
        obtain rfl := ht.nil_of_over
        exact ⟨0, 0, [], by simp, List.nil_prefix⟩
      | passive => exact ih (by simp)

/-- **After the request nothing is written unless the reply grants it.** -/
theorem answered (h : Dialogue O (.asking o) as) : as = [] ∨ (∃ ok, as = [.sent o.request ok]) ∨
    ∃ reply more, as = .sent o.request true :: .read reply :: more ∧
      (Accepts o.request reply ∨ more = []) := by
  cases h with
  | nil => exact .inl rfl
  | cons hs ht =>
    cases hs with
    | read hh => cases hh
    | failed hd =>
      cases hd
      exact .inr (.inl ⟨false, by rw [ht.nil_of_over]⟩)
    | sent hd =>
      cases hd
      cases ht with
      | nil => exact .inr (.inl ⟨true, rfl⟩)
      | cons hs ht =>
        cases hs with
        | sent hd | failed hd => cases hd
        | read hh =>
          cases hh with
          | accept hacc => exact .inr (.inr ⟨_, _, rfl, .inl hacc⟩)
          | refuse => exact .inr (.inr ⟨_, _, rfl, .inr ht.nil_of_over⟩)

/-- **Nothing is done after a last frame was read.** -/
theorem stops (h : Dialogue O p as) {pre post : List Act} (ha : as = pre ++ .read f :: post)
    (hf : IsLast f) : post = [] := by
  induction h generalizing pre with
  | nil => simp at ha
  | opens _ _ ih => exact ih ha
  | cons hs ht ih =>
    rcases List.cons_eq_append_iff.1 ha with ⟨rfl, hhead⟩ | ⟨pre, rfl, htail⟩
    · obtain ⟨rfl, rfl⟩ := List.cons.inj hhead
      cases hs with
      | read hh =>
        cases hh with
        | accept hacc => exact absurd hf hacc.not_last
        | refuse | last => exact ht.nil_of_over
        | passive hf' => exact absurd hf hf'
    · exact ih htail

/-- Doing `as` leads from a position to another one. -/
def Carries (O : Opening → Prop) (p : Pos) (as : List Act) (p' : Pos) : Prop :=
  ∀ as', Dialogue O p' as' → Dialogue O p (as ++ as')

namespace Carries

theorem refl : Carries O p [] p := fun _ h => h

theorem trans {p'' : Pos} {as' : List Act} (h : Carries O p as p') (h' : Carries O p' as' p'') :
    Carries O p (as ++ as') p'' := by
  intro as'' hd
  rw [List.append_assoc]
  exact h _ (h' _ hd)

theorem act {a : Act} (h : Says p a p') : Carries O p [a] p' := fun _ hd => .cons h hd

theorem opens (h : O o) : Carries O .unopened [] (.asking o) := fun _ hd => .opens h hd

/-- A connection can be dropped at any time. -/
theorem drop : Carries O p [] .over := by
  intro as hd
  obtain rfl := hd.nil_of_over
  exact .nil

end Carries

theorem of_unopened (h : Dialogue O .unopened as) (hO : ∃ o, O o) :
    ∃ o, O o ∧ Dialogue O (.asking o) as := by
  cases h with
  | nil =>
    obtain ⟨o, ho⟩ := hO
    exact ⟨o, ho, .nil⟩
  | opens ho h => exact ⟨_, ho, h⟩
  | cons hs _ =>
    cases hs with
    | sent hd | failed hd => cases hd
    | read hh => cases hh

end Dialogue

end Terminal

end Gritty
