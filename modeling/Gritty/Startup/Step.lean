import Gritty.Startup.Basic

/-!
# The moves of a start

`ParentStep` and `ChildStep` list the moves, one constructor for each call and each of its results.
The moves of a child at the control socket are those of `Gritty.Security.Socket`, and the list says
where the child goes on from there.  The invariants of the starts are shown by cases on these lists.

## Main definitions

* `ParentStep`, `ChildStep` : the moves of the two processes of a start.
* `Goes` : the moves of the child that change nothing beside it.
* `Step` : the moves of all starts.

## Main results

* `parentStep_cases`, `childStep_cases` : the lists of the two processes are complete.
* `step_cases` : so is the list of the system.
* `invocations_of_ne` : a move of one process leaves the other starts where they are.
-/

namespace Gritty

namespace Startup

open Security (Pid Call)

variable {s s' : State} {i i' : Invocation} {p : Pid}

/-- The moves of the parent. -/
inductive ParentStep (i : Invocation) : ParentEvent → Invocation → Prop
  | piped : i.parent = .piping → ParentStep i (.pipe true) { i with parent := .forking }
  | pipeFailed : i.parent = .piping → ParentStep i (.pipe false) { i with parent := .exited 1 }
  | forked : i.parent = .forking →
      ParentStep i (.fork true) { i with parent := .closing, child := .detaching }
  | forkFailed : i.parent = .forking → ParentStep i (.fork false) { i with parent := .exited 1 }
  | close : i.parent = .closing → ParentStep i .close { i with parent := .reading }
  | started : i.parent = .reading → i.byte = true →
      ParentStep i (.read true) { i with parent := .exited 0 }
  | notStarted : i.parent = .reading → i.byte = false → i.child.writes = false →
      ParentStep i (.read true) { i with parent := .exited 1 }
  | readFailed : i.parent = .reading → ParentStep i (.read false) { i with parent := .exited 1 }
  | kill : i.parent ≠ .foreground → ParentStep i .kill { i with parent := .killed }

/-- The moves of the child that change nothing beside it. -/
inductive Goes : Child → ChildEvent → Child → Prop
  | detach : Goes .detaching (.detach true) .starting
  | start : Goes .starting (.start true) .preparing
  | createDir : Goes .preparing (.createDir true) .binding
  | release : Goes .releasing .release .recording
  | handle : Goes .handling (.handle true) .serving

/-- The moves of the child. -/
inductive ChildStep (s : State) (p : Pid) : ChildEvent → State → Prop
  | go {e c} : Goes (s.invocations p).child e c → ChildStep s p e (s.enter p c)
  | call {call socket} : (s.invocations p).child = .binding → binds call = true →
      Security.step s.socket (p, call) = some socket → ChildStep s p (.call call)
      { s.enter p (afterCall (s.invocations p).parent (socket.phase p)) with socket := socket }
  | announce : (s.invocations p).child = .announcing →
      ChildStep s p .announce (s.set p { s.invocations p with
        child := .releasing, byte := (s.invocations p).parent.reads })
  | create : (s.invocations p).child = .recording →
      ChildStep s p (.create true) { s.enter p .writing with pidFile := .empty }
  | write : (s.invocations p).child = .writing →
      ChildStep s p (.write true) { s.enter p .handling with pidFile := .pid p }
  | stop {socket} : (s.invocations p).child = .serving →
      Security.step s.socket (p, .shutdown) = some socket →
      ChildStep s p .stop { s.enter p .removing with socket := socket }
  | removePid {ok} : (s.invocations p).child = .removing → ChildStep s p (.removePid ok)
      { s.enter p .closing with pidFile := if ok then .absent else s.pidFile }
  | finish {socket} : (s.invocations p).child = .closing →
      Security.step s.socket (p, .drop) = some socket →
      ChildStep s p .finish { s.enter p .exited with socket := socket }
  | exit {e} : (s.invocations p).child ≠ .unborn → e.call? = some .die → ChildStep s p e (s.exit p)

/-- The moves of the processes. -/
inductive Step (s : State) : Event → State → Prop
  | parent {p e i} : ParentStep (s.invocations p) e i → Step s (.parent p e) (s.set p i)
  | child {p e s'} : ChildStep s p e s' → Step s (.child p e) s'

theorem parentStep_cases {e : ParentEvent} (h : parentStep i e = some i') : ParentStep i e i' := by
  unfold parentStep at h
  split at h
  case h_1 ok =>
    split at h
    · next hp =>
      obtain rfl := Option.some.inj h
      cases ok with
      | true => exact .piped hp
      | false => exact .pipeFailed hp
    · cases h
  case h_2 ok =>
    split at h
    · next hp =>
      obtain rfl := Option.some.inj h
      cases ok with
      | true => exact .forked hp
      | false => exact .forkFailed hp
    · cases h
  case h_3 =>
    split at h
    · next hp =>
      obtain rfl := Option.some.inj h
      exact .close hp
    · cases h
  case h_4 ok =>
    split at h
    · next hp =>
      cases ok with
      | false =>
        obtain rfl := Option.some.inj h
        exact .readFailed hp
      | true =>
        rw [if_pos rfl] at h
        by_cases hb : i.byte = true
        · rw [if_pos hb] at h
          obtain rfl := Option.some.inj h
          exact .started hp hb
        · rw [if_neg hb] at h
          by_cases hw : i.child.writes = true
          · rw [if_pos hw] at h
            cases h
          · rw [if_neg hw] at h
            obtain rfl := Option.some.inj h
            exact .notStarted hp (by simpa using hb) (by simpa using hw)
    · cases h
  case h_5 =>
    cases hp : i.parent with
    | foreground | exited | killed =>
      rw [hp] at h
      cases h
    | piping | forking | closing | reading =>
      rw [hp] at h
      obtain rfl := Option.some.inj h
      exact .kill (by simp [hp])

theorem attempt_cases {e : Bool → ChildEvent} {ok : Bool} {c c' : Child}
    (hc : (s.invocations p).child = c) (hborn : c ≠ .unborn) (hgo : Goes c (e true) c')
    (hdie : (e false).call? = some .die) : ChildStep s p (e ok) (s.attempt p ok c') := by
  cases ok with
  | true => exact .go (hc ▸ hgo)
  | false => exact .exit (hc ▸ hborn) hdie

theorem childStep_cases {e : ChildEvent} (h : childStep s p e = some s') : ChildStep s p e s' := by
  unfold childStep at h
  split at h
  case h_1 ok =>
    split at h
    · next hc =>
      obtain rfl := Option.some.inj h
      exact attempt_cases hc (by decide) .detach rfl
    · cases h
  case h_2 ok =>
    split at h
    · next hc =>
      obtain rfl := Option.some.inj h
      exact attempt_cases hc (by decide) .start rfl
    · cases h
  case h_3 ok =>
    split at h
    · next hc =>
      obtain rfl := Option.some.inj h
      exact attempt_cases hc (by decide) .createDir rfl
    · cases h
  case h_4 call =>
    split at h
    · next hc =>
      by_cases hb : binds call = true
      · rw [if_pos hb] at h
        obtain ⟨socket, hs, rfl⟩ := Option.map_eq_some_iff.1 h
        exact .call hc hb hs
      · rw [if_neg hb] at h
        cases h
    · cases h
  case h_5 =>
    split at h
    · next hc =>
      obtain rfl := Option.some.inj h
      exact .announce hc
    · cases h
  case h_6 =>
    split at h
    · next hc =>
      obtain rfl := Option.some.inj h
      exact .go (hc ▸ .release)
    · cases h
  case h_7 ok =>
    split at h
    · next hc =>
      obtain rfl := Option.some.inj h
      cases ok with
      | true => exact .create hc
      | false => exact .exit (by simp [hc]) rfl
    · cases h
  case h_8 ok =>
    split at h
    · next hc =>
      obtain rfl := Option.some.inj h
      cases ok with
      | true => exact .write hc
      | false => exact .exit (by simp [hc]) rfl
    · cases h
  case h_9 ok =>
    split at h
    · next hc =>
      obtain rfl := Option.some.inj h
      exact attempt_cases hc (by decide) .handle rfl
    · cases h
  case h_10 =>
    split at h
    · next hc =>
      obtain ⟨socket, hs, rfl⟩ := Option.map_eq_some_iff.1 h
      exact .stop hc hs
    · cases h
  case h_11 ok =>
    split at h
    · next hc =>
      obtain rfl := Option.some.inj h
      exact .removePid hc
    · cases h
  case h_12 =>
    split at h
    · next hc =>
      obtain ⟨socket, hs, rfl⟩ := Option.map_eq_some_iff.1 h
      exact .finish hc hs
    · cases h
  case h_13 =>
    split at h
    · next hc =>
      obtain rfl := Option.some.inj h
      exact .exit (by simp [hc]) rfl
    · cases h
  case h_14 =>
    split at h
    · cases h
    · cases h
    · next hb _ =>
      obtain rfl := Option.some.inj h
      exact .exit hb rfl

/-- **Every step is one of the listed moves.** -/
theorem step_cases {e : Event} (h : lts.step s e s') : Step s e s' := by
  change step s e = some s' at h
  cases e with
  | parent p e =>
    obtain ⟨i, hi, rfl⟩ := Option.map_eq_some_iff.1 h
    exact .parent (parentStep_cases hi)
  | child p e => exact .child (childStep_cases h)

@[simp] theorem invocations_set_self : (s.set p i).invocations p = i := Function.update_self ..

@[simp] theorem invocations_enter_self {c : Child} :
    (s.enter p c).invocations p = { s.invocations p with child := c } := invocations_set_self

@[simp] theorem invocations_exit_self :
    (s.exit p).invocations p = { s.invocations p with child := .exited } := invocations_enter_self

theorem invocations_set_of_ne {q : Pid} (h : q ≠ p) :
    (s.set p i).invocations q = s.invocations q := Function.update_of_ne h ..

/-- A move of one process leaves the others where they are. -/
theorem invocations_of_ne {q : Pid} {e : ChildEvent} (h : ChildStep s p e s') (hq : q ≠ p) :
    s'.invocations q = s.invocations q := by
  cases h <;> exact invocations_set_of_ne hq

end Startup

end Gritty
