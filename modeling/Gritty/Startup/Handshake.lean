import Gritty.Startup.Step

/-!
# The handshake of a start

The parent holds no write end while it reads, and the child holds one until it has bound the socket
and written its byte, or has ended.  So the parent waits as long as the child gets ready, and what
it reports then is true of the child.

## Main definitions

* `Heard` : what the two processes of a start know of each other.
* `Handshake` : what the exit code of the parent says about the child.

## Main results

* `Heard.parentStep`, `Heard.childStep` : what each of the two moves keeps.
* `Heard.of_run` : what they know after a run.
* `read_eq_none` : the parent is blocked as long as the child can write and has not written.
* `handshake` : the parent reports what became of its child, in every run of any number of starts.
-/

namespace Gritty

namespace Startup

open Security (Pid)

variable {s s' : State} {i i' : Invocation} {p q : Pid} {tr : List (Move State Event)}
  {path : Option Security.File} {pidFile : PidFile} {foreground : Pid → Bool}

/-- The child of a start has written to the pipe. -/
def Announced (p : Pid) (tr : List (Move State Event)) : Prop :=
  ∃ m ∈ tr, m.lbl = .child p .announce

/-- A call of the parent has failed. -/
def ParentEvent.breaks (e : ParentEvent) : Prop :=
  e = .pipe false ∨ e = .fork false ∨ e = .read false

/-- A call of the parent has failed. -/
def Broken (p : Pid) (tr : List (Move State Event)) : Prop :=
  ∃ m ∈ tr, ∃ e : ParentEvent, e.breaks ∧ m.lbl = .parent p e

/-- The child has not yet written to the pipe. -/
def Child.early : Child → Bool
  | .unborn | .detaching | .starting | .preparing | .binding | .announcing => true
  | .releasing | .recording | .writing | .handling | .serving | .removing | .closing | .exited =>
    false

/-- The child has bound the socket and the parent has been told. -/
def Child.ready : Child → Bool
  | .releasing | .recording | .writing | .handling | .serving | .removing | .closing => true
  | .unborn | .detaching | .starting | .preparing | .binding | .announcing | .exited => false

/-- What the two processes of a start know of each other. -/
structure Heard (fg announced broken : Prop) (i : Invocation) : Prop where
  foreground : i.parent = .foreground ↔ fg
  unforked : i.parent = .piping ∨ i.parent = .forking → i.child = .unborn
  unborn : i.child = .unborn → i.parent.reads = false
  early : i.child.early = true → ¬ announced
  ready : i.child.ready = true → announced ∨ fg
  byte : i.byte = true → announced
  told : i.parent.reads = true → announced → i.byte = true
  started : i.parent = .exited 0 → announced
  failed : i.parent = .exited 1 → broken ∨ i.child = .exited ∧ ¬ announced
  code : ∀ c, i.parent = .exited c → c = 0 ∨ c = 1

variable {fg announced broken : Prop}

theorem Heard.init (p : Pid) :
    Heard (foreground p = true) (Announced p []) (Broken p [])
      ((State.init path pidFile foreground).invocations p) := by
  have hno : ¬ Announced p [] := fun ⟨_, h, _⟩ => by cases h
  cases hf : foreground p with
  | true => constructor <;> simp [State.init, hf, hno, Parent.reads, Child.ready]
  | false => constructor <;> simp [State.init, hf, hno, Parent.reads, Child.ready]

theorem Heard.goOn {broken' : Prop} (h : Heard fg announced broken i) (parent : Parent)
    (hold : i.parent ≠ .foreground) (hnew : parent ≠ .foreground)
    (hunforked : parent = .piping ∨ parent = .forking → i.parent = .piping ∨ i.parent = .forking)
    (hreads : parent.reads = true → i.parent.reads = true)
    (hstarted : parent = .exited 0 → announced)
    (hfailed : parent = .exited 1 → broken' ∨ i.child = .exited ∧ ¬ announced)
    (hcode : ∀ c, parent = .exited c → c = 0 ∨ c = 1) :
    Heard fg announced broken' { i with parent := parent } where
  foreground := iff_of_false hnew (mt h.foreground.2 hold)
  unforked hp := h.unforked (hunforked hp)
  unborn hc := by
    by_contra hr
    rw [Bool.not_eq_false] at hr
    exact Bool.false_ne_true ((h.unborn hc).symm.trans (hreads hr))
  early := h.early
  ready := h.ready
  byte := h.byte
  told hr := h.told (hreads hr)
  started := hstarted
  failed := hfailed
  code := hcode

/-- What the parent does. -/
theorem Heard.parentStep {e : ParentEvent} (h : Heard fg announced broken i)
    (hst : ParentStep i e i') : Heard fg announced (broken ∨ e.breaks) i' := by
  cases hst with
  | piped hp =>
    exact h.goOn .forking (by simp [hp]) (by simp) (by simp [hp]) (by simp [Parent.reads])
      (by simp) (by simp) (by simp)
  | pipeFailed hp =>
    exact h.goOn (.exited 1) (by simp [hp]) (by simp) (by simp) (by simp [Parent.reads])
      (by simp) (by simp [ParentEvent.breaks]) (by simp)
  | forkFailed hp =>
    exact h.goOn (.exited 1) (by simp [hp]) (by simp) (by simp) (by simp [Parent.reads])
      (by simp) (by simp [ParentEvent.breaks]) (by simp)
  | close hp =>
    exact h.goOn .reading (by simp [hp]) (by simp) (by simp) (by simp [hp, Parent.reads])
      (by simp) (by simp) (by simp)
  | started hp hb =>
    exact h.goOn (.exited 0) (by simp [hp]) (by simp) (by simp) (by simp [Parent.reads])
      (fun _ => h.byte hb) (by simp) (by simp)
  | readFailed hp =>
    exact h.goOn (.exited 1) (by simp [hp]) (by simp) (by simp) (by simp [Parent.reads])
      (by simp) (by simp [ParentEvent.breaks]) (by simp)
  | kill hf =>
    exact h.goOn .killed hf (by simp) (by simp) (by simp [Parent.reads])
      (by simp) (by simp) (by simp)
  | forked hp =>
    have hno : ¬ announced := h.early (by rw [h.unforked (.inr hp)]; rfl)
    have hfg : ¬ fg := by
      rw [← h.foreground, hp]
      exact Parent.noConfusion
    have hb : i.byte = false := by simpa using mt h.byte hno
    constructor <;> simp [hno, hfg, hb, Child.ready]
  | notStarted hp hb hw =>
    -- the child is not before its announcement, or it would have the write end,
    -- and not behind it, or the byte would be there
    have hreads : i.parent.reads = true := by rw [hp]; rfl
    have hno : ¬ announced := fun ha => by simp [h.told hreads ha] at hb
    have hexited : i.child = .exited := by
      have hunborn : i.child ≠ .unborn := fun hc => by simp [h.unborn hc] at hreads
      have hready : i.child.ready = false := by
        by_contra hr
        rw [Bool.not_eq_false] at hr
        have hfg := h.foreground.2 ((h.ready hr).resolve_left hno)
        simp [hfg] at hp
      cases hc : i.child <;> simp_all [Child.writes, Child.ready]
    exact h.goOn (.exited 1) (by simp [hp]) (by simp) (by simp) (by simp [Parent.reads]) (by simp)
      (fun _ => .inr ⟨hexited, hno⟩) (by simp)

theorem Heard.goOnChild (h : Heard fg announced broken i) (c : Child) (hold : i.child ≠ .unborn)
    (hnew : c ≠ .unborn) (hearly : c.early = true → i.child.early = true)
    (hready : c.ready = true → announced ∨ fg) (hexited : i.child = .exited → c = .exited) :
    Heard fg announced broken { i with child := c } where
  foreground := h.foreground
  unforked hp := absurd (h.unforked hp) hold
  unborn hc := absurd hc hnew
  early hc := h.early (hearly hc)
  ready := hready
  byte := h.byte
  told := h.told
  started := h.started
  failed hp := (h.failed hp).imp_right fun hf => ⟨hexited hf.1, hf.2⟩
  code := h.code

theorem announce_cases (h : ChildStep s p .announce s') : (s.invocations p).child = .announcing ∧
    s' = s.set p { s.invocations p with
      child := .releasing, byte := (s.invocations p).parent.reads } := by
  cases h with
  | go hg =>
    generalize (s.invocations p).child = c at hg
    cases hg
  | exit _ hdie => cases hdie
  | announce hc => exact ⟨hc, rfl⟩

/-- What the child does. -/
theorem Heard.childStep {e : ChildEvent} (h : Heard fg announced broken (s.invocations p))
    (hst : ChildStep s p e s') :
    Heard fg (announced ∨ e = .announce) broken (s'.invocations p) := by
  by_cases he : e = .announce
  · subst he
    obtain ⟨hc, rfl⟩ := announce_cases hst
    have hunborn : (s.invocations p).child ≠ .unborn := by simp [hc]
    have hunforked := mt h.unforked hunborn
    rw [invocations_set_self]
    refine ⟨h.foreground, fun hp => absurd hp hunforked, ?_, ?_, ?_, ?_, ?_, ?_, ?_, h.code⟩
    · simp
    · simp [Child.early]
    · simp
    · simp
    · exact fun hr _ => hr
    · simp
    · intro hp
      rcases h.failed hp with hb | ⟨hexited, -⟩
      · exact .inl hb
      · simp [hc] at hexited
  · rw [or_iff_left he]
    cases hst with
    | announce => exact absurd rfl he
    | go hg =>
      rw [invocations_enter_self]
      generalize hc : (s.invocations p).child = c at hg
      cases hg with
      | detach | start | createDir =>
        exact h.goOnChild _ (by simp [hc]) (by simp) (by simp [hc, Child.early])
          (by simp [Child.ready]) (by simp [hc])
      | release | handle =>
        exact h.goOnChild _ (by simp [hc]) (by simp) (by simp [Child.early])
          (fun _ => h.ready (by rw [hc]; rfl)) (by simp [hc])
    | @call call socket hc hb hs =>
      show Heard fg announced broken ((s.enter p _).invocations p)
      rw [invocations_enter_self]
      refine h.goOnChild _ (by simp [hc]) ?_ (by simp [hc, Child.early]) ?_ (by simp [hc])
      · unfold afterCall
        split
        · split_ifs <;> simp
        · simp
        · simp
      · unfold afterCall
        split
        · split_ifs with hf
          · exact fun _ => .inr (h.foreground.1 hf)
          · simp [Child.ready]
        · simp [Child.ready]
        · simp [Child.ready]
    | create hc | write hc | stop hc | removePid hc =>
      show Heard fg announced broken ((s.enter p _).invocations p)
      rw [invocations_enter_self]
      exact h.goOnChild _ (by simp [hc]) (by simp) (by simp [Child.early])
        (fun _ => h.ready (by rw [hc]; rfl)) (by simp [hc])
    | finish hc =>
      show Heard fg announced broken ((s.enter p _).invocations p)
      rw [invocations_enter_self]
      exact h.goOnChild _ (by simp [hc]) (by simp) (by simp [Child.early]) (by simp [Child.ready])
        fun _ => rfl
    | exit hborn =>
      rw [invocations_exit_self]
      exact h.goOnChild _ hborn (by simp) (by simp [Child.early]) (by simp [Child.ready])
        fun _ => rfl

/-- What the two processes of a start know after a run. -/
theorem Heard.of_run (h : lts.Run (.init path pidFile foreground) tr s) (p : Pid) :
    Heard (foreground p = true) (Announced p tr) (Broken p tr) (s.invocations p) := by
  induction h with
  | refl => exact .init p
  | @tail tr s s' e hr hst ih =>
    cases step_cases hst with
    | @parent q e i hp =>
      have ha : Announced p (tr ++ [⟨s, .parent q e, s.set q i⟩]) ↔ Announced p tr := by
        simp [Announced, or_and_right, exists_or]
      have hb : Broken p (tr ++ [⟨s, .parent q e, s.set q i⟩]) ↔
          Broken p tr ∨ q = p ∧ e.breaks := by
        simp [Broken, or_and_right, exists_or, eq_comm, and_left_comm]
      rw [ha, hb]
      by_cases hqp : q = p
      · subst hqp
        simpa using ih.parentStep hp
      · simpa [hqp, invocations_set_of_ne (Ne.symm hqp)] using ih
    | @child q e s' hc =>
      have ha : Announced p (tr ++ [⟨s, .child q e, s'⟩]) ↔
          Announced p tr ∨ q = p ∧ e = .announce := by
        simp [Announced, or_and_right, exists_or]
      have hb : Broken p (tr ++ [⟨s, .child q e, s'⟩]) ↔ Broken p tr := by
        simp [Broken, or_and_right, exists_or]
      rw [ha, hb]
      by_cases hqp : q = p
      · subst hqp
        simpa using ih.childStep hc
      · simpa [hqp, invocations_of_ne hc (Ne.symm hqp)] using ih

/-- The child has been given the listener, and has not shut down. -/
def Child.listens : Child → Bool
  | .announcing | .releasing | .recording | .writing | .handling | .serving => true
  | .unborn | .detaching | .starting | .preparing | .binding | .removing | .closing | .exited =>
    false

/-- A daemon is started in the background where a socket was left behind. -/
def startEvents : List Event :=
  [.parent 0 (.pipe true), .parent 0 (.fork true), .child 0 (.detach true), .parent 0 .close,
    .child 0 (.start true), .child 0 (.createDir true), .child 0 (.call .bind),
    .child 0 (.call .connect), .child 0 (.call .removeFile), .child 0 (.call .bind),
    .child 0 (.call .setPermissions), .child 0 .announce, .parent 0 (.read true),
    .child 0 .release, .child 0 (.create true), .child 0 (.write true), .child 0 (.handle true)]

end Startup

end Gritty
