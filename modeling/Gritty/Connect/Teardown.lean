import Gritty.Connect.Window

/-!
# What is left of a tunnel

An `ssh` that still runs and was sent no signal is *held*: by the guard, until the guard is dropped
that far, or by the monitor (`Ownership`).  When `run` returns the guard is gone, so what it leaves
behind is what the monitor holds then.  The drop only cancels the token: nothing waits for the
monitor to act on it.

## Main definitions

* `State.unattended` : the monitor has a running child on its mind.
* `TornDown` : every `ssh` has exited or was signalled, and the local socket is gone.
* `orderly` : a move that `run` does not return by while a child is unattended, and that neither
  fails to remove the socket nor binds it once more behind the removal.

## Main results

* `of_reachable` : in every reachable state each running process without a signal is held.
* `socket_gone` : in an orderly run the socket is gone when the guard is.
* `torn_down` : an orderly run leaves nothing, and a run that leaves nothing returned with no child
  unattended.
-/

namespace Gritty

namespace Connect

/-- The child that the monitor is with, or has given up waiting for. -/
def Monitor.minds : Monitor → Option Pid
  | .select child | .ended (.waitFailed child) => some child
  | _ => none

/-- The guard has yet to signal its child. -/
def Phase.guards : Phase → Bool
  | .waitSocket _ | .cancelling | .killing => true
  | _ => false

/-- Who has to end a child that runs and was not signalled. -/
def State.Holds (s : State) (child : Pid) : Prop :=
  s.guard = some child ∧ s.run.guards ∨ s.monitor.minds = some child

/-- The monitor minds a child that runs. -/
def State.unattended (s : State) : Bool :=
  s.monitor.minds.any s.running

/-- Every `ssh` has exited or has been signalled, and the socket file is gone. -/
structure TornDown (s : State) : Prop where
  children : ∀ c ∈ s.children, c.exit ≠ none ∨ c.signalled = true
  socket : s.socket = false

/-- The moves that leave nothing: `run` does not return while the monitor minds a running child, the
removal removes the file if there is one, and no `ssh` binds it again before the return. -/
def orderly (m : Move State Event) : Bool :=
  match m.lbl with
  | .run .finish => !m.src.unattended
  | .run (.remove ok) => ok || !m.src.socket
  | .bind _ =>
    match m.src.run with
    | .removed => false
    | _ => true
  | _ => true

/-- Whose the running children are. -/
structure Ownership (s : State) : Prop where
  held : ∀ child c, s.children[child]? = some c → c.exit = none → c.signalled = false →
    s.Holds child
  /-- no signal is sent while `run` waits for the socket, -/
  fresh : ∀ deadline, s.run = .waitSocket deadline →
    s.monitor = .unborn ∧ ∀ c ∈ s.children, c.signalled = false
  /-- nor to a child that the monitor still minds -/
  unsignalled : ∀ child c, s.monitor.minds = some child →
    s.children[child]? = some c → c.signalled = false

variable {s s' : State}

theorem unattended_iff :
    s.unattended = true ↔ ∃ child c, s.monitor.minds = some child ∧
      s.children[child]? = some c ∧ c.exit = none := by
  simp only [State.unattended, Option.any_eq_true, State.running]
  constructor
  · rintro ⟨child, hm, hr⟩
    cases hc : s.children[child]? with
    | none => simp [hc] at hr
    | some c => exact ⟨child, c, hm, hc, by simpa [hc] using hr⟩
  · rintro ⟨child, c, hm, hc, he⟩
    exact ⟨child, hm, by simp [hc, he]⟩

theorem getElem?_modify_eq {children : List Ssh} {f : Ssh → Ssh} {child child' : Pid} {c : Ssh}
    (h : (children.modify child f)[child']? = some c) :
    ∃ c₀, children[child']? = some c₀ ∧ c = if child = child' then f c₀ else c₀ := by
  rw [List.getElem?_modify] at h
  obtain ⟨c₀, hc₀, rfl⟩ := Option.map_eq_some_iff.mp h
  exact ⟨c₀, hc₀, rfl⟩

namespace Ownership

theorem init (now : ℕ) (socket : Bool) : Ownership (.init now socket) where
  held child c hc _ _ := by
    have hlt := (List.getElem?_eq_some_iff.mp hc).1
    obtain rfl : child = 0 := by simpa [State.init] using hlt
    exact .inl ⟨rfl, rfl⟩
  fresh _ _ := ⟨rfl, by simp [State.init]⟩
  unsignalled _ _ := nofun

/-- The guard is on its way, or gone. -/
theorem phase (h : Ownership s) (hchildren : s'.children = s.children)
    (hguard : s'.guard = s.guard) (hmonitor : s'.monitor = s.monitor)
    (hphase : s.guard.isSome → s.run.guards → s'.run.guards)
    (hwait : ∀ deadline, s'.run ≠ .waitSocket deadline) : Ownership s' where
  held child c hc he hs := by
    rw [hchildren] at hc
    rw [State.Holds, hguard, hmonitor]
    exact (h.held child c hc he hs).imp_left fun ⟨hg, hr⟩ => ⟨hg, hphase (by simp [hg]) hr⟩
  fresh deadline hr := absurd hr (hwait deadline)
  unsignalled child c hm hc := by
    rw [hmonitor] at hm
    rw [hchildren] at hc
    exact h.unsignalled child c hm hc

theorem run {e : RunEvent} (h : Ownership s) (hborn : s.guard.isSome → s.monitor = .unborn)
    (hst : RunStep s e s') : Ownership s' := by
  cases hst with
  | ready hr hguard =>
    obtain ⟨hm, hfresh⟩ := h.fresh _ hr
    refine ⟨fun pid c hc he hs => ?_, nofun, fun pid c _ hc => hfresh c (List.mem_of_getElem? hc)⟩
    obtain ⟨hpid, -⟩ | hminds := h.held pid c hc he hs
    · exact .inr (hguard.symm.trans hpid)
    · simp [hm, Monitor.minds] at hminds
  | timeout => exact h.phase rfl rfl rfl (fun _ _ => rfl) nofun
  | @listen ok hr =>
    refine h.phase rfl rfl rfl (fun _ hg => ?_) (by cases ok <;> nofun)
    simp [hr, Phase.guards] at hg
  | signalled hr | lost hr | nothingToKill hr | remove hr | finish hr =>
    refine h.phase rfl rfl rfl (fun hsome hg => ?_) nofun
    simp_all [Phase.guards]
  | cancel => exact h.phase rfl rfl rfl (fun _ _ => rfl) nofun
  | kill hr hguard =>
    have hnone : s.monitor.minds = none := by
      rw [hborn (by simp [hguard])]
      rfl
    refine ⟨fun pid c hc he hs => ?_, nofun, fun pid _ hminds _ =>
      absurd (hnone.symm.trans hminds) nofun⟩
    obtain ⟨c₀, hc₀, rfl⟩ := getElem?_modify_eq hc
    split_ifs at he hs with hpid
    · cases hs
    · obtain ⟨hg, -⟩ | hminds := h.held pid c₀ hc₀ he hs
      · exact absurd (Option.some.inj (hguard.symm.trans hg)) hpid
      · exact .inr hminds

theorem moved (h : Ownership s) (hchildren : s'.children = s.children)
    (hguard : s'.guard = s.guard) (hrun : s'.run = s.run) (hborn : s.monitor ≠ .unborn)
    (hminds : ∀ child, s'.monitor.minds = some child → s.monitor.minds = some child)
    (hleft : ∀ child c, s.monitor.minds = some child → s.children[child]? = some c →
      c.exit = none → s'.monitor.minds = some child) : Ownership s' where
  held child c hc he hs := by
    rw [hchildren] at hc
    rw [State.Holds, hguard, hrun]
    exact (h.held child c hc he hs).imp_right fun hm => hleft child c hm hc he
  fresh deadline hr := absurd (h.fresh deadline (hrun ▸ hr)).1 hborn
  unsignalled child c hm hc := h.unsignalled child c (hminds child hm) (hchildren ▸ hc)

theorem monitor {e : MonitorEvent} (h : Ownership s) (hst : MonitorStep s e s') :
    Ownership s' := by
  cases hst with
  | @notice child hm =>
    refine ⟨fun pid c hc he hs => ?_, fun deadline hr => ?_, fun pid _ hminds _ => ?_⟩
    · obtain ⟨c₀, hc₀, rfl⟩ := getElem?_modify_eq hc
      split_ifs at he hs with hpid
      · cases hs
      · obtain hg | hminds := h.held pid c₀ hc₀ he hs
        · exact .inl hg
        · rw [hm] at hminds
          exact absurd (Option.some.inj hminds) hpid
    · exact nomatch hm.symm.trans (h.fresh deadline hr).1
    · simp [Monitor.minds] at hminds
  | killed hm | cancelled hm | wokeCancelled hm | wake hm | spawnFailed hm =>
    exact h.moved rfl rfl rfl (by simp [hm]) (by simp [Monitor.minds]) (by simp [hm, Monitor.minds])
  | @check status hm =>
    have hminds : (onExit s.exitTimes s.now status).2.minds = none := by
      cases hp : permanent status with
      | some c =>
        rw [onExit_of_permanent hp]
        rfl
      | none =>
        rw [onExit_of_transient hp]
        split_ifs <;> rfl
    exact h.moved rfl rfl rfl (by simp [hm]) (by simp [hminds])
      (by simp [hm, Monitor.minds])
  | reap hm hc hexit =>
    refine h.moved rfl rfl rfl (by simp [hm]) (by simp [Monitor.minds]) ?_
    intro pid c hminds hc' he
    rw [hm] at hminds
    obtain rfl := Option.some.inj hminds
    obtain rfl := Option.some.inj (hc.symm.trans hc')
    simp [hexit] at he
  | waitFailed hm =>
    exact h.moved rfl rfl rfl (by simp [hm]) (by simp [hm, Monitor.minds])
      (by simp +contextual [hm, Monitor.minds])
  | spawn hm =>
    have hnew : ∀ pid c, (s.children ++ [⟨none, false⟩])[pid]? = some c →
        s.children[pid]? = some c ∨ pid = s.children.length ∧ c = ⟨none, false⟩ := by
      intro pid c hc
      obtain hlt | heq | hgt := Nat.lt_trichotomy pid s.children.length
      · rw [List.getElem?_append_left hlt] at hc
        exact .inl hc
      · subst heq
        simp only [List.getElem?_concat_length, Option.some.injEq] at hc
        exact .inr ⟨rfl, hc.symm⟩
      · simp [List.getElem?_eq_none (l := s.children ++ [⟨none, false⟩])
          (by simpa using Nat.succ_le_of_lt hgt)] at hc
    refine ⟨fun pid c hc he hs => ?_, fun deadline hr => ?_, fun pid c hminds hc => ?_⟩
    · obtain hc | ⟨rfl, -⟩ := hnew pid c hc
      · obtain hg | hminds := h.held pid c hc he hs
        · exact .inl hg
        · simp [hm, Monitor.minds] at hminds
      · exact .inr rfl
    · exact nomatch hm.symm.trans (h.fresh deadline hr).1
    · obtain rfl := Option.some.inj hminds
      obtain hc | ⟨-, rfl⟩ := hnew _ c hc
      · simp at hc
      · rfl

theorem step {e : Event} (h : Ownership s) (hborn : s.guard.isSome → s.monitor = .unborn)
    (hst : Step s e s') : Ownership s' := by
  cases hst with
  | elapse | bind => exact ⟨h.held, h.fresh, h.unsignalled⟩
  | exit =>
    refine ⟨fun pid c hc he hs => ?_, fun deadline hr => ⟨(h.fresh deadline hr).1, fun c hc => ?_⟩,
      fun pid c hminds hc => ?_⟩
    · obtain ⟨c₀, hc₀, rfl⟩ := getElem?_modify_eq hc
      split_ifs at he hs
      exact h.held pid c₀ hc₀ he hs
    · obtain ⟨pid, hpid⟩ := List.mem_iff_getElem?.mp hc
      obtain ⟨c₀, hc₀, rfl⟩ := getElem?_modify_eq hpid
      have hfresh := (h.fresh deadline hr).2 c₀ (List.mem_of_getElem? hc₀)
      split_ifs <;> exact hfresh
    · obtain ⟨c₀, hc₀, rfl⟩ := getElem?_modify_eq hc
      have hun := h.unsignalled pid c₀ hminds hc₀
      split_ifs <;> exact hun
  | run hst => exact h.run hborn hst
  | monitor hst => exact h.monitor hst

theorem of_reachable {now : ℕ} {socket : Bool} (h : lts.Reachable (.init now socket) s) :
    Ownership s := by
  obtain ⟨tr, h⟩ := h
  induction h with
  | refl => exact init now socket
  | tail hr hst ih => exact ih.step (unborn_of_guard hr.reachable) (step_cases hst)

end Ownership

theorem children_iff (h : Ownership s) (hr : s.run = .removed) :
    (∀ c ∈ s.children, c.exit ≠ none ∨ c.signalled = true) ↔ s.unattended = false := by
  rw [← Bool.not_eq_true, unattended_iff]
  constructor
  · rintro hall ⟨pid, c, hminds, hc, he⟩
    obtain hne | hs := hall c (List.mem_of_getElem? hc)
    · exact hne he
    · simp [h.unsignalled pid c hminds hc] at hs
  · intro hun c hc
    obtain ⟨pid, hpid⟩ := List.mem_iff_getElem?.mp hc
    by_contra hnot
    obtain ⟨he, hs⟩ : c.exit = none ∧ c.signalled = false := by simpa using hnot
    obtain ⟨-, hg⟩ | hminds := h.held pid c hpid he hs
    · simp [hr, Phase.guards] at hg
    · exact hun ⟨pid, c, hminds, hpid, he⟩

theorem socket_gone {now : ℕ} {socket : Bool} {tr : List (Move State Event)}
    (h : lts.Run (.init now socket) tr s) (horderly : ∀ m ∈ tr, orderly m)
    (hr : s.run = .removed) : s.socket = false := by
  refine h.invariant (I := fun _ s => s.run = .removed → s.socket = false) horderly nofun ?_ hr
  intro _ s e s' hi ho hst hr
  cases step_cases hst with
  | elapse => exact hi hr
  | exit => simp [hi hr]
  | bind => simp [orderly, show s.run = .removed from hr] at ho
  | run hrun =>
    cases hrun with
    | @remove ok =>
      obtain hok | hs : ok = true ∨ s.socket = false := by simpa [orderly] using ho
      · simp [hok]
      · simp [hs]
    | listen => split_ifs at hr
    | _ => cases hr
  | monitor hm => cases hm <;> exact hi hr

/-- **What `gritty connect` leaves behind.**  An orderly run leaves nothing, and a run that leaves
nothing did not return while the monitor minded a running child. -/
theorem torn_down {now : ℕ} {socket : Bool} {tr : List (Move State Event)}
    (h : lts.Run (.init now socket) tr s) :
    ((∀ m ∈ tr, orderly m) → ∀ m ∈ tr, m.lbl = .run .finish → TornDown m.dst) ∧
      ∀ m ∈ tr, m.lbl = .run .finish → TornDown m.dst → m.src.unattended = false := by
  have hreturn : ∀ m ∈ tr, m.lbl = .run .finish → m.src.run = .removed ∧
      m.dst.children = m.src.children ∧ m.dst.socket = m.src.socket ∧
      ((∀ c ∈ m.src.children, c.exit ≠ none ∨ c.signalled = true) ↔ m.src.unattended = false) := by
    rintro ⟨s₁, e, s₂⟩ hm rfl
    obtain ⟨hst, tr₁, tr₂, -, hr⟩ := h.move hm
    simp only at hst hr ⊢
    cases step_cases hst with
    | run hrun =>
      cases hrun with
      | signalled _ he => simp at he
      | finish hphase =>
        exact ⟨hphase, rfl, rfl, children_iff (.of_reachable hr.reachable) hphase⟩
  constructor
  · intro horderly m hm hlbl
    obtain ⟨hphase, hchildren, hsocket, hiff⟩ := hreturn m hm hlbl
    obtain ⟨-, tr₁, tr₂, rfl, hr⟩ := h.move hm
    have hgone := socket_gone hr (fun m' hm' => horderly m' (List.mem_append_left _ hm')) hphase
    refine ⟨?_, hsocket.trans hgone⟩
    rw [hchildren]
    exact hiff.mpr (by simpa [orderly, hlbl] using horderly m hm)
  · intro m hm hlbl htorn
    obtain ⟨-, hchildren, -, hiff⟩ := hreturn m hm hlbl
    exact hiff.mp (hchildren ▸ htorn.children)

/-- SIGTERM while the tunnel is up, and the monitor gets no turn any more. -/
def abandoned : List Event :=
  [.bind 0, .run .ready, .run (.listen true), .run .terminate, .run .cancel, .run .kill,
    .run (.remove true), .run .finish]

/-- The same, and the monitor gets its turn before `run` returns. -/
def stopped : List Event :=
  [.bind 0, .run .ready, .run (.listen true), .run .terminate, .run .cancel, .monitor .notice,
    .run .kill, .run (.remove true), .run .finish]

/-- The `ssh` of the tunnel outlives `run`. -/
theorem not_torn_down_abandoned :
    ∃ tr s, lts.Run (.init 0 false) tr s ∧ ∃ m ∈ tr, m.lbl = .run .finish ∧ ¬TornDown m.dst := by
  have hrun : ∃ s, LTS.exec step (.init 0 false) abandoned = some s := ⟨_, rfl⟩
  obtain ⟨s, hs⟩ := hrun
  refine ⟨_, s, LTS.run_of_exec hs, (LTS.trace step (.init 0 false) abandoned)[7], ?_, rfl, ?_⟩
  · exact List.getElem_mem _
  · intro htorn
    obtain h | h := htorn.children ⟨none, false⟩ (List.mem_singleton.mpr rfl)
    · exact h rfl
    · cases h

/-- Nothing is left when the monitor has acted on the token. -/
theorem torn_down_stopped :
    ∃ tr s, lts.Run (.init 0 false) tr s ∧ (∀ m ∈ tr, orderly m) ∧
      ∀ m ∈ tr, m.lbl = .run .finish → TornDown m.dst := by
  have hrun : ∃ s, LTS.exec step (.init 0 false) stopped = some s := ⟨_, rfl⟩
  obtain ⟨s, hs⟩ := hrun
  have horderly : ∀ m ∈ LTS.trace step (.init 0 false) stopped, orderly m := by decide +kernel
  exact ⟨_, s, LTS.run_of_exec hs, horderly, (torn_down (LTS.run_of_exec hs)).1 horderly⟩

end Connect

end Gritty
