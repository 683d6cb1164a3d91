import Gritty.Connect.Window

/-!
# How many tunnels are spawned

There is one tunnel `ssh` at a time: the monitor spawns the next one when it has reaped the one
before.  And they do not come too fast: each is spawned a second after the exit of the one before,
and of five exits in a row that the monitor goes on after, the last is ten seconds after the first,
so that among six spawns in a row eleven seconds pass.

Counted are the processes of `spawn_tunnel` and `tunnel_monitor`, from the first tunnel on.  The
`ssh` that asked the remote host for its socket before is none of them.

## Main definitions

* `spawns` : the instants of the spawns of a run, read off its moves.
* `Single`, `Paced` : the two invariants, of the processes and of the instants.

## Main results

* `Single.of_reachable` : at most one of the processes runs.
* `five_apart` : what a short last window says about five exits in a row.
* `Paced.of_run` : the spawns of a run are paced.
* `restrained` : one tunnel at a time, and eleven seconds for six in a row.
-/

namespace Gritty

namespace Connect

/-- The instant at which a child is spawned. -/
def spawned (m : Move State Event) : List ℕ :=
  match m.lbl with
  | .monitor (.spawn true) => [m.src.now]
  | _ => []

/-- The instants of all spawns; the first child is there from the start. -/
def spawns (now : ℕ) (tr : List (Move State Event)) : List ℕ := now :: tr.flatMap spawned

/-- The monitor has reaped its child and goes on. -/
def Monitor.between : Monitor → Bool
  | .exited _ | .sleeping _ | .spawning => true
  | .unborn | .select _ | .killing _ | .ended _ => false

/-- The child that the guard has, or that the monitor waits for. -/
def State.Tends (s : State) (child : Pid) : Prop := s.guard = some child ∨ s.monitor = .select child

/-- Nothing runs but the last child. -/
structure Single (s : State) : Prop where
  last : ∀ child, s.running child = true → child + 1 = s.children.length
  tended : ∀ child, s.Tends child → child + 1 = s.children.length
  between : s.monitor.between = true → ∀ child, s.running child = false

variable {s s' : State} {child child' : Pid} {now : ℕ} {socket : Bool}
  {tr : List (Move State Event)}

theorem running_iff :
    s.running child = true ↔ ∃ c, s.children[child]? = some c ∧ c.exit = none := by
  unfold State.running
  cases hc : s.children[child]? with
  | none => simp
  | some c => simp

theorem running_modify {f : Ssh → Ssh} {p : Pid} (hf : ∀ c, (f c).exit = none → c.exit = none)
    (hs : s'.children = s.children.modify p f) (h : s'.running child = true) :
    s.running child = true := by
  obtain ⟨c, hc, he⟩ := running_iff.1 h
  rw [hs, List.getElem?_modify] at hc
  obtain ⟨c₀, hc₀, rfl⟩ := Option.map_eq_some_iff.1 hc
  refine running_iff.2 ⟨c₀, hc₀, ?_⟩
  split_ifs at he
  · exact hf c₀ he
  · exact he

/-- No child is spawned and none starts to be tended. -/
theorem Single.keep (h : Single s) (hlen : s'.children.length = s.children.length)
    (hrun : ∀ child, s'.running child = true → s.running child = true)
    (htends : ∀ child, s'.Tends child → s.Tends child)
    (hbetween : s'.monitor.between = true → s.monitor.between = true) : Single s' where
  last child hr := hlen ▸ h.last child (hrun child hr)
  tended child ht := hlen ▸ h.tended child (htends child ht)
  between hb child := by
    by_contra hr
    rw [Bool.not_eq_false] at hr
    exact Bool.false_ne_true ((h.between (hbetween hb) child).symm.trans (hrun child hr))

theorem Single.init (now : ℕ) (socket : Bool) : Single (.init now socket) := by
  refine ⟨fun child h => ?_, fun child h => ?_, nofun⟩
  · obtain ⟨c, hc, -⟩ := running_iff.1 h
    obtain rfl : child = 0 := Nat.lt_one_iff.1 (List.getElem?_eq_some_iff.1 hc).1
    rfl
  · rcases h with h | h
    · cases h
      rfl
    · cases h

theorem Single.run {e : RunEvent} (h : Single s) (hst : RunStep s e s') : Single s' := by
  cases hst with
  | ready _ hg =>
    refine ⟨h.last, fun child ht => ?_, nofun⟩
    rcases ht with ht | ht
    · cases ht
    · obtain rfl := Monitor.select.inj ht
      exact h.tended _ (.inl hg)
  | kill =>
    exact h.keep (by simp [State.signal])
      (fun _ => running_modify (f := Ssh.signal) (fun _ => id) rfl) (fun _ => id) id
  | _ => exact h.keep rfl (fun _ => id) (fun _ => id) id

/-- Without a child to tend the monitor goes on only from where it was between two children. -/
theorem Single.rest (h : Single s) (hs : s'.children = s.children) (hg : s'.guard = s.guard)
    (hno : ∀ child, s'.monitor ≠ .select child)
    (hbetween : s'.monitor.between = true → s.monitor.between = true) : Single s' := by
  have hrunning : ∀ child, s'.running child = s.running child := by
    intro child
    rw [State.running, hs]
    rfl
  refine h.keep (congrArg _ hs) (fun child hr => hrunning child ▸ hr) (fun child ht => ?_) hbetween
  exact .inl (hg ▸ ht.resolve_right (hno child))

theorem onExit_ne_select (times : List ℕ) (now : ℕ) (status : Option Int32) (child : Pid) :
    (onExit times now status).2 ≠ .select child := by
  cases hp : permanent status with
  | some c => simp [onExit_of_permanent hp]
  | none =>
    rw [onExit_of_transient hp]
    split_ifs <;> simp

theorem Single.monitor {e : MonitorEvent} (h : Single s)
    (hborn : s.guard.isSome → s.monitor = .unborn) (hst : MonitorStep s e s') : Single s' := by
  cases hst with
  | @notice child hm =>
    refine h.keep (by simp [State.signal])
      (fun _ => running_modify (f := Ssh.signal) (fun _ => id) rfl) (fun child ht => ?_)
      fun h => by cases h
    rcases ht with ht | ht
    · exact .inl ht
    · cases ht
  | killed | waitFailed | cancelled | wokeCancelled | spawnFailed =>
    exact h.rest rfl rfl (fun _ h => by cases h) fun h => by cases h
  | @reap child c status hm hc he =>
    -- the child that was tended has exited, and it was the last one
    have htended := h.tended child (.inr hm)
    refine ⟨h.last, fun child ht => ?_, fun _ p => ?_⟩
    · rcases ht with ht | ht
      · exact h.tended child (.inl ht)
      · cases ht
    · by_contra hr
      rw [Bool.not_eq_false] at hr
      have hp : p + 1 = s.children.length := h.last p hr
      obtain rfl : p = child := Nat.succ.inj (hp.trans htended.symm)
      obtain ⟨c', hc', he'⟩ := running_iff.1 hr
      obtain rfl := Option.some.inj (hc.symm.trans hc')
      simp [he] at he'
  | check hm => exact h.rest rfl rfl (onExit_ne_select _ _ _) fun _ => by rw [hm]; rfl
  | wake hm => exact h.rest rfl rfl (fun _ h => by cases h) fun _ => by rw [hm]; rfl
  | spawn hm =>
    have hnone := h.between (by rw [hm]; rfl)
    refine ⟨fun child hr => ?_, fun child ht => ?_, fun h => by cases h⟩
    · obtain ⟨c, hc, he⟩ := running_iff.1 hr
      rcases Nat.lt_or_ge child s.children.length with hlt | hge
      · rw [List.getElem?_append_left hlt] at hc
        have hno := hnone child
        rw [running_iff.2 ⟨c, hc, he⟩] at hno
        cases hno
      · have hlt := (List.getElem?_eq_some_iff.1 hc).1
        rw [List.length_append, List.length_singleton] at hlt
        obtain rfl : child = s.children.length := Nat.le_antisymm (Nat.lt_succ_iff.1 hlt) hge
        simp
    · rcases ht with ht | ht
      · have hg := hborn (Option.isSome_iff_exists.2 ⟨child, ht⟩)
        rw [hm] at hg
        cases hg
      · obtain rfl := Monitor.select.inj ht
        simp

theorem Single.of_reachable (h : lts.Reachable (.init now socket) s) : Single s := by
  obtain ⟨tr, hr⟩ := h
  induction hr with
  | refl => exact .init now socket
  | @tail tr s s' e hr hst ih =>
    cases step_cases hst with
    | elapse | bind => exact ih.keep rfl (fun _ => id) (fun _ => id) id
    | exit =>
      exact ih.keep (by simp) (fun _ => running_modify
        (f := fun c => { c with exit := some _ }) (fun _ h => by cases h) rfl) (fun _ => id) id
    | run hrun => exact ih.run hrun
    | monitor hm => exact ih.monitor (unborn_of_guard hr.reachable) hm

/-- When the last window is short, five exits in a row take ten seconds. -/
theorem five_apart {hist : List ℕ} {k v u : ℕ} (hs : hist.Pairwise (· ≤ ·))
    (hv : hist[k]? = some v) (hu : hist[k + 4]? = some u)
    (hn : (lastWindow (hist.take (k + 5))).length < 5) : v + 10000 ≤ u := by
  by_contra hlt
  obtain ⟨hk, rfl⟩ := List.getElem?_eq_some_iff.1 hv
  obtain ⟨hk4, rfl⟩ := List.getElem?_eq_some_iff.1 hu
  have hlen : (hist.take (k + 5)).length = k + 5 := by
    rw [List.length_take]
    omega
  have hlast : (hist.take (k + 5)).getLast?.getD 0 = hist[k + 4] := by
    rw [List.getLast?_eq_getElem?, hlen, List.getElem?_take_of_lt (by omega),
      show k + 5 - 1 = k + 4 from rfl, hu, Option.getD_some]
  -- the five are all in the window
  have hfive : recent hist[k + 4] ((hist.take (k + 5)).drop k) = (hist.take (k + 5)).drop k := by
    refine List.filter_eq_self.2 fun t ht => ?_
    obtain ⟨i, hi, rfl⟩ := List.mem_iff_getElem.1 ht
    rw [List.length_drop, hlen] at hi
    have hle : hist[k] ≤ hist[k + i] := by
      rcases Nat.eq_zero_or_pos i with rfl | hpos
      · exact Nat.le_refl _
      · exact List.pairwise_iff_getElem.1 hs k (k + i) hk (by omega) (by omega)
    simp only [List.getElem_drop, List.getElem_take, decide_eq_true_eq]
    omega
  have hsub := ((List.drop_sublist k (hist.take (k + 5))).filter
    fun t => decide (hist[k + 4] - t < 10000)).length_le
  change (recent hist[k + 4] ((hist.take (k + 5)).drop k)).length
    ≤ (recent hist[k + 4] (hist.take (k + 5))).length at hsub
  rw [lastWindow, hlast] at hn
  rw [hfive, List.length_drop, hlen] at hsub
  omega

/-- What the monitor has spawned, beside the exits that it has counted. -/
structure Paced (sp hist : List ℕ) (s : State) : Prop where
  count : s.children.length = sp.length
  le : sp.length ≤ hist.length + 1
  past : ∀ t ∈ sp, t ≤ s.now
  /-- each child exits after it was spawned -/
  before : ∀ k t u : ℕ, sp[k]? = some t → hist[k]? = some u → t ≤ u
  /-- and the next one comes a second later -/
  later : ∀ k t u : ℕ, hist[k]? = some u → sp[k + 1]? = some t → u + 1000 ≤ t
  due : ∀ deadline, s.monitor = .sleeping deadline → ∀ u ∈ hist, u + 1000 ≤ deadline
  ready : s.monitor = .spawning → ∀ u ∈ hist, u + 1000 ≤ s.now
  calm : hist.length < sp.length → (lastWindow hist).length < 5

variable {sp hist : List ℕ}

/-- Nothing is spawned and nothing counted. -/
theorem Paced.keep (h : Paced sp hist s) (hnow : s.now ≤ s'.now)
    (hchildren : s'.children.length = s.children.length)
    (hsleeping : ∀ deadline, s'.monitor = .sleeping deadline → s.monitor = .sleeping deadline)
    (hspawning : s'.monitor = .spawning → s.monitor = .spawning) : Paced sp hist s' where
  count := hchildren.trans h.count
  le := h.le
  past t ht := Nat.le_trans (h.past t ht) hnow
  before := h.before
  later := h.later
  due deadline hm := h.due deadline (hsleeping deadline hm)
  ready hm u hu := Nat.le_trans (h.ready (hspawning hm) u hu) hnow
  calm := h.calm

/-- The monitor goes off to nothing that spawns. -/
theorem Paced.off (h : Paced sp hist s) (hnow : s'.now = s.now)
    (hchildren : s'.children.length = s.children.length)
    (hno : s'.monitor.respawns = false) : Paced sp hist s' := by
  refine h.keep (Nat.le_of_eq hnow.symm) hchildren (fun deadline hm => ?_) fun hm => ?_
  · rw [hm] at hno
    cases hno
  · rw [hm] at hno
    cases hno

/-- An exit is counted. -/
theorem Paced.exited {status : Option Int32} (h : Paced sp hist s) (hw : Window hist s)
    (hm : s.monitor = .exited status) (hp : permanent status = none) :
    Paced sp (hist ++ [s.now])
      { s with exitTimes := (onExit s.exitTimes s.now status).1,
               monitor := (onExit s.exitTimes s.now status).2 } := by
  have hlen : sp.length = hist.length + 1 := h.count.symm.trans (hw.attends (by rw [hm]; rfl))
  refine ⟨h.count, ?_, h.past, fun k t u hk hu => ?_, fun k t u hu hk => ?_,
    fun deadline hd u hu => ?_, fun hd => ?_, fun hlt => ?_⟩
  · rw [List.length_append]
    omega
  · rcases List.mem_append.1 (List.mem_of_getElem? hu) with - | hlast
    · rcases Nat.lt_or_ge k hist.length with hlt | hge
      · rw [List.getElem?_append_left hlt] at hu
        exact h.before k t u hk hu
      · rw [List.getElem?_append_right hge] at hu
        obtain rfl := List.mem_singleton.1 (List.mem_of_getElem? hu)
        exact h.past t (List.mem_of_getElem? hk)
    · obtain rfl := List.mem_singleton.1 hlast
      exact h.past t (List.mem_of_getElem? hk)
  · have hlt := (List.getElem?_eq_some_iff.1 hk).1
    rw [List.getElem?_append_left (by omega)] at hu
    exact h.later k t u hu hk
  · rw [onExit_of_transient hp] at hd
    dsimp only at hd
    split_ifs at hd
    obtain rfl := Monitor.sleeping.inj hd
    rcases List.mem_append.1 hu with hu | hu
    · exact Nat.add_le_add_right (hw.past u hu) 1000
    · obtain rfl := List.mem_singleton.1 hu
      exact Nat.le_refl _
  · rw [onExit_of_transient hp] at hd
    dsimp only at hd
    split_ifs at hd
  · rw [List.length_append] at hlt
    simp only [List.length_singleton] at hlt
    omega

/-- A child is spawned. -/
theorem Paced.spawn (h : Paced sp hist s) (hw : Window hist s) (hm : s.monitor = .spawning) :
    Paced (sp ++ [s.now]) hist
      { s with children := s.children ++ [⟨none, false⟩],
               monitor := .select s.children.length } := by
  have hlen : sp.length = hist.length := h.count.symm.trans (hw.respawns (by rw [hm]; rfl))
  refine ⟨by simp [h.count], by simp [hlen], fun t ht => ?_, fun k t u hk hu => ?_,
    fun k t u hu hk => ?_, nofun, nofun, fun _ => ?_⟩
  · rcases List.mem_append.1 ht with ht | ht
    · exact h.past t ht
    · exact Nat.le_of_eq (List.mem_singleton.1 ht)
  · have hlt := (List.getElem?_eq_some_iff.1 hu).1
    rw [List.getElem?_append_left (by omega)] at hk
    exact h.before k t u hk hu
  · rcases Nat.lt_or_ge (k + 1) sp.length with hlt | hge
    · rw [List.getElem?_append_left hlt] at hk
      exact h.later k t u hu hk
    · rw [List.getElem?_append_right hge] at hk
      obtain rfl := List.mem_singleton.1 (List.mem_of_getElem? hk)
      exact h.ready hm u (List.mem_of_getElem? hu)
  · have hno : ¬5 ≤ (lastWindow hist).length := by
      rw [← hw.tooFast, hm]
      exact nofun
    omega

theorem Paced.init (now : ℕ) (socket : Bool) : Paced [now] [] (.init now socket) := by
  refine ⟨rfl, Nat.le_refl _, fun t ht => ?_, nofun, nofun, nofun, nofun, fun _ => by decide⟩
  exact Nat.le_of_eq (List.mem_singleton.1 ht)

/-- Nothing is spawned and nothing counted. -/
theorem Paced.still {sp' hist' : List ℕ} (h : Paced sp hist s) (hsp : sp' = [])
    (hhist : hist' = []) : Paced (sp ++ sp') (hist ++ hist') s := by
  rwa [hsp, hhist, List.append_nil, List.append_nil]

theorem Paced.monitor {e : MonitorEvent} (h : Paced sp hist s) (hw : Window hist s)
    (hst : MonitorStep s e s') :
    Paced (sp ++ spawned ⟨s, .monitor e, s'⟩) (hist ++ counted s (.monitor e)) s' := by
  cases hst with
  | notice =>
    refine Paced.still ?_ rfl rfl
    exact h.off rfl (by simp [State.signal]) rfl
  | killed | reap | waitFailed | wokeCancelled | spawnFailed =>
    refine Paced.still ?_ rfl rfl
    exact h.off rfl rfl rfl
  | cancelled hm hs =>
    refine Paced.still ?_ rfl (by simp [counted, hm, hs])
    exact h.off rfl rfl rfl
  | @check status hm hs =>
    cases hp : permanent status with
    | none =>
      have hcounted : counted s (.monitor .check) = [s.now] := by simp [counted, hm, hs, hp]
      rw [hcounted]
      simpa [spawned] using h.exited hw hm hp
    | some c =>
      rw [onExit_of_permanent hp]
      refine Paced.still ?_ rfl (by simp [counted, hm, hp])
      exact h.off rfl rfl rfl
  | @wake deadline hm hd hs =>
    refine Paced.still ?_ rfl rfl
    refine ⟨h.count, h.le, h.past, h.before, h.later, fun _ h => (by cases h), fun _ u hu => ?_,
      h.calm⟩
    exact Nat.le_trans (h.due deadline hm u hu) hd
  | spawn hm => simpa [spawned, counted] using h.spawn hw hm

/-- The spawns of a run are paced. -/
theorem Paced.of_run (h : lts.Run (.init now socket) tr s) :
    Paced (spawns now tr) (history tr) s := by
  induction h with
  | refl => exact .init now socket
  | @tail tr s s' e hr hst ih =>
    have hspawns : spawns now (tr ++ [⟨s, e, s'⟩]) = spawns now tr ++ spawned ⟨s, e, s'⟩ := by
      simp [spawns]
    have hhistory : history (tr ++ [⟨s, e, s'⟩]) = history tr ++ counted s e := by
      simp [history]
    rw [hspawns, hhistory]
    cases step_cases hst with
    | monitor hm => exact ih.monitor (Window.of_run hr) hm
    | elapse =>
      refine Paced.still ?_ rfl rfl
      exact ih.keep (Nat.le_add_right ..) rfl (fun _ => id) id
    | exit | bind =>
      refine Paced.still ?_ rfl rfl
      exact ih.keep (Nat.le_refl _) (by simp) (fun _ => id) id
    | run hrun =>
      refine Paced.still ?_ rfl rfl
      cases hrun with
      | ready => exact ih.off rfl rfl rfl
      | _ => exact ih.keep (Nat.le_refl _) (by simp [State.signal]) (fun _ => id) id

/-- **There is one tunnel at a time, and six in a row take eleven seconds**, in every run. -/
theorem restrained (h : lts.Run (.init now socket) tr s) :
    (∀ p q, s.running p = true → s.running q = true → p = q) ∧
      ∀ k t t' : ℕ, (spawns now tr)[k]? = some t → (spawns now tr)[k + 5]? = some t' →
        t + 11000 ≤ t' := by
  have hsingle := Single.of_reachable h.reachable
  have hpaced := Paced.of_run h
  have hw := Window.of_run h
  refine ⟨fun p q hp hq => ?_, fun k t t' ht ht' => ?_⟩
  · exact Nat.succ.inj ((hsingle.last p hp).trans (hsingle.last q hq).symm)
  · -- five exits lie between the two
    have hlen : k + 5 < (spawns now tr).length := (List.getElem?_eq_some_iff.1 ht').1
    have hle := hpaced.le
    obtain ⟨v, hv⟩ : ∃ v, (history tr)[k]? = some v := ⟨_, List.getElem?_eq_getElem (by omega)⟩
    obtain ⟨u, hu⟩ : ∃ u, (history tr)[k + 4]? = some u := ⟨_, List.getElem?_eq_getElem (by omega)⟩
    have hwindow : (lastWindow ((history tr).take (k + 5))).length < 5 := by
      rcases Nat.lt_or_ge (k + 5) (history tr).length with hlt | hge
      · exact hw.earlier (k + 5) hlt
      · rw [List.take_of_length_le hge]
        exact hpaced.calm (by omega)
    calc t + 11000 ≤ v + 10000 + 1000 := by have := hpaced.before k t v ht hv; omega
      _ ≤ u + 1000 := Nat.add_le_add_right (five_apart hw.sorted hv hu hwindow) 1000
      _ ≤ t' := hpaced.later (k + 4) t' u hu ht'

/-- A tunnel whose `ssh` fails every three seconds. -/
def flapping (child : Pid) : List Event :=
  [.elapse 2000, .exit child (some 255) true, .monitor .reap, .monitor .check, .elapse 1000,
    .monitor .wake, .monitor (.spawn true)]

theorem restrained_flapping :
    ∃ tr s, lts.Run (.init 0 false) tr s ∧
      spawns 0 tr = [0, 3000, 6000, 9000, 12000, 15000] ∧
      ∀ p q, s.running p = true → s.running q = true → p = q := by
  have hrun : (LTS.exec step (.init 0 false) ([.bind 0, .run .ready] ++
      [0, 1, 2, 3, 4].flatMap flapping)).isSome := by decide +kernel
  obtain ⟨s, hs⟩ := Option.isSome_iff_exists.1 hrun
  have h := LTS.run_of_exec hs
  exact ⟨_, s, h, by decide +kernel, (restrained h).1⟩

end Connect

end Gritty
