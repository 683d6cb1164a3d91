import Gritty.Connect.Step
import Gritty.LTS.History

/-!
# The window of the tunnel monitor

`tunnel_monitor` keeps the instants of the recent exits of `ssh` only, and prunes them at every
exit.  The history of a run has the instants of all exits that it counted, and the pruned list is
the last window of the history, so the monitor gives up when the history says so.

## Main definitions

* `history` : the instants of the exits that were counted, read off the moves of a run.
* `lastWindow` : those that a full history would count at a given instant.
* `Decides` : what the monitor should do after an exit, said of the history.

## Main results

* `recent_lastWindow` : pruning forgets nothing that a later window needs.
* `Window.move`, `Window.count` : what each move of the monitor keeps.
* `Window.of_run` : the list of the monitor is the last window of the history.
* `decides_of_run` : the monitor decides as it would with the full history.
-/

namespace Gritty

namespace Connect

/-- The instant of an exit that the monitor counts. -/
def counted (s : State) : Event → List ℕ
  | .monitor .check =>
    match s.monitor with
    | .exited status => if s.stop = false ∧ permanent status = none then [s.now] else []
    | _ => []
  | _ => []

/-- The instants of all exits counted so far. -/
def history (tr : List (Move State Event)) : List ℕ :=
  tr.flatMap fun m => counted m.src m.lbl

/-- The exits less than ten seconds before the last one, itself included. -/
def lastWindow (hist : List ℕ) : List ℕ :=
  recent (hist.getLast?.getD 0) hist

/-- The monitor runs with a child, or one that has just exited. -/
def Monitor.attends : Monitor → Bool
  | .unborn | .select _ | .exited _ => true
  | _ => false

/-- The monitor is going to spawn the next child. -/
def Monitor.respawns : Monitor → Bool
  | .sleeping _ | .spawning => true
  | _ => false

/-- What the monitor has done about the exits counted so far. -/
structure Window (hist : List ℕ) (s : State) : Prop where
  sorted : hist.Pairwise (· ≤ ·)
  past : ∀ t ∈ hist, t ≤ s.now
  /-- no earlier exit was the fifth in ten seconds -/
  earlier : ∀ n < hist.length, (lastWindow (hist.take n)).length < 5
  /-- the monitor has given up when the last one was -/
  tooFast : s.monitor = .ended .tooFast ↔ 5 ≤ (lastWindow hist).length
  exitTimes : s.monitor.attends ∨ s.monitor.respawns → s.exitTimes = lastWindow hist
  /-- a child for every exit so far -/
  attends : s.monitor.attends → s.children.length = hist.length + 1
  respawns : s.monitor.respawns → s.children.length = hist.length

theorem recent_recent {last now : ℕ} (h : last ≤ now) (times : List ℕ) :
    recent now (recent last times) = recent now times := by
  simp only [recent, List.filter_filter]
  refine List.filter_congr fun t _ => ?_
  have : now - t < 10000 → last - t < 10000 := by omega
  simpa using this

/-- **Pruning forgets nothing that a later window needs.** -/
theorem recent_lastWindow {hist : List ℕ} {now : ℕ} (h : ∀ t ∈ hist, t ≤ now) :
    recent now (lastWindow hist ++ [now]) = lastWindow (hist ++ [now]) := by
  have hlast : hist.getLast?.getD 0 ≤ now := by
    cases hl : hist.getLast? with
    | none => simp
    | some t => simpa using h t (List.mem_of_getLast? hl)
  calc recent now (lastWindow hist ++ [now])
      = recent now (lastWindow hist) ++ recent now [now] := List.filter_append ..
    _ = recent now hist ++ recent now [now] := by rw [lastWindow, recent_recent hlast]
    _ = recent now (hist ++ [now]) := (List.filter_append ..).symm
    _ = lastWindow (hist ++ [now]) := by simp [lastWindow]

theorem onExit_of_permanent {status : Option Int32} {c : Int32} (h : permanent status = some c)
    (exitTimes : List ℕ) (now : ℕ) :
    onExit exitTimes now status = (exitTimes, .ended (.notRetrying c)) := by
  rw [onExit, h]

theorem onExit_of_transient {status : Option Int32} (h : permanent status = none)
    (exitTimes : List ℕ) (now : ℕ) :
    onExit exitTimes now status = (recent now (exitTimes ++ [now]),
      if 5 ≤ (recent now (exitTimes ++ [now])).length then .ended .tooFast
      else .sleeping (now + 1000)) := by
  simp only [onExit, h]
  split_ifs <;> rfl

/-- The guard has the child as long as the monitor is not there. -/
theorem unborn_of_guard {now : ℕ} {socket : Bool} {s : State}
    (h : lts.Reachable (.init now socket) s) (hg : s.guard.isSome) : s.monitor = .unborn := by
  refine h.invariant (I := fun s => s.guard.isSome → s.monitor = .unborn) (fun _ => rfl) ?_ hg
  intro s e s' hi hst hg
  cases step_cases hst with
  | elapse | exit | bind => exact hi hg
  | run hr =>
    cases hr with
    | ready => simp at hg
    | _ => exact hi hg
  | monitor hm => cases hm <;> simp_all [State.signal]

/-- The window is kept where no exit is counted and the clock goes forward. -/
theorem Window.keep {hist : List ℕ} {s s' : State} (h : Window hist s) (hnow : s.now ≤ s'.now)
    (hmonitor : s'.monitor = s.monitor) (htimes : s'.exitTimes = s.exitTimes)
    (hchildren : s'.children.length = s.children.length) : Window hist s' where
  sorted := h.sorted
  past t ht := Nat.le_trans (h.past t ht) hnow
  earlier := h.earlier
  tooFast := by rw [hmonitor, h.tooFast]
  exitTimes := by rw [hmonitor, htimes]; exact h.exitTimes
  attends := by rw [hmonitor, hchildren]; exact h.attends
  respawns := by rw [hmonitor, hchildren]; exact h.respawns

/-- The window is kept where the monitor moves without counting an exit. -/
theorem Window.move {hist : List ℕ} {s s' : State} (h : Window hist s) (hnow : s'.now = s.now)
    (hold : s.monitor ≠ .ended .tooFast) (hnew : s'.monitor ≠ .ended .tooFast)
    (htimes : s'.monitor.attends ∨ s'.monitor.respawns → s'.exitTimes = lastWindow hist)
    (hattends : s'.monitor.attends → s'.children.length = hist.length + 1)
    (hrespawns : s'.monitor.respawns → s'.children.length = hist.length) : Window hist s' where
  sorted := h.sorted
  past t ht := hnow ▸ h.past t ht
  earlier := h.earlier
  tooFast := iff_of_false hnew fun hlen => hold (h.tooFast.mpr hlen)
  exitTimes := htimes
  attends := hattends
  respawns := hrespawns

/-- The window after an exit that is counted. -/
theorem Window.count {hist : List ℕ} {s : State} {status : Option Int32} (h : Window hist s)
    (hm : s.monitor = .exited status) (hstatus : permanent status = none) :
    Window (hist ++ [s.now])
      { s with exitTimes := (onExit s.exitTimes s.now status).1,
               monitor := (onExit s.exitTimes s.now status).2 } := by
  have hattends : s.monitor.attends := by rw [hm]; rfl
  have hwindow : recent s.now (s.exitTimes ++ [s.now]) = lastWindow (hist ++ [s.now]) := by
    rw [h.exitTimes (.inl hattends), recent_lastWindow h.past]
  have hbefore : ¬5 ≤ (lastWindow hist).length := by
    rw [← h.tooFast, hm]
    exact nofun
  have hchildren := h.attends hattends
  rw [onExit_of_transient hstatus, hwindow]
  refine ⟨?_, ?_, ?_, ?_, fun _ => rfl, ?_, ?_⟩
  · refine List.pairwise_append.mpr ⟨h.sorted, List.pairwise_singleton .., fun t ht t' ht' => ?_⟩
    rw [List.mem_singleton.mp ht']
    exact h.past t ht
  · intro t ht
    obtain ht | ht := List.mem_append.mp ht
    · exact h.past t ht
    · exact Nat.le_of_eq (List.mem_singleton.mp ht)
  · intro n hn
    rw [List.length_append, List.length_singleton] at hn
    rw [List.take_append_of_le_length (by omega)]
    obtain hn | rfl : n < hist.length ∨ n = hist.length := by omega
    · exact h.earlier n hn
    · rw [List.take_length]
      omega
  · by_cases hfive : 5 ≤ (lastWindow (hist ++ [s.now])).length
    · simp [hfive]
    · simp [hfive]
  · by_cases hfive : 5 ≤ (lastWindow (hist ++ [s.now])).length
    · simp [hfive, Monitor.attends]
    · simp [hfive, Monitor.attends]
  · intro _
    rw [List.length_append, List.length_singleton]
    exact hchildren

/-- The window is kept where the monitor goes off without counting an exit. -/
theorem Window.off {hist : List ℕ} {s s' : State} (h : Window hist s) (hnow : s'.now = s.now)
    (hold : s.monitor ≠ .ended .tooFast) (hnew : s'.monitor ≠ .ended .tooFast)
    (hattends : s'.monitor.attends = false) (hrespawns : s'.monitor.respawns = false) :
    Window hist s' :=
  h.move hnow hold hnew (by simp [hattends, hrespawns]) (by simp [hattends]) (by simp [hrespawns])

/-- Nothing is counted. -/
theorem Window.still {hist hist' : List ℕ} {s : State} (h : Window hist s) (hnone : hist' = []) :
    Window (hist ++ hist') s := by
  rwa [hnone, List.append_nil]

/-- A move of the monitor keeps the window, over the exit that it counts, if it does. -/
theorem Window.monitor {hist : List ℕ} {s s' : State} {e : MonitorEvent} (h : Window hist s)
    (hst : MonitorStep s e s') : Window (hist ++ counted s (.monitor e)) s' := by
  cases hst with
  | notice hm | killed hm | waitFailed hm | wokeCancelled hm | spawnFailed hm =>
    refine Window.still ?_ rfl
    exact h.off rfl (by simp [hm]) nofun rfl rfl
  | cancelled hm hs =>
    refine Window.still ?_ (by simp [counted, hm, hs])
    exact h.off rfl (by simp [hm]) nofun rfl rfl
  | reap hm =>
    have ha : s.monitor.attends := by rw [hm]; rfl
    refine Window.still ?_ rfl
    exact h.move rfl (by simp [hm]) nofun (fun _ => h.exitTimes (.inl ha))
      (fun _ => h.attends ha) nofun
  | wake hm =>
    have hr : s.monitor.respawns := by rw [hm]; rfl
    refine Window.still ?_ rfl
    exact h.move rfl (by simp [hm]) nofun (fun _ => h.exitTimes (.inr hr))
      nofun (fun _ => h.respawns hr)
  | spawn hm =>
    have hr : s.monitor.respawns := by rw [hm]; rfl
    refine Window.still ?_ rfl
    exact h.move rfl (by simp [hm]) nofun (fun _ => h.exitTimes (.inr hr))
      (fun _ => by simp [h.respawns hr]) nofun
  | @check status hm hs =>
    cases hp : permanent status with
    | none =>
      have hcounted : counted s (.monitor .check) = [s.now] := by simp [counted, hm, hs, hp]
      rw [hcounted]
      exact h.count hm hp
    | some c =>
      rw [onExit_of_permanent hp]
      refine Window.still ?_ (by simp [counted, hm, hp])
      exact h.off rfl (by simp [hm]) nofun rfl rfl

theorem Window.init (now : ℕ) (socket : Bool) : Window [] (.init now socket) where
  sorted := .nil
  past := by simp
  earlier := by simp
  tooFast := by simp [State.init, lastWindow, recent]
  exitTimes _ := rfl
  attends _ := rfl
  respawns := nofun

/-- The history of a run is its window. -/
theorem Window.of_run {now : ℕ} {socket : Bool} {tr : List (Move State Event)} {s : State}
    (h : lts.Run (.init now socket) tr s) : Window (history tr) s := by
  induction h with
  | refl => exact .init now socket
  | @tail tr s s' e hr hst ih =>
    have hhistory : history (tr ++ [⟨s, e, s'⟩]) = history tr ++ counted s e := by
      simp [history]
    rw [hhistory]
    cases step_cases hst with
    | monitor hm => exact ih.monitor hm
    | elapse =>
      refine Window.still ?_ rfl
      exact ih.keep (Nat.le_add_right ..) rfl rfl rfl
    | exit | bind =>
      refine Window.still ?_ rfl
      exact ih.keep (Nat.le_refl _) rfl rfl (by simp)
    | run hrun =>
      refine Window.still ?_ rfl
      cases hrun with
      | ready hphase hg =>
        have hm : s.monitor = .unborn := unborn_of_guard hr.reachable (by simp [hg])
        have ha : s.monitor.attends := by rw [hm]; rfl
        exact ih.move rfl (by simp [hm]) nofun (fun _ => ih.exitTimes (.inl ha))
          (fun _ => ih.attends ha) nofun
      | _ => exact ih.keep (Nat.le_refl _) rfl rfl (by simp [State.signal])

end Connect

end Gritty
