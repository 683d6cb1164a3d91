import Gritty.Daemon.Table

/-!
# The life of the daemon

`daemon::run` from the moment its socket is bound: it restricts the permissions of the socket file,
writes the pid file, installs two signal handlers, and runs the control loop.  Every one of these
may fail, and so may the two removals in `shutdown`, whose results are ignored.  An error before the
loop, or of `accept` in it, makes `run` return at once.

## Main definitions

* `Stage`, `State` : how far `run` has come, with the daemon and its two files.
* `EndedCleanly` : a signal or `KillServer` ended the run, all sessions were aborted, and both files
  are gone.
* `orderly` : the events in which nothing fails.
* `Fate` : what a run has come to.

## Main results

* `loop_step` : a step of the loop keeps it going, shuts down, or is an error of `accept`.
* `Fate.step` : what each step makes of the fate of the run.
* `endedCleanly_iff` : a run in which `run` has returned ended cleanly if and only if nothing failed
  in it.
-/

namespace Gritty

namespace Life

open Daemon (Control Sessions SessionState)

/-- How far `run` has come. -/
inductive Stage where
  /-- `set_socket_permissions` -/
  | permissions
  | pidFile
  | sigterm
  | sigint
  | running
  /-- returned with an error before the loop -/
  | failed
  deriving DecidableEq

/-- The daemon process: how far `run` is, its loop, and its two files. -/
structure State where
  stage : Stage
  daemon : Daemon.State
  socketFile : Bool
  pidFile : Bool

/-- The system calls in front of the loop, and the steps of the loop. -/
inductive Event where
  | setPermissions (ok : Bool)
  /-- `fs::write`, which may fail with the file created or not -/
  | writePid (created ok : Bool)
  | sigterm (ok : Bool)
  | sigint (ok : Bool)
  /-- a step of the control loop or beside it; if it shuts down, whether the files are gone then -/
  | daemon (e : Daemon.Event) (socketGone pidGone : Bool)

/-- The socket is bound; a pid file may have been left. -/
def State.init (pidFile : Bool) : State := ⟨.permissions, .init, true, pidFile⟩

/-- SIGTERM, SIGINT or `KillServer` : the steps that call `shutdown`. -/
def shutsDown : Daemon.Event → Bool
  | .signal => true
  | .request (some (.ok .killServer)) => true
  | _ => false

/-- Clients may connect as soon as the socket is bound. -/
def isConnect : Daemon.Event → Bool
  | .connect => true
  | _ => false

/-- Go on to the next stage, or return the error. -/
def State.advance (s : State) (stage : Stage) (ok : Bool) : State :=
  { s with stage := if ok then stage else .failed }

/-- What an event does, when it can happen. -/
def step (s : State) : Event → Option State
  | .setPermissions ok =>
    match s.stage with
    | .permissions => some (s.advance .pidFile ok)
    | _ => none
  | .writePid created ok =>
    match s.stage with
    | .pidFile => some { s.advance .sigterm ok with pidFile := s.pidFile || created || ok }
    | _ => none
  | .sigterm ok =>
    match s.stage with
    | .sigterm => some (s.advance .sigint ok)
    | _ => none
  | .sigint ok =>
    match s.stage with
    | .sigint => some (s.advance .running ok)
    | _ => none
  | .daemon e socketGone pidGone =>
    if s.stage = .running ∨ isConnect e = true then
      (Daemon.step s.daemon e).map fun d =>
        { s with
          daemon := d
          socketFile := s.socketFile && !(shutsDown e && socketGone)
          pidFile := s.pidFile && !(shutsDown e && pidGone) }
    else none

/-- The daemon with its files. -/
def lts : LTS State Event := .ofFun step

/-- The control loop goes on. -/
def inLoop : Control → Bool
  | .top | .accepting | .reading _ => true
  | .replying _ _ next => next ≠ .quit
  | .returned _ | .panicked => false

/-- `run` has returned, before the loop or behind it. -/
def State.Returned (s : State) : Prop :=
  s.stage = .failed ∨ ∃ ok, s.daemon.control = .returned ok

/-- The move ends the control loop. -/
def Leaves (m : Move State Event) : Prop :=
  inLoop m.src.daemon.control = true ∧ inLoop m.dst.daemon.control = false

/-- What should hold when `run` has returned. -/
structure EndedCleanly (tr : List (Move State Event)) (s : State) : Prop where
  /-- the loop was ended by a signal or by `KillServer` -/
  told : ∀ m ∈ tr, Leaves m → ∃ e socketGone pidGone,
    m.lbl = .daemon e socketGone pidGone ∧ shutsDown e = true
  /-- every session in the table was aborted, -/
  aborted : ∀ m ∈ tr, Leaves m → ∀ id state, m.src.daemon.sessions.lookup id = some state →
    (s.daemon.tasks state.handle).aborted = true
  /-- and removed -/
  removed : s.daemon.sessions = ∅
  socketFile : s.socketFile = false
  pidFile : s.pidFile = false

/-- Nothing that `run` does on the way fails, and neither does `accept`. -/
def orderly : Event → Bool
  | .setPermissions ok | .writePid _ ok | .sigterm ok | .sigint ok => ok
  | .daemon .acceptErr _ _ => false
  | .daemon e socketGone pidGone => !shutsDown e || (socketGone && pidGone)

/-- The moves of the daemon with its files. -/
inductive Step (s : State) : Event → State → Prop
  | setPermissions {ok} : s.stage = .permissions →
      Step s (.setPermissions ok) (s.advance .pidFile ok)
  | writePid {created ok} : s.stage = .pidFile → Step s (.writePid created ok)
      { s.advance .sigterm ok with pidFile := s.pidFile || created || ok }
  | sigterm {ok} : s.stage = .sigterm → Step s (.sigterm ok) (s.advance .sigint ok)
  | sigint {ok} : s.stage = .sigint → Step s (.sigint ok) (s.advance .running ok)
  | daemon {e socketGone pidGone d} : s.stage = .running ∨ isConnect e = true →
      Daemon.Step s.daemon e d → Step s (.daemon e socketGone pidGone)
        { s with
          daemon := d
          socketFile := s.socketFile && !(shutsDown e && socketGone)
          pidFile := s.pidFile && !(shutsDown e && pidGone) }

variable {s s' : State} {e : Event} {d d' : Daemon.State} {de : Daemon.Event}

theorem step_cases (h : lts.step s e s') : Step s e s' := by
  change step s e = some s' at h
  cases e with
  | setPermissions ok =>
    simp only [step] at h
    split at h
    · next hs =>
      obtain rfl := Option.some.inj h
      exact .setPermissions hs
    · cases h
  | writePid created ok =>
    simp only [step] at h
    split at h
    · next hs =>
      obtain rfl := Option.some.inj h
      exact .writePid hs
    · cases h
  | sigterm ok =>
    simp only [step] at h
    split at h
    · next hs =>
      obtain rfl := Option.some.inj h
      exact .sigterm hs
    · cases h
  | sigint ok =>
    simp only [step] at h
    split at h
    · next hs =>
      obtain rfl := Option.some.inj h
      exact .sigint hs
    · cases h
  | daemon de socketGone pidGone =>
    simp only [step] at h
    split_ifs at h with hgo
    obtain ⟨d, hd, rfl⟩ := Option.map_eq_some_iff.mp h
    exact .daemon hgo (Daemon.step_cases hd)

/-! ### The control loop -/

theorem aborted_shutdown {id : UInt32} {state : SessionState}
    (hl : d.sessions.lookup id = some state) :
    (d.shutdown.tasks state.handle).aborted = true := by
  have hany : (d.sessions.entries.any fun e => e.2.handle == state.handle) = true :=
    List.any_eq_true.mpr ⟨⟨id, state⟩, Table.lookup_eq_some_iff.mp hl, beq_self_eq_true _⟩
  simp [Daemon.State.shutdown, hany]

theorem shutsDown_request {frame : Frame} (h : frame ≠ .killServer) :
    shutsDown (.request (some (.ok frame))) = false := by
  cases frame with
  | killServer => exact absurd rfl h
  | _ => rfl

theorem shutsDown_noRequest {r : Server.NextFrame} (h : ∀ frame, r ≠ some (.ok frame)) :
    shutsDown (.request r) = false := by
  rcases r with _ | e | frame
  · rfl
  · rfl
  · exact absurd rfl (h frame)

/-- A step of the loop keeps it going, or shuts down, or is an error of `accept`. -/
theorem loop_step (h : Daemon.Step d de d') (hin : inLoop d.control = true) :
    (inLoop d'.control = true ∧ shutsDown de = false ∧ de ≠ .acceptErr) ∨
      (inLoop d'.control = false ∧ shutsDown de = true ∧ de ≠ .acceptErr ∧ d'.sessions = ∅ ∧
        ∀ id state, d.sessions.lookup id = some state →
          (d'.tasks state.handle).aborted = true) ∨
      (de = .acceptErr ∧ inLoop d'.control = false) := by
  cases h with
  | task | finish | rehash | connect => exact .inl ⟨hin, rfl, nofun⟩
  | reap | accept | refuse => exact .inl ⟨rfl, rfl, nofun⟩
  | acceptErr => exact .inr (.inr ⟨rfl, rfl⟩)
  | signal =>
    exact .inr (.inl ⟨rfl, rfl, nofun, rfl, fun _ _ hl => aborted_shutdown hl⟩)
  | noRequest _ hno => exact .inl ⟨rfl, shutsDown_noRequest hno, nofun⟩
  | request _ hs =>
    cases hs with
    | shutdown => exact .inr (.inl ⟨rfl, rfl, nofun, rfl, fun _ _ hl => aborted_shutdown hl⟩)
    | unexpected hn =>
      refine .inl ⟨rfl, shutsDown_request ?_, nofun⟩
      rintro rfl
      exact hn trivial
    | _ => exact .inl ⟨rfl, rfl, nofun⟩
  | @replied _ _ next _ hc =>
    cases next with
    | handOff | again => exact .inl ⟨rfl, rfl, nofun⟩
    | quit => simp [hc, inLoop] at hin

theorem left_step (h : Daemon.Step d de d') (hout : inLoop d.control = false) :
    inLoop d'.control = false ∧ shutsDown de = false ∧ de ≠ .acceptErr ∧
      (d.sessions = ∅ → d'.sessions = ∅) ∧
      ∀ k, (d.tasks k).aborted = true → (d'.tasks k).aborted = true := by
  cases h with
  | @task handle | @finish handle =>
    refine ⟨hout, rfl, nofun, id, fun k hk => ?_⟩
    by_cases heq : k = handle
    · subst heq
      simpa using hk
    · simpa [heq] using hk
  | rehash hp =>
    refine ⟨hout, rfl, nofun, fun he => ?_, fun _ hk => hk⟩
    rw [he] at hp
    exact AList.ext hp.eq_nil
  | connect => exact ⟨hout, rfl, nofun, id, fun _ hk => hk⟩
  | reap hc | accept hc | refuse hc | acceptErr hc | signal hc | noRequest hc | request hc =>
    simp [hc, inLoop] at hout
  | @replied _ _ next _ hc =>
    cases next with
    | handOff | again => simp [hc, inLoop] at hout
    | quit => exact ⟨rfl, rfl, nofun, id, fun _ hk => hk⟩

/-! ### The whole run -/

/-- What a run has come to. -/
inductive Fate (tr : List (Move State Event)) (s : State) : Prop
  /-- all is well, and the loop goes on or has yet to begin -/
  | inLoop : s.stage ≠ .failed → inLoop s.daemon.control = true →
      (∀ m ∈ tr, orderly m.lbl = true ∧ ¬Leaves m) → s.socketFile = true →
      (s.stage ≠ .permissions → s.stage ≠ .pidFile → s.pidFile = true) → Fate tr s
  /-- an error has left the socket file behind -/
  | abandoned : s.stage = .failed ∨ Life.inLoop s.daemon.control = false → s.socketFile = true →
      (∃ m ∈ tr, orderly m.lbl = false) → Fate tr s
  /-- `shutdown` was called -/
  | told : s.stage = .running → Life.inLoop s.daemon.control = false → s.daemon.sessions = ∅ →
      (∀ m ∈ tr, Leaves m → (∃ e socketGone pidGone,
          m.lbl = .daemon e socketGone pidGone ∧ shutsDown e = true) ∧
        ∀ id state, m.src.daemon.sessions.lookup id = some state →
          (s.daemon.tasks state.handle).aborted = true) →
      ((∀ m ∈ tr, orderly m.lbl = true) ↔ s.socketFile = false ∧ s.pidFile = false) → Fate tr s

variable {tr : List (Move State Event)}

theorem orderly_daemon {socketGone pidGone : Bool} (hquiet : shutsDown de = false)
    (haccept : de ≠ .acceptErr) : orderly (.daemon de socketGone pidGone) = true := by
  unfold orderly
  split <;> simp_all

theorem orderly_shutdown {socketGone pidGone : Bool} (hs : shutsDown de = true) :
    orderly (.daemon de socketGone pidGone) = (socketGone && pidGone) := by
  unfold orderly
  split <;> simp_all [shutsDown]

theorem forall_mem_concat {P : Move State Event → Prop} {m : Move State Event} :
    (∀ m' ∈ tr ++ [m], P m') ↔ (∀ m' ∈ tr, P m') ∧ P m := by
  simp [or_imp, forall_and]

theorem not_leaves_of_eq (h : s'.daemon = s.daemon) : ¬Leaves ⟨s, e, s'⟩ := by
  rintro ⟨hin, hout⟩
  simp only [h, hin] at hout
  cases hout

theorem Fate.advance (stage : Stage) (ok : Bool) (hloop : Life.inLoop s.daemon.control = true)
    (hall : ∀ m ∈ tr, orderly m.lbl = true ∧ ¬Leaves m) (hsocket : s.socketFile = true)
    (he : orderly e = ok) (hstage : stage ≠ .failed)
    (hs' : s'.stage = if ok then stage else .failed) (hd : s'.daemon = s.daemon)
    (hsocket' : s'.socketFile = s.socketFile)
    (hpid : ok = true → stage ≠ .permissions → stage ≠ .pidFile → s'.pidFile = true) :
    Fate (tr ++ [⟨s, e, s'⟩]) s' := by
  cases ok with
  | true =>
    refine .inLoop (by simpa [hs'] using hstage) (by rw [hd, hloop])
      (forall_mem_concat.mpr ⟨hall, he, not_leaves_of_eq hd⟩) (by rw [hsocket', hsocket]) ?_
    simpa [hs'] using hpid rfl
  | false =>
    exact .abandoned (.inl (by simp [hs'])) (by rw [hsocket', hsocket]) ⟨⟨s, e, s'⟩, by simp, he⟩

/-- A step of the loop while all is well. -/
theorem Fate.loop {socketGone pidGone : Bool} (hgo : s.stage = .running ∨ isConnect de = true)
    (hst : Daemon.Step s.daemon de d) (hstage : s.stage ≠ .failed)
    (hloop : Life.inLoop s.daemon.control = true)
    (hall : ∀ m ∈ tr, orderly m.lbl = true ∧ ¬Leaves m) (hsocket : s.socketFile = true)
    (hpid : s.stage ≠ .permissions → s.stage ≠ .pidFile → s.pidFile = true)
    (hs' : s' = { s with
      daemon := d
      socketFile := s.socketFile && !(shutsDown de && socketGone)
      pidFile := s.pidFile && !(shutsDown de && pidGone) }) :
    Fate (tr ++ [⟨s, .daemon de socketGone pidGone, s'⟩]) s' := by
  subst hs'
  obtain ⟨hin, hquiet, haccept⟩ | ⟨hout, hs, haccept, hempty, haborted⟩ | ⟨rfl, hout⟩ :=
    loop_step hst hloop
  · refine .inLoop hstage hin (forall_mem_concat.mpr ⟨hall, orderly_daemon hquiet haccept, ?_⟩)
      (by simp [hsocket, hquiet]) fun h₁ h₂ => by simp [hpid h₁ h₂, hquiet]
    rintro ⟨-, hout⟩
    simp only [hin] at hout
    cases hout
  · have hrun : s.stage = .running := by
      refine hgo.resolve_right fun hc => ?_
      unfold isConnect at hc
      split at hc
      · cases hs
      · cases hc
    have hpid' : s.pidFile = true := hpid (by simp [hrun]) (by simp [hrun])
    refine .told hrun hout hempty ?_ ?_
    · refine forall_mem_concat.mpr ⟨fun m hm hl => absurd hl (hall m hm).2, fun _ => ?_⟩
      exact ⟨⟨de, socketGone, pidGone, rfl, hs⟩, haborted⟩
    · rw [forall_mem_concat, orderly_shutdown hs]
      simp only [hsocket, hpid', hs, Bool.true_and, Bool.not_eq_false', Bool.and_eq_true]
      exact ⟨fun h => h.2, fun h => ⟨fun m hm => (hall m hm).1, h⟩⟩
  · exact .abandoned (.inr hout) (by simp [hsocket, shutsDown])
      ⟨_, List.mem_append_right _ (List.mem_singleton_self _), rfl⟩

/-- Each step carries on what the run has come to. -/
theorem Fate.step (h : Fate tr s) (hst : Step s e s') : Fate (tr ++ [⟨s, e, s'⟩]) s' := by
  have hlater : ∀ {tr : List (Move State Event)}, (∃ m ∈ tr, orderly m.lbl = false) →
      ∃ m ∈ tr ++ [⟨s, e, s'⟩], orderly m.lbl = false := by
    rintro tr ⟨m, hm, ho⟩
    exact ⟨m, List.mem_append_left _ hm, ho⟩
  cases h with
  | inLoop hstage hloop hall hsocket hpid =>
    cases hst with
    | @setPermissions ok =>
      exact .advance .pidFile ok hloop hall hsocket rfl nofun rfl rfl rfl (by simp)
    | @writePid _ ok =>
      exact .advance .sigterm ok hloop hall hsocket rfl nofun rfl rfl rfl (by simp +contextual)
    | @sigterm ok hs =>
      exact .advance .sigint ok hloop hall hsocket rfl nofun rfl rfl rfl
        fun _ _ _ => hpid (by simp [hs]) (by simp [hs])
    | @sigint ok hs =>
      exact .advance .running ok hloop hall hsocket rfl nofun rfl rfl rfl
        fun _ _ _ => hpid (by simp [hs]) (by simp [hs])
    | daemon hgo hd => exact .loop hgo hd hstage hloop hall hsocket hpid rfl
  | abandoned hwhere hsocket hbad =>
    cases hst with
    | setPermissions hs | writePid hs | sigterm hs | sigint hs =>
      exact .abandoned (.inr (hwhere.resolve_left (by simp [hs]))) hsocket (hlater hbad)
    | @daemon de _ _ d hgo hd =>
      obtain hfailed | hout := hwhere
      · have hquiet : shutsDown de = false := by
          have hc := hgo.resolve_left (by simp [hfailed])
          unfold isConnect at hc
          split at hc
          · rfl
          · cases hc
        exact .abandoned (.inl hfailed) (by simp [hsocket, hquiet]) (hlater hbad)
      · obtain ⟨hout', hquiet, -⟩ := left_step hd hout
        exact .abandoned (.inr hout') (by simp [hsocket, hquiet]) (hlater hbad)
  | told hrun hout hempty hleaves hiff =>
    cases hst with
    | setPermissions hs | writePid hs | sigterm hs | sigint hs => simp [hs] at hrun
    | @daemon de _ _ d hgo hd =>
      obtain ⟨hout', hquiet, haccept, hempty', hkeep⟩ := left_step hd hout
      refine .told hrun hout' (hempty' hempty) ?_ ?_
      · refine forall_mem_concat.mpr ⟨fun m hm hl => ?_, fun hl => ?_⟩
        · obtain ⟨htold, haborted⟩ := hleaves m hm hl
          exact ⟨htold, fun id state hid => hkeep _ (haborted id state hid)⟩
        · exact absurd (hout.symm.trans hl.1) nofun
      · rw [forall_mem_concat, orderly_daemon hquiet haccept, hiff]
        simp [hquiet]

/-- **How the daemon ends.**  A run in which `run` has returned ended cleanly if and only if nothing
failed: neither the steps before the loop, nor `accept`, nor the two removals. -/
theorem endedCleanly_iff {pidFile : Bool} (h : lts.Run (.init pidFile) tr s) (hr : s.Returned) :
    EndedCleanly tr s ↔ ∀ m ∈ tr, orderly m.lbl = true := by
  have hfate : Fate tr s := by
    clear hr
    induction h with
    | refl => exact .inLoop nofun rfl (by simp) rfl (by simp [State.init])
    | tail _ hst ih => exact ih.step (step_cases hst)
  cases hfate with
  | inLoop hstage hloop =>
    obtain hf | ⟨ok, hc⟩ := hr
    · exact absurd hf hstage
    · simp [hc, inLoop] at hloop
  | abandoned _ hsocket hbad =>
    obtain ⟨m, hm, ho⟩ := hbad
    refine iff_of_false (fun hc => ?_) fun hall => ?_
    · simp [hc.socketFile] at hsocket
    · simp [hall m hm] at ho
  | told _ _ hempty hleaves hiff =>
    rw [hiff]
    refine ⟨fun hc => ⟨hc.socketFile, hc.pidFile⟩, fun hfiles => ?_⟩
    exact ⟨fun m hm hl => (hleaves m hm hl).1, fun m hm hl => (hleaves m hm hl).2, hempty,
      hfiles.1, hfiles.2⟩

/-- The daemon starts and creates a session. -/
def startEvents : List Event :=
  [.setPermissions true, .writePid true true, .sigterm true, .sigint true] ++
    [.connect, .reap, .accept true, .request (some (.ok (.newSession "work"))), .replied true,
      .reap].map fun e => .daemon e false false

/-- SIGTERM aborts the session and removes both files. -/
theorem endedCleanly_signal :
    ∃ s, LTS.exec step (.init false) (startEvents ++ [.daemon .signal true true]) = some s ∧
      EndedCleanly (LTS.trace step (.init false) (startEvents ++ [.daemon .signal true true])) s ∧
      (s.daemon.tasks 0).aborted = true := by
  have h : ∃ s, LTS.exec step (.init false) (startEvents ++ [.daemon .signal true true]) = some s ∧
      s.daemon.control = .returned true ∧ (s.daemon.tasks 0).aborted = true := ⟨_, rfl, rfl, rfl⟩
  obtain ⟨s, h, hc, ha⟩ := h
  have horderly : ∀ e ∈ startEvents ++ [.daemon .signal true true], orderly e = true := by decide
  exact ⟨s, h, (endedCleanly_iff (LTS.run_of_exec h) (.inr ⟨true, hc⟩)).mpr
    fun m hm => horderly _ (LTS.lbl_mem_of_trace hm), ha⟩

/-- One failing `accept` ends the daemon: the session is not aborted and both files stay. -/
theorem not_endedCleanly_acceptErr :
    ∃ tr s, lts.Run (.init false) tr s ∧ s.daemon.control = .returned false ∧
      (s.daemon.tasks 0).aborted = false ∧ s.socketFile = true ∧ s.pidFile = true ∧
      ¬EndedCleanly tr s := by
  have h : ∃ s, LTS.exec step (.init false) (startEvents ++ [.daemon .acceptErr false false]) =
      some s ∧ s.daemon.control = .returned false ∧ (s.daemon.tasks 0).aborted = false ∧
      s.socketFile = true ∧ s.pidFile = true := ⟨_, rfl, rfl, rfl, rfl, rfl⟩
  obtain ⟨s, h, hc, ha, hsocket, hpid⟩ := h
  refine ⟨_, s, LTS.run_of_exec h, hc, ha, hsocket, hpid, fun hclean => ?_⟩
  simp [hclean.socketFile] at hsocket

end Life

end Gritty
