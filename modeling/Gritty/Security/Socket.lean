import Gritty.LTS.Basic
import Mathlib.Logic.Function.Basic
import Mathlib.Tactic.Common

/-!
# The control socket

Any number of processes may run the daemon on the same path.  `bind_unix_listener` binds the path
or, if it is in use but nobody listens there, removes it and binds it again; `shutdown` removes it.
The system calls of the processes interleave freely.  To bind and to listen is one call here.

A process that takes the file for stale can remove a socket that was bound after its probe.  This is
the only way in which a process loses its socket to another one.

## Main definitions

* `State` : the path, and where each process is.
* `Held` : who has bound the path and not shut down is at the path, and nobody else who runs.
* `Safe` : no process removes the socket of another one that listens, and one at most serves.
* `Undisturbed` : between a probe and the `remove_file` behind it nobody binds the path to stay.

## Main results

* `step_cases` : the moves of the processes.
* `Held.unique` : the path is held by one process at most.
* `clean_of_undisturbed` : in an undisturbed run, a bind takes the path from nobody.
* `safe_iff` : a run is safe if and only if it is undisturbed.
-/

namespace Gritty

namespace Security

/-- A process. -/
abbrev Pid := ℕ

/-- A file at the path. -/
inductive File where
  /-- a socket that was left behind -/
  | stale
  /-- the socket that a process bound -/
  | socket (pid : Pid)
  deriving DecidableEq

/-- The next system call of a process. -/
inductive Phase where
  /-- `UnixListener::bind(path)` -/
  | bind
  /-- the path is in use: `UnixStream::connect(path)` -/
  | probe
  /-- nobody listens: `remove_file(path)` -/
  | remove
  | rebind
  /-- `set_socket_permissions(path)` -/
  | permissions
  /-- `bind_unix_listener` returned the listener -/
  | serving
  /-- `shutdown` removed the path; the listener is dropped next -/
  | closing
  /-- `bind_unix_listener` returned an error -/
  | failed
  | exited
  deriving DecidableEq

/-- The process holds a listener. -/
def Phase.listens : Phase → Bool
  | .permissions | .serving | .closing => true
  | .bind | .probe | .remove | .rebind | .failed | .exited => false

/-- The process holds the listener that it bound, and has not shut down. -/
def Phase.holds : Phase → Bool
  | .permissions | .serving => true
  | .bind | .probe | .remove | .rebind | .closing | .failed | .exited => false

/-- The system calls, and the death of a process. -/
inductive Call where
  | bind
  | connect
  | removeFile
  | setPermissions
  /-- `shutdown` and its `remove_file` -/
  | shutdown
  /-- the listener is dropped when `run` returns -/
  | drop
  /-- `run` fails after the bind, or the process is killed -/
  | die
  deriving DecidableEq

/-- The path of the socket, and the processes that bind there. -/
structure State where
  /-- what is at the path -/
  path : Option File
  phase : Pid → Phase

/-- A process goes on. -/
def State.enter (s : State) (pid : Pid) (p : Phase) : State :=
  { s with phase := Function.update s.phase pid p }

/-- `UnixStream::connect(path)` succeeds: the path names a socket with a listener. -/
def State.connects (s : State) : Bool :=
  match s.path with
  | some (.socket pid) => (s.phase pid).listens
  | _ => false

/-- `UnixListener::bind(path)` : it fails if the path exists. -/
def State.bind (s : State) (pid : Pid) (inUse : Phase) : State :=
  match s.path with
  | none => { s.enter pid .permissions with path := some (.socket pid) }
  | some _ => s.enter pid inUse

/-- One system call of one process. -/
def step (s : State) : Pid × Call → Option State
  | (pid, call) =>
    match s.phase pid, call with
    | .bind, .bind => some (s.bind pid .probe)
    | .probe, .connect => some (s.enter pid (if s.connects then .failed else .remove))
    | .remove, .removeFile =>
      match s.path with
      | some _ => some { s.enter pid .rebind with path := none }
      | none => some (s.enter pid .failed)
    | .rebind, .bind => some (s.bind pid .failed)
    | .permissions, .setPermissions =>
      match s.path with
      | some _ => some (s.enter pid .serving)
      | none => some (s.enter pid .failed)
    | .serving, .shutdown => some { s.enter pid .closing with path := none }
    | .closing, .drop => some (s.enter pid .exited)
    | _, .die => some (s.enter pid .exited)
    | _, _ => none

/-- The processes as a transition system. -/
def lts : LTS State (Pid × Call) := .ofFun step

/-- The processes start, with nothing at the path, a socket that was left behind, or that of a
daemon. -/
def Initial (s : State) : Prop :=
  ((s.path = none ∨ s.path = some .stale) ∧ ∀ pid, s.phase pid = .bind) ∨
    ∃ pid, s.path = some (.socket pid) ∧ s.phase pid = .serving ∧ ∀ q, q ≠ pid → s.phase q = .bind

/-! ### The moves -/

/-- The moves, branch by branch. -/
inductive Step (s : State) (pid : Pid) : Call → State → Prop
  | bound : (s.phase pid = .bind ∨ s.phase pid = .rebind) → s.path = none →
      Step s pid .bind { s.enter pid .permissions with path := some (.socket pid) }
  | inUse : s.phase pid = .bind → s.path ≠ none → Step s pid .bind (s.enter pid .probe)
  | lost : s.phase pid = .rebind → s.path ≠ none → Step s pid .bind (s.enter pid .failed)
  | alive : s.phase pid = .probe → s.connects = true → Step s pid .connect (s.enter pid .failed)
  | dead : s.phase pid = .probe → s.connects = false → Step s pid .connect (s.enter pid .remove)
  | removed : s.phase pid = .remove → s.path ≠ none →
      Step s pid .removeFile { s.enter pid .rebind with path := none }
  | notFound : s.phase pid = .remove → s.path = none →
      Step s pid .removeFile (s.enter pid .failed)
  | serve : s.phase pid = .permissions → s.path ≠ none →
      Step s pid .setPermissions (s.enter pid .serving)
  | noFile : s.phase pid = .permissions → s.path = none →
      Step s pid .setPermissions (s.enter pid .failed)
  | shutdown : s.phase pid = .serving →
      Step s pid .shutdown { s.enter pid .closing with path := none }
  | drop : s.phase pid = .closing → Step s pid .drop (s.enter pid .exited)
  | die : Step s pid .die (s.enter pid .exited)

variable {s s₀ s' : State} {pid q : Pid} {call : Call} {tr : List (Move State (Pid × Call))}

/-- **Every step is one of the listed moves.** -/
theorem step_cases (h : lts.step s (pid, call) s') : Step s pid call s' := by
  change step s (pid, call) = some s' at h
  unfold step at h
  dsimp only at h
  split at h
  · next hp =>
    obtain rfl := Option.some.inj h
    unfold State.bind
    split
    · next hn => exact .bound (.inl hp) hn
    · next hn => exact .inUse hp (by simp [hn])
  · next hp =>
    obtain rfl := Option.some.inj h
    by_cases hc : s.connects = true
    · rw [if_pos hc]
      exact .alive hp hc
    · rw [if_neg hc]
      exact .dead hp (Bool.eq_false_iff.2 hc)
  · next hp =>
    split at h
    · next hn =>
      obtain rfl := Option.some.inj h
      exact .removed hp (by simp [hn])
    · next hn =>
      obtain rfl := Option.some.inj h
      exact .notFound hp hn
  · next hp =>
    obtain rfl := Option.some.inj h
    unfold State.bind
    split
    · next hn => exact .bound (.inr hp) hn
    · next hn => exact .lost hp (by simp [hn])
  · next hp =>
    split at h
    · next hn =>
      obtain rfl := Option.some.inj h
      exact .serve hp (by simp [hn])
    · next hn =>
      obtain rfl := Option.some.inj h
      exact .noFile hp hn
  · next hp =>
    obtain rfl := Option.some.inj h
    exact .shutdown hp
  · next hp =>
    obtain rfl := Option.some.inj h
    exact .drop hp
  · obtain rfl := Option.some.inj h
    exact .die
  · cases h

/-! ### Who holds the socket -/

@[simp] theorem enter_phase_self {p : Phase} : (s.enter pid p).phase pid = p := by
  simp [State.enter]

theorem enter_phase_of_ne {p : Phase} (h : q ≠ pid) : (s.enter pid p).phase q = s.phase q := by
  simp [State.enter, h]

/-- A listener that was not shut down is at the path, and a socket at the path is that of such a
listener or of a process that exited. -/
structure Held (s : State) : Prop where
  path : ∀ q, (s.phase q).holds = true → s.path = some (.socket q)
  owner : ∀ q, s.path = some (.socket q) → (s.phase q).holds = true ∨ s.phase q = .exited

/-- A `remove_file` of `bind_unix_listener` takes the path from nobody. -/
def Clean (m : Move State (Pid × Call)) : Prop :=
  ∀ pid, m.lbl = (pid, .removeFile) → ∀ q, (m.src.phase q).holds = false

theorem Held.init (h : Initial s) : Held s := by
  rcases h with ⟨hpath, hp⟩ | ⟨p, hpath, hp, hrest⟩
  · refine ⟨fun q hq => ?_, fun q hq => ?_⟩
    · rw [hp q] at hq
      cases hq
    · rcases hpath with h | h <;> simp [h] at hq
  · refine ⟨fun q hq => ?_, fun q hq => ?_⟩
    · by_cases hqp : q = p
      · rw [hqp, hpath]
      · rw [hrest q hqp] at hq
        cases hq
    · obtain rfl : p = q := by simpa [hpath] using hq
      exact .inl (by rw [hp]; rfl)

/-- A process that goes on without the path and without a listener changes nothing. -/
theorem Held.enter (hi : Held s) {p : Phase} (hp : p.holds = false)
    (howner : s.path = some (.socket pid) → p = .exited) : Held (s.enter pid p) := by
  refine ⟨fun q hq => ?_, fun q hq => ?_⟩
  · by_cases hqp : q = pid
    · subst hqp
      rw [enter_phase_self, hp] at hq
      cases hq
    · rw [enter_phase_of_ne hqp] at hq
      exact hi.path q hq
  · by_cases hqp : q = pid
    · subst hqp
      rw [enter_phase_self]
      exact .inr (howner hq)
    · rw [enter_phase_of_ne hqp]
      exact hi.owner q hq

theorem Held.path_ne (hi : Held s) (hp : (s.phase pid).holds = false)
    (hp' : s.phase pid ≠ .exited) : s.path ≠ some (.socket pid) := by
  intro h
  rcases hi.owner pid h with h | h
  · rw [hp] at h
    cases h
  · exact hp' h

theorem held_unlink {p : Phase} (hp : p.holds = false)
    (hno : ∀ q, q ≠ pid → (s.phase q).holds = false) :
    Held { s.enter pid p with path := none } := by
  refine ⟨fun q hq => ?_, by simp⟩
  by_cases hqp : q = pid
  · subst hqp
    simp [hp] at hq
  · have hq' : (s.phase q).holds = true := by simpa [enter_phase_of_ne hqp] using hq
    rw [hno q hqp] at hq'
    cases hq'

/-- Only one process holds the socket. -/
theorem Held.unique (hi : Held s) {p : Pid} (hp : (s.phase p).holds = true)
    (hq : (s.phase q).holds = true) : p = q := by
  have h := (hi.path p hp).symm.trans (hi.path q hq)
  simpa using h

theorem Held.step (hi : Held s) (h : Step s pid call s') (hc : Clean ⟨s, (pid, call), s'⟩) :
    Held s' := by
  cases h with
  | bound hp hn =>
    refine ⟨fun q hq => ?_, fun q hq => ?_⟩
    · by_cases hqp : q = pid
      · rw [hqp]
      · have hq' : (s.phase q).holds = true := by simpa [enter_phase_of_ne hqp] using hq
        rw [hi.path q hq'] at hn
        cases hn
    · obtain rfl : pid = q := by simpa using hq
      exact .inl (by simp [Phase.holds])
  | inUse hp | lost hp | alive hp | dead hp | notFound hp | drop hp =>
    exact hi.enter rfl fun h => absurd h (hi.path_ne (by rw [hp]; rfl) (by simp [hp]))
  | removed hp => exact held_unlink rfl fun q _ => hc pid rfl q
  | serve hp =>
    refine ⟨fun q hq => ?_, fun q hq => ?_⟩
    · by_cases hqp : q = pid
      · rw [hqp]
        exact hi.path pid (by rw [hp]; rfl)
      · rw [enter_phase_of_ne hqp] at hq
        exact hi.path q hq
    · by_cases hqp : q = pid
      · exact .inl (by rw [hqp, enter_phase_self]; rfl)
      · rw [enter_phase_of_ne hqp]
        exact hi.owner q hq
  | noFile hp hn =>
    rw [hi.path pid (by rw [hp]; rfl)] at hn
    cases hn
  | shutdown hp =>
    refine held_unlink rfl fun q hqp => ?_
    by_contra hq
    exact hqp (hi.unique (by simpa using hq) (by rw [hp]; rfl))
  | die => exact hi.enter rfl fun _ => rfl

theorem Held.of_clean (hr : lts.Run s₀ tr s) (h₀ : Initial s₀) (hc : ∀ m ∈ tr, Clean m) : Held s :=
  hr.invariant (I := fun _ s => Held s) hc (.init h₀) fun _ _ _ _ hi hc hst =>
    hi.step (step_cases hst) hc

/-! ### What a move does to its process -/

theorem listens_of_holds {p : Phase} (h : p.holds = true) : p.listens = true := by
  cases p <;> simp_all [Phase.holds, Phase.listens]

theorem phase_of_removeFile (h : Step s pid .removeFile s') : s.phase pid = .remove := by
  cases h with
  | removed hp | notFound hp => exact hp

theorem phase_of_shutdown (h : Step s pid .shutdown s') : s.phase pid = .serving := by
  cases h with
  | shutdown hp => exact hp

/-- A move leaves the other processes where they are. -/
theorem phase_step (h : Step s pid call s') (hq : q ≠ pid) : s'.phase q = s.phase q := by
  cases h <;> exact enter_phase_of_ne hq

theorem connect_of_remove (h : Step s pid call s') (hp : s'.phase pid = .remove) :
    call = .connect ∧ s.connects = false := by
  cases h with
  | dead _ hc => exact ⟨rfl, hc⟩
  | _ => simp at hp

theorem bind_of_holds (h : Step s pid call s') (hp : (s'.phase pid).holds = true) :
    call = .bind ∨ (s.phase pid).holds = true := by
  cases h with
  | bound => exact .inl rfl
  | serve hp' => exact .inr (by rw [hp']; rfl)
  | _ => simp [Phase.holds] at hp

/-! ### Safety -/

/-- No process takes the socket of another one that still listens, and one process at most has been
given a listener and has not shut down. -/
structure Safe (tr : List (Move State (Pid × Call))) (s : State) : Prop where
  unlink : ∀ m ∈ tr, ∀ p q, m.lbl = (p, .removeFile) ∨ m.lbl = (p, .shutdown) →
    m.src.path = some (.socket q) → q ≠ p → (m.src.phase q).listens = false
  single : ∀ s', (s' = s ∨ ∃ m ∈ tr, m.src = s') →
    ∀ p q, s'.phase p = .serving → s'.phase q = .serving → p = q

/-- Between the probe of a process and the `remove_file` that follows it, nobody binds the path who
still holds it then. -/
def Undisturbed (tr : List (Move State (Pid × Call))) : Prop :=
  ∀ tr₁ m₁ tr₂ m₂ tr₃ p, tr = tr₁ ++ m₁ :: (tr₂ ++ m₂ :: tr₃) → m₁.lbl = (p, .connect) →
    m₂.lbl = (p, .removeFile) → ∀ m ∈ tr₂, ∀ q, m.lbl = (q, .bind) →
      (m₂.src.phase q).holds = false

theorem safe_of_clean (hr : lts.Run s₀ tr s) (h₀ : Initial s₀) (hc : ∀ m ∈ tr, Clean m) :
    Safe tr s := by
  have hheld : ∀ m ∈ tr, Held m.src := by
    intro m hm
    obtain ⟨-, tr₁, tr₂, rfl, hr₁⟩ := hr.move hm
    exact .of_clean hr₁ h₀ fun m hm => hc m (List.mem_append_left _ hm)
  have hsingle : ∀ {s : State}, Held s → ∀ p q, s.phase p = .serving → s.phase q = .serving →
      p = q := fun hi p q hp hq => hi.unique (by rw [hp]; rfl) (by rw [hq]; rfl)
  refine ⟨?_, ?_⟩
  · intro m hm p q hl hq hqp
    rcases hl with hl | hl
    · rcases (hheld m hm).owner q hq with h | h
      · rw [hc m hm p hl q] at h
        cases h
      · rw [h]
        rfl
    -- who shuts down removes its own socket
    · obtain ⟨hst, -⟩ := hr.move hm
      rw [hl] at hst
      have h := (hheld m hm).path p (by rw [phase_of_shutdown (step_cases hst)]; rfl)
      rw [hq] at h
      exact absurd (by simpa using h) hqp
  · rintro s' (rfl | ⟨m, hm, rfl⟩)
    · exact hsingle (.of_clean hr h₀ hc)
    · exact hsingle (hheld m hm)

theorem clean_of_safe (hr : lts.Run s₀ tr s) (h₀ : Initial s₀) (hs : Safe tr s) :
    ∀ m ∈ tr, Clean m := by
  have h : Held s ∧ ∀ m ∈ tr, Clean m := by
    refine hr.invariant (I := fun tr s => Held s ∧ ∀ m ∈ tr, Clean m) hs.unlink
      ⟨.init h₀, by simp⟩ ?_
    rintro tr s ⟨pid, call⟩ s' ⟨hi, hc⟩ hsafe hst
    have hclean : Clean ⟨s, (pid, call), s'⟩ := by
      rintro p hl q
      obtain ⟨rfl, rfl⟩ : pid = p ∧ call = .removeFile := by simpa using hl
      by_contra hno
      have hq : (s.phase q).holds = true := by simpa using hno
      clear hno
      have hqp : q ≠ pid := by
        rintro rfl
        rw [phase_of_removeFile (step_cases hst)] at hq
        cases hq
      have hno : (s.phase q).listens = false := hsafe pid q (.inl rfl) (hi.path q hq) hqp
      rw [listens_of_holds hq] at hno
      cases hno
    refine ⟨hi.step (step_cases hst) hclean, fun m hm => ?_⟩
    rcases List.mem_append.1 hm with hm | hm
    · exact hc m hm
    · obtain rfl := List.mem_singleton.1 hm
      exact hclean
  exact h.2

/-- Where the holders come from that a process about to remove the path has not seen: they bound it
after its probe. -/
structure Seen (tr : List (Move State (Pid × Call))) (s : State) : Prop where
  probed : ∀ p, s.phase p = .remove → ∃ m ∈ tr, m.lbl = (p, .connect)
  bound : ∀ p, s.phase p = .remove → ∀ q, (s.phase q).holds = true →
    ∃ tr₁ m tr₂, tr = tr₁ ++ m :: tr₂ ∧ m.lbl = (p, .connect) ∧ ∃ m' ∈ tr₂, m'.lbl = (q, .bind)

theorem Seen.step (hi : Seen tr s) (hheld : Held s) (h : Step s pid call s') :
    Seen (tr ++ [⟨s, (pid, call), s'⟩]) s' := by
  refine ⟨fun p hp => ?_, fun p hp q hq => ?_⟩
  · by_cases hpp : p = pid
    · subst hpp
      obtain ⟨rfl, -⟩ := connect_of_remove h hp
      exact ⟨_, List.mem_append_right _ (List.mem_singleton.2 rfl), rfl⟩
    · obtain ⟨m, hm, hl⟩ := hi.probed p ((phase_step h hpp).symm.trans hp)
      exact ⟨m, List.mem_append_left _ hm, hl⟩
  · by_cases hpp : p = pid
    -- when the probe fails nobody holds the socket
    · subst hpp
      obtain ⟨rfl, hno⟩ := connect_of_remove h hp
      have hqp : q ≠ p := by
        rintro rfl
        rw [hp] at hq
        cases hq
      rw [phase_step h hqp] at hq
      simp [State.connects, hheld.path q hq, listens_of_holds hq] at hno
    · rw [phase_step h hpp] at hp
      by_cases hold : (s.phase q).holds = true
      · obtain ⟨tr₁, m, tr₂, rfl, hl, m', hm', hl'⟩ := hi.bound p hp q hold
        exact ⟨tr₁, m, tr₂ ++ [⟨s, (pid, call), s'⟩], by simp, hl, m', List.mem_append_left _ hm',
          hl'⟩
      -- the move binds the path
      · have hqp : q = pid := by
          by_contra hqp
          exact hold (phase_step h hqp ▸ hq)
        subst hqp
        rcases bind_of_holds h hq with rfl | hold'
        · obtain ⟨m, hm, hl⟩ := hi.probed p hp
          obtain ⟨tr₁, tr₂, rfl⟩ := List.append_of_mem hm
          exact ⟨tr₁, m, tr₂ ++ [⟨s, (q, .bind), s'⟩], by simp, hl, _,
            List.mem_append_right _ (List.mem_singleton.2 rfl), rfl⟩
        · exact absurd hold' hold

theorem Seen.init (h : Initial s) : Seen [] s := by
  have hno : ∀ p, s.phase p ≠ .remove := by
    rcases h with ⟨-, hp⟩ | ⟨p, -, hp, hrest⟩
    · simp [hp]
    · intro q
      by_cases hqp : q = p
      · simp [hqp, hp]
      · simp [hrest q hqp]
  exact ⟨fun p hp => absurd hp (hno p), fun p hp => absurd hp (hno p)⟩

/-- In an undisturbed run the `remove_file` of a bind takes the path from nobody. -/
theorem clean_of_undisturbed (hr : lts.Run s₀ tr s) (h₀ : Initial s₀) (hu : Undisturbed tr) :
    ∀ m ∈ tr, Clean m := by
  have h : Held s ∧ Seen tr s ∧ ∀ m ∈ tr, Clean m := by
    induction hr with
    | refl => exact ⟨.init h₀, .init h₀, by simp⟩
    | @tail tr s s' l hr hst ih =>
      obtain ⟨pid, call⟩ := l
      obtain ⟨hi, hseen, hc⟩ := ih fun tr₁ m₁ tr₂ m₂ tr₃ p htr =>
        hu tr₁ m₁ tr₂ m₂ (tr₃ ++ [⟨s, (pid, call), s'⟩]) p (by rw [htr]; simp)
      have hclean : Clean ⟨s, (pid, call), s'⟩ := by
        rintro p hl q
        obtain ⟨rfl, rfl⟩ : pid = p ∧ call = .removeFile := by simpa using hl
        by_contra hq
        have hp := phase_of_removeFile (step_cases hst)
        obtain ⟨tr₁, m, tr₂, rfl, hl₁, m', hm', hl'⟩ := hseen.bound pid hp q (by simpa using hq)
        exact hq (hu tr₁ m tr₂ _ [] pid (by simp) hl₁ rfl m' hm' q hl')
      refine ⟨hi.step (step_cases hst) hclean, hseen.step hi (step_cases hst), fun m hm => ?_⟩
      rcases List.mem_append.1 hm with hm | hm
      · exact hc m hm
      · obtain rfl := List.mem_singleton.1 hm
        exact hclean
  exact h.2.2

/-- **Two daemons steal each other's socket in one way only.**  In every run of any number of
processes that start with nothing at the path, a socket that was left behind or that of a daemon:
no process removes the socket of another one that still listens, and one at most serves, if and only
if nobody binds the path between the probe of a process and its `remove_file` and still holds it
then. -/
theorem safe_iff (hr : lts.Run s₀ tr s) (h₀ : Initial s₀) : Safe tr s ↔ Undisturbed tr := by
  constructor
  · rintro hs tr₁ m₁ tr₂ m₂ tr₃ p rfl - hl - - q -
    exact clean_of_safe hr h₀ hs m₂ (by simp) p hl q
  · exact fun hu => safe_of_clean hr h₀ (clean_of_undisturbed hr h₀ hu)

/-- The processes start with a file at the path, or with nothing. -/
def State.start (path : Option File) : State := ⟨path, fun _ => .bind⟩

/-- Two processes find the same stale socket. -/
def staleCalls : List (Pid × Call) :=
  [(0, .bind), (1, .bind), (0, .connect), (1, .connect), (0, .removeFile), (0, .bind),
    (0, .setPermissions), (1, .removeFile), (1, .bind), (1, .setPermissions)]

/-- The second process removes the socket that the first one has just bound, and both serve. -/
theorem not_safe_stale :
    ∃ s, Initial (.start (some .stale)) ∧ LTS.exec step (.start (some .stale)) staleCalls = some s ∧
      ¬ Safe (LTS.trace step (.start (some .stale)) staleCalls) s := by
  have h : ∃ s, LTS.exec step (.start (some .stale)) staleCalls = some s ∧ s.phase 0 = .serving ∧
      s.phase 1 = .serving := ⟨_, rfl, rfl, rfl⟩
  obtain ⟨s, h, h₀, h₁⟩ := h
  refine ⟨s, .inl ⟨.inr rfl, fun _ => rfl⟩, h, fun hs => ?_⟩
  have h01 := hs.single s (.inl rfl) 0 1 h₀ h₁
  cases h01

/-- A second daemon finds that the first one listens, which then shuts down. -/
def aliveCalls : List (Pid × Call) :=
  [(0, .bind), (0, .setPermissions), (1, .bind), (1, .connect), (0, .shutdown)]

/-- Nobody removes the path after a probe, so nobody is disturbed. -/
theorem safe_iff_alive :
    ∃ s, LTS.exec step (.start none) aliveCalls = some s ∧
      Safe (LTS.trace step (.start none) aliveCalls) s := by
  have h : ∃ s, LTS.exec step (.start none) aliveCalls = some s := ⟨_, rfl⟩
  obtain ⟨s, h⟩ := h
  refine ⟨s, h, (safe_iff (LTS.run_of_exec h) (.inl ⟨.inl rfl, fun _ => rfl⟩)).2 ?_⟩
  intro tr₁ m₁ tr₂ m₂ tr₃ p htr _ hl
  have hm : m₂ ∈ tr₁ ++ m₁ :: (tr₂ ++ m₂ :: tr₃) := by simp
  rw [← htr] at hm
  have hcall := LTS.lbl_mem_of_trace hm
  rw [hl] at hcall
  simp [aliveCalls] at hcall

end Security

end Gritty
