import Gritty.Server.Conversation

/-!
# The one-shot commands

`list_sessions`, `kill_session` and `kill_server` send one control frame on a connection of their
own, wait for the reply and return.  `Phase` lists the points where such a command waits, and `step`
is what the code does with what it finds there.

A command does not know what the daemon has done with its request, or whether it did anything.  All
it has is the reply, and what it returns with is what `Command.conclude` makes of the reply.

## Main definitions

* `Command.request` : the frame that a command sends.
* `expectFrom` : the first frame of the daemon, or how waiting for it fails.
* `Command.conclude` : what a command returns with on a reply.

## Main results

* `step_cases` : the moves of a command.
* `spoke` : a command asks once, and its result is what it makes of the reply.
-/

namespace Gritty

namespace Oneshot

open Server (Act NextFrame ReadError)

/-- The commands that ask the daemon one thing. -/
inductive Command where
  | listSessions
  | killSession (target : String)
  | killServer

/-- The control frame of a command. -/
def Command.request : Command → Frame
  | .listSessions => .listSessions
  | .killSession target => .killSession target
  | .killServer => .killServer

/-- The errors that a command returns. -/
inductive Failure where
  /-- "no daemon running" -/
  | noDaemon
  | send
  /-- "daemon protocol error" -/
  | protocol (e : ReadError)
  /-- "daemon closed connection" -/
  | closed
  /-- the message of an `Error` frame -/
  | message (message : String)
  /-- "unexpected response from daemon" -/
  | unexpected (reply : Frame)

/-- What a command reports when it succeeds. -/
inductive Success where
  | listed (sessions : List SessionEntry)
  | sessionKilled (target : String)
  | serverKilled

/-- `Frame::expect_from` -/
def expectFrom : NextFrame → Except Failure Frame
  | some (.ok frame) => .ok frame
  | some (.error e) => .error (.protocol e)
  | none => .error .closed

/-- The `match` on the reply: what there is to report, before it is printed. -/
def Command.conclude : Command → Frame → Except Failure Success
  | .listSessions, .sessionInfo sessions => .ok (.listed sessions)
  | .killSession target, .ok => .ok (.sessionKilled target)
  | .killServer, .ok => .ok .serverKilled
  | .killSession _, .error message => .error (.message message)
  | .killServer, .error message => .error (.message message)
  | _, reply => .error (.unexpected reply)

/-- Where the command is. -/
inductive Phase where
  /-- `UnixStream::connect` -/
  | connecting
  /-- `framed.send` -/
  | requesting (framed : Conn)
  /-- `framed.next` -/
  | awaiting (framed : Conn)
  | returned (result : Except Failure Success)
  /-- the process was killed -/
  | killed

/-- A command on its way. -/
structure State where
  command : Command
  phase : Phase
  /-- how many connections were made -/
  connections : ℕ

/-- How the operation that the command waits for ends, or that its process is killed. -/
inductive Event where
  | connect (ok : Bool)
  | sent (ok : Bool)
  | next (r : NextFrame)
  | kill

/-- The command is started. -/
def State.init (command : Command) : State := ⟨command, .connecting, 0⟩

/-- The command returns. -/
def State.finish (s : State) (result : Except Failure Success) : State :=
  { s with phase := .returned result }

/-- What the command does then. -/
def step (s : State) : Event → Option State
  | .connect ok =>
    match s.phase with
    | .connecting =>
      some (if ok then
        { s with phase := .requesting s.connections, connections := s.connections + 1 }
      else s.finish (.error .noDaemon))
    | _ => none
  | .sent ok =>
    match s.phase with
    | .requesting framed =>
      some (if ok then { s with phase := .awaiting framed } else s.finish (.error .send))
    | _ => none
  | .next r =>
    match s.phase with
    | .awaiting _ => some (s.finish ((expectFrom r).bind s.command.conclude))
    | _ => none
  | .kill =>
    match s.phase with
    | .returned _ | .killed => none
    | _ => some { s with phase := .killed }

/-- A one-shot command as a transition system. -/
def lts : LTS State Event := .ofFun step

/-! ### What a command does on its connection -/

/-- What a move does on a connection. -/
def actsOf (m : Move State Event) : List (Conn × Act) :=
  match m.src.phase, m.lbl with
  | .requesting framed, .sent ok => [(framed, .sent m.src.command.request ok)]
  | .awaiting framed, .next (some (.ok f)) => [(framed, .read f)]
  | _, _ => []

/-- What the command did on its connection, in order. -/
def acts (tr : List (Move State Event)) : List (Conn × Act) := tr.flatMap actsOf

/-- The moves, branch by branch. -/
inductive Step (s : State) : Event → State → Prop
  | connected : s.phase = .connecting →
      Step s (.connect true)
        { s with phase := .requesting s.connections, connections := s.connections + 1 }
  | noDaemon : s.phase = .connecting → Step s (.connect false) (s.finish (.error .noDaemon))
  | requested {framed} : s.phase = .requesting framed →
      Step s (.sent true) { s with phase := .awaiting framed }
  | requestFailed {framed} : s.phase = .requesting framed →
      Step s (.sent false) (s.finish (.error .send))
  | replied {framed reply} : s.phase = .awaiting framed →
      Step s (.next (some (.ok reply))) (s.finish (s.command.conclude reply))
  | notReplied {framed r failure} : s.phase = .awaiting framed → (∀ f, r ≠ some (.ok f)) →
      expectFrom r = .error failure → Step s (.next r) (s.finish (.error failure))
  | killed : (∀ r, s.phase ≠ .returned r) → s.phase ≠ .killed →
      Step s .kill { s with phase := .killed }

variable {s s' : State} {e : Event} {tr : List (Move State Event)} {command : Command}

theorem step_next {framed : Conn} {r : NextFrame} (hp : s.phase = .awaiting framed) :
    Step s (.next r) (s.finish ((expectFrom r).bind s.command.conclude)) := by
  rcases r with _ | e | reply
  · exact .notReplied hp (by simp) rfl
  · exact .notReplied hp (by simp) rfl
  · exact .replied hp

theorem step_cases (h : lts.step s e s') : Step s e s' := by
  change step s e = some s' at h
  cases e with
  | connect ok =>
    cases hp : s.phase <;> simp only [step, hp, reduceCtorEq, Option.some.injEq] at h
    subst h
    cases ok
    · exact .noDaemon hp
    · exact .connected hp
  | sent ok =>
    cases hp : s.phase <;> simp only [step, hp, reduceCtorEq, Option.some.injEq] at h
    subst h
    cases ok
    · exact .requestFailed hp
    · exact .requested hp
  | next r =>
    cases hp : s.phase <;> simp only [step, hp, reduceCtorEq, Option.some.injEq] at h
    subst h
    exact step_next hp
  | kill =>
    cases hp : s.phase <;> simp only [step, hp, reduceCtorEq, Option.some.injEq] at h <;>
      (subst h; exact .killed (by simp [hp]) (by simp [hp]))

/-- What a command did on its connection, and where it is then. -/
inductive Spoke (command : Command) (as : List (Conn × Act)) : Phase → ℕ → Prop
  | connecting : as = [] → Spoke command as .connecting 0
  | requesting : as = [] → Spoke command as (.requesting 0) 1
  | awaiting : as = [(0, .sent command.request true)] → Spoke command as (.awaiting 0) 1
  | failed {failure n} : (as = [] ∨ ∃ ok, as = [(0, .sent command.request ok)]) →
      Spoke command as (.returned (.error failure)) n
  | answered {reply} : as = [(0, .sent command.request true), (0, .read reply)] →
      Spoke command as (.returned (command.conclude reply)) 1
  | killed {n} : (as = [] ∨ as = [(0, .sent command.request true)]) → Spoke command as .killed n

/-- What a command does is to send its request and to read the reply that it returns on. -/
theorem Spoke.mem {as : List (Conn × Act)} {phase : Phase} {n : ℕ} {p : Conn × Act}
    (h : Spoke command as phase n) (hp : p ∈ as) :
    p.1 = 0 ∧ ((∃ ok, p.2 = .sent command.request ok) ∨
      ∃ reply, p.2 = .read reply ∧ phase = .returned (command.conclude reply) ∧
        as = [(0, .sent command.request true), (0, .read reply)]) := by
  have hsent : ∀ {ok}, p ∈ [((0 : Conn), Act.sent command.request ok)] →
      p.1 = 0 ∧ ∃ ok, p.2 = .sent command.request ok := by
    intro ok hp
    obtain rfl := List.mem_singleton.1 hp
    exact ⟨rfl, ok, rfl⟩
  cases h with
  | connecting ha | requesting ha => simp [ha] at hp
  | awaiting ha => exact (hsent (ha ▸ hp)).imp_right .inl
  | failed ha =>
    rcases ha with ha | ⟨ok, ha⟩
    · simp [ha] at hp
    · exact (hsent (ha ▸ hp)).imp_right .inl
  | @answered reply ha =>
    rw [ha] at hp
    rcases List.mem_cons.1 hp with rfl | hp
    · exact ⟨rfl, .inl ⟨true, rfl⟩⟩
    · obtain rfl := List.mem_singleton.1 hp
      exact ⟨rfl, .inr ⟨reply, rfl, rfl, ha⟩⟩
  | killed ha =>
    rcases ha with ha | ha
    · simp [ha] at hp
    · exact (hsent (ha ▸ hp)).imp_right .inl

/-- A move does one thing at most, on the connection in use. -/
theorem actsOf_cases (m : Move State Event) : actsOf m = [] ∨ ∃ framed a,
    actsOf m = [(framed, a)] ∧
      (m.src.phase = .requesting framed ∨ m.src.phase = .awaiting framed) := by
  unfold actsOf
  split
  · next hp _ => exact .inr ⟨_, _, rfl, .inl hp⟩
  · next hp _ => exact .inr ⟨_, _, rfl, .inr hp⟩
  · exact .inl rfl

theorem acts_append_single (m : Move State Event) : acts (tr ++ [m]) = acts tr ++ actsOf m := by
  simp [acts]

/-- **A command asks once, and its result is what it makes of the reply.** -/
theorem spoke (hr : lts.Run (.init command) tr s) :
    s.command = command ∧ Spoke command (acts tr) s.phase s.connections := by
  induction hr with
  | refl => exact ⟨rfl, .connecting rfl⟩
  | @tail tr s s' e _ hst ih =>
    obtain ⟨command', phase, n⟩ := s
    obtain ⟨rfl, hs⟩ := ih
    change Spoke command' (acts tr) phase n at hs
    refine ⟨by cases step_cases hst <;> rfl, ?_⟩
    rw [acts_append_single]
    cases step_cases hst with
    | connected hp =>
      obtain rfl : phase = _ := hp
      cases hs with
      | connecting ha => exact .requesting (by simp [ha, actsOf])
    | noDaemon hp =>
      obtain rfl : phase = _ := hp
      cases hs with
      | connecting ha => exact .failed (.inl (by simp [ha, actsOf]))
    | requested hp =>
      obtain rfl : phase = _ := hp
      cases hs with
      | requesting ha => exact .awaiting (by simp [ha, actsOf])
    | requestFailed hp =>
      obtain rfl : phase = _ := hp
      cases hs with
      | requesting ha => exact .failed (.inr ⟨false, by simp [ha, actsOf]⟩)
    | replied hp =>
      obtain rfl : phase = _ := hp
      cases hs with
      | awaiting ha => exact .answered (by simp [ha, actsOf])
    | @notReplied framed r failure hp hr =>
      obtain rfl : phase = _ := hp
      have hno : actsOf ⟨⟨command', .awaiting framed, n⟩, .next r,
          State.finish ⟨command', .awaiting framed, n⟩ (.error failure)⟩ = [] := by
        rcases r with _ | e | f
        · rfl
        · rfl
        · exact absurd rfl (hr f)
      rw [hno, List.append_nil]
      cases hs with
      | awaiting ha => exact .failed (.inr ⟨true, ha⟩)
    | killed hr hk =>
      have hno : actsOf ⟨⟨command', phase, n⟩, .kill, ⟨command', .killed, n⟩⟩ = [] := by
        cases phase <;> rfl
      rw [hno, List.append_nil]
      refine .killed ?_
      cases hs with
      | connecting ha | requesting ha => exact .inl ha
      | awaiting ha => exact .inr ha
      | failed | answered => exact absurd rfl (hr _)
      | killed => exact absurd rfl hk

end Oneshot

end Gritty
