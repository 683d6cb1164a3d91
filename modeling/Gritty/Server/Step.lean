import Gritty.Server.Basic
import Mathlib.Tactic.Common

/-!
# The moves of the session task

`Step` lists what one step of the session task can be, one constructor for each branch of the
code.  The laws of the task are proved by cases on it, and none looks at `step` again.

Some of the moves are those of the world around the task: clients that connect, the shell that
writes and exits, the clock.  They are of no interest to most laws, which is what the frame rule is
for.

## Main results

* `onRead_cases`, `onWrite_cases`, `stepTask_cases` : the branches of the loop and of the task.
* `step_cases` : the list is complete.
* `world_frame` : the world neither moves the task nor touches what the task has done.
* `world_of_ended`, `not_ended_of_step` : once the task has ended only the world moves, and it does
  not come back.
-/

namespace Gritty

namespace Server

/-- The moves, branch by branch. -/
inductive Step (s : State) : Event → State → Prop
  | handOff {framed} : (∀ o, s.phase ≠ .ended o) → s.sendersDropped = false →
      Step s (.handOff framed) { s with queue := s.queue ++ [framed] }
  | handOffLost {framed o} : s.phase = .ended o → Step s (.handOff framed) s
  | dropSenders : Step s .dropSenders { s with sendersDropped := true }
  | abort : (∀ o, s.phase ≠ .ended o) → Step s .abort (s.finish .aborted)
  | tick {now} : Step s (.tick now) { s with now := now }
  | output {bytes} : s.child = .running → s.slaveOpen = true →
      Step s (.output bytes) { s with output := s.output ++ bytes }
  | hangup : s.slaveOpen = true → Step s .hangup { s with slaveOpen := false }
  | exit {status} : s.child = .running → Step s (.exit status) { s with child := .exited status }
  | openpty {path} : s.phase = .openpty →
      Step s (.openpty (some path)) { s with ptyPath := path, slaveFds := 3, phase := .recvFirst }
  | openptyErr : s.phase = .openpty → Step s (.openpty none) (s.finish (.err .openpty))
  | recvFirst {framed queue} : s.phase = .recvFirst → s.queue = framed :: queue →
      Step s .recv { s with queue := queue, framed := some framed, phase := .readEnv framed }
  | closedFirst : s.phase = .recvFirst → s.queue = [] → s.sendersDropped = true →
      Step s .recv (s.finish .ok)
  | firstFrame {framed r} : s.phase = .readEnv framed →
      Step s (.firstFrame r) { s with phase := .spawning framed (envVars r) }
  | spawn {framed vars pid} : s.phase = .spawning framed vars →
      Step s (.spawn (some pid)) (s.onSpawn framed vars pid)
  | spawnErr {framed vars} : s.phase = .spawning framed vars →
      Step s (.spawn none) (s.finish (.err .spawn))
  | adopt {framed queue} : s.phase = .waiting → s.queue = framed :: queue →
      Step s .recv
        { s.setAttached true with queue := queue, framed := some framed, phase := .relay framed }
  | closed : s.phase = .waiting → s.queue = [] → s.sendersDropped = true →
      Step s .recv (s.finish .ok)
  | exitIdle {status} : s.phase = .waiting → s.child = .exited status →
      Step s (.wait true) (s.finish .ok)
  | waitErr : (s.phase = .waiting ∨ ∃ framed, s.phase = .relay framed) →
      Step s (.wait false) (s.finish (.err .wait))
  | next {framed r} : s.phase = .relay framed → Step s (.next r) (s.onNext framed r)
  | read {framed n} : s.phase = .relay framed → 0 < n → n ≤ 4096 → n ≤ s.output.length →
      Step s (.read (.bytes n))
        { s with phase := .sendData framed (s.output.take n), output := s.output.drop n }
  | eof {framed r} : s.phase = .relay framed → r = .eof ∨ r = .eio → s.slaveClosed = true →
      Step s (.read r) (s.shellExited framed 0)
  | readBlock {framed} : s.phase = .relay framed → Step s (.read .wouldBlock) s
  | readErr {framed} : s.phase = .relay framed → Step s (.read .err) (s.finish (.err .pty))
  | takeover {framed newFramed queue} : s.phase = .relay framed → s.queue = newFramed :: queue →
      Step s .recv { s with queue := queue, phase := .sendDetached framed newFramed }
  | noTakeover {framed} : s.phase = .relay framed → s.queue = [] → s.sendersDropped = true →
      Step s .recv s
  | exitRelay {framed status} : s.phase = .relay framed → s.child = .exited status →
      Step s (.wait true) (s.shellExited framed (status.code?.getD 1))
  | write {framed data n} : s.phase = .writable framed data → n ≤ data.length →
      (data ≠ [] → 0 < n) →
      Step s (.write (.accepted n))
        { s with input := s.input ++ data.take n, phase := .relay framed }
  | writeBlock {framed data} : s.phase = .writable framed data →
      Step s (.write .wouldBlock) { s with phase := .relay framed }
  | writeErr {framed data} : s.phase = .writable framed data →
      Step s (.write .err) (s.finish (.err .pty))
  | pongSent {framed ok} : s.phase = .sendPong framed →
      Step s (.sent ok) { s.write framed .pong ok with phase := .relay framed }
  | dataSent {framed chunk} : s.phase = .sendData framed chunk →
      Step s (.sent true) { s.write framed (.data chunk) true with phase := .relay framed }
  | dataFailed {framed chunk} : s.phase = .sendData framed chunk →
      Step s (.sent false) (s.finish (.err .clientSend))
  | detachedSent {framed newFramed ok} : s.phase = .sendDetached framed newFramed →
      Step s (.sent ok)
        { s.write framed .detached ok with framed := some newFramed, phase := .relay newFramed }
  | exitSent {framed code ok} : s.phase = .sendExit framed code →
      Step s (.sent ok) ((s.write framed (.exit code) ok).finish .ok)

variable {s s' : State} {e : Event}

theorem recv_eq_some {k : Conn → List Conn → State} {closed : State}
    (h : (match s.queue with
      | framed :: queue => some (k framed queue)
      | [] => if s.sendersDropped then some closed else none) = some s') :
    (∃ framed queue, s.queue = framed :: queue ∧ s' = k framed queue) ∨
      (s.queue = [] ∧ s.sendersDropped = true ∧ s' = closed) := by
  split at h
  · next framed queue hq => exact .inl ⟨framed, queue, hq, (Option.some.inj h).symm⟩
  · next hq =>
    by_cases hd : s.sendersDropped = true
    · rw [if_pos hd] at h
      exact .inr ⟨hq, hd, (Option.some.inj h).symm⟩
    · rw [if_neg hd] at h
      cases h

theorem onWait_eq_some {k : ExitStatus → State} {ok : Bool} (h : s.onWait k ok = some s') :
    (ok = true ∧ ∃ status, s.child = .exited status ∧ s' = k status) ∨
      (ok = false ∧ s' = s.finish (.err .wait)) := by
  unfold State.onWait at h
  split at h
  · next hok =>
    split at h
    · next status hc => exact .inl ⟨hok, status, hc, (Option.some.inj h).symm⟩
    · cases h
  · next hok => exact .inr ⟨by simpa using hok, (Option.some.inj h).symm⟩

theorem onRead_cases {framed : Conn} {r : PtyRead} (hp : s.phase = .relay framed)
    (h : s.onRead framed r = some s') : Step s (.read r) s' := by
  unfold State.onRead at h
  split at h
  · next n =>
    by_cases hn : 0 < n ∧ n ≤ 4096 ∧ n ≤ s.output.length
    · rw [if_pos hn] at h
      obtain rfl := Option.some.inj h
      exact .read hp hn.1 hn.2.1 hn.2.2
    · rw [if_neg hn] at h
      cases h
  -- EOF and EIO both mean that nobody has the terminal open
  · by_cases hc : s.slaveClosed = true
    · rw [if_pos hc] at h
      obtain rfl := Option.some.inj h
      exact .eof hp (.inl rfl) hc
    · rw [if_neg hc] at h
      cases h
  · by_cases hc : s.slaveClosed = true
    · rw [if_pos hc] at h
      obtain rfl := Option.some.inj h
      exact .eof hp (.inr rfl) hc
    · rw [if_neg hc] at h
      cases h
  · obtain rfl := Option.some.inj h
    exact .readBlock hp
  · obtain rfl := Option.some.inj h
    exact .readErr hp

theorem onWrite_cases {framed : Conn} {data : List UInt8} {r : PtyWrite}
    (hp : s.phase = .writable framed data) (h : s.onWrite framed data r = some s') :
    Step s (.write r) s' := by
  unfold State.onWrite at h
  split at h
  · next n =>
    by_cases hn : n ≤ data.length ∧ (data ≠ [] → 0 < n)
    · rw [if_pos hn] at h
      obtain rfl := Option.some.inj h
      exact .write hp hn.1 hn.2
    · rw [if_neg hn] at h
      cases h
  · obtain rfl := Option.some.inj h
    exact .writeBlock hp
  · obtain rfl := Option.some.inj h
    exact .writeErr hp

theorem stepTask_cases {p : Phase} (hp : s.phase = p) (h : stepTask s p e = some s') :
    Step s e s' := by
  unfold stepTask at h
  split at h
  -- before the shell is spawned
  · obtain rfl := Option.some.inj h
    exact .openpty hp
  · obtain rfl := Option.some.inj h
    exact .openptyErr hp
  · rcases recv_eq_some h with ⟨framed, queue, hq, rfl⟩ | ⟨hq, hd, rfl⟩
    · exact .recvFirst hp hq
    · exact .closedFirst hp hq hd
  · obtain rfl := Option.some.inj h
    exact .firstFrame hp
  · obtain rfl := Option.some.inj h
    exact .spawn hp
  · obtain rfl := Option.some.inj h
    exact .spawnErr hp
  -- the outer `select!`
  · rcases recv_eq_some h with ⟨framed, queue, hq, rfl⟩ | ⟨hq, hd, rfl⟩
    · exact .adopt hp hq
    · exact .closed hp hq hd
  · rcases onWait_eq_some h with ⟨rfl, status, hc, rfl⟩ | ⟨rfl, rfl⟩
    · exact .exitIdle hp hc
    · exact .waitErr (.inl hp)
  -- the inner `select!`
  · obtain rfl := Option.some.inj h
    exact .next hp
  · exact onRead_cases hp h
  · rcases recv_eq_some h with ⟨framed, queue, hq, rfl⟩ | ⟨hq, hd, rfl⟩
    · exact .takeover hp hq
    · exact .noTakeover hp hq hd
  · rcases onWait_eq_some h with ⟨rfl, status, hc, rfl⟩ | ⟨rfl, rfl⟩
    · exact .exitRelay hp hc
    · exact .waitErr (.inr ⟨_, hp⟩)
  -- the pending operations of a branch that was taken
  · exact onWrite_cases hp h
  · obtain rfl := Option.some.inj h
    exact .pongSent hp
  · next ok =>
    cases ok
    · obtain rfl := Option.some.inj h
      exact .dataFailed hp
    · obtain rfl := Option.some.inj h
      exact .dataSent hp
  · obtain rfl := Option.some.inj h
    exact .detachedSent hp
  · obtain rfl := Option.some.inj h
    exact .exitSent hp
  · cases h

/-- **Every step is one of the listed moves.** -/
theorem step_cases (h : lts.step s e s') : Step s e s' := by
  change step s e = some s' at h
  unfold step at h
  split at h
  -- a push to the channel: the task may have dropped the receiver
  · next framed =>
    by_cases hd : s.sendersDropped = true
    · rw [if_pos hd] at h
      cases h
    · rw [if_neg hd] at h
      split at h
      · next hp =>
        obtain rfl := Option.some.inj h
        exact .handOffLost hp
      · next hp =>
        obtain rfl := Option.some.inj h
        exact .handOff hp (by simpa using hd)
  · obtain rfl := Option.some.inj h
    exact .dropSenders
  · split at h
    · cases h
    · next hp =>
      obtain rfl := Option.some.inj h
      exact .abort hp
  · obtain rfl := Option.some.inj h
    exact .tick
  -- the shell writes, closes its terminal, exits
  · next bytes =>
    by_cases hc : s.child = .running ∧ s.slaveOpen = true
    · rw [if_pos hc] at h
      obtain rfl := Option.some.inj h
      exact .output hc.1 hc.2
    · rw [if_neg hc] at h
      cases h
  · by_cases hc : s.slaveOpen = true
    · rw [if_pos hc] at h
      obtain rfl := Option.some.inj h
      exact .hangup hc
    · rw [if_neg hc] at h
      cases h
  · next status =>
    by_cases hc : s.child = .running
    · rw [if_pos hc] at h
      obtain rfl := Option.some.inj h
      exact .exit hc
    · rw [if_neg hc] at h
      cases h
  -- the events that the task itself handles
  all_goals exact stepTask_cases rfl h

/-! ### The world around the task -/

/-- What the daemon does at the channel, the clock, and the shell. -/
def Event.World : Event → Prop
  | .handOff _ | .dropSenders | .tick _ | .output _ | .hangup | .exit _ => True
  | _ => False

/-- **The frame rule.**  The world neither moves the task nor touches what the task has done. -/
theorem world_frame (h : Step s e s') (he : e.World) :
    s'.phase = s.phase ∧ s'.metadata = s.metadata ∧ s'.input = s.input ∧ s'.sent = s.sent ∧
      s'.hup = s.hup := by
  cases h with
  | handOff | handOffLost | dropSenders | tick | output | hangup | exit =>
    exact ⟨rfl, rfl, rfl, rfl, rfl⟩
  | _ => exact absurd he not_false

/-- Once the task has ended, only the world moves. -/
theorem world_of_ended (h : Step s e s') {o : Outcome} (hs : s.phase = .ended o) : e.World := by
  cases h with
  | handOff | handOffLost | dropSenders | tick | output | hangup | exit => trivial
  | abort hp => exact absurd hs (hp o)
  | _ => simp_all

theorem ended_step (h : Step s e s') {o : Outcome} (hs : s.phase = .ended o) :
    s'.phase = .ended o ∧ s'.sent = s.sent := by
  obtain ⟨hp, -, -, hsent, -⟩ := world_frame h (world_of_ended h hs)
  exact ⟨hp.trans hs, hsent⟩

/-- A task that ended does not come back. -/
theorem not_ended_of_step (h : Step s e s') (hs' : ∀ o, s'.phase ≠ .ended o) :
    ∀ o, s.phase ≠ .ended o := by
  intro o ho
  exact hs' o (ended_step h ho).1

end Server

end Gritty
