import Gritty.Server.ExitCode
import Gritty.Server.Turns
import Gritty.System.Understood

/-!
# A client and its session

When the first thing that a client reads on a connection is not a refusal, the daemon has led the
connection to one session task: the task that it started for the client, or the one whose session
answers to the target.  From then on the line is a line between the two: the task reads what the
client writes after its request, and the client what the task writes.

The last frame that a client reads is true as well.  An `Exit` carries the code of the shell of that
very task, and a `Detached` comes when the task has just taken the next client.

## Main definitions

* `Grants` : the daemon leads a request to a session task.
* `Joined` : a client and a task share a line, with what they read on it.

## Main results

* `grants_of_serve` : a request that is answered by no refusal is led to a task.
* `Talk.getLast?` : nothing follows a last frame.
* `adopted_of_sendDetached` : a client is detached when its task has taken the next one.
* `agreement` : a client that is not refused is joined with one task, in every run of the system.
-/

namespace Gritty

namespace Server

variable {s s' : State} {e : Event} {tr : List (Move State Event)} {c : Conn} {code : Int32}

theorem ended_of_exitFrame (h : Step s e s') (hf : (c, .exit code) ∈ framesOf ⟨s, e, s'⟩) :
    s'.phase = .ended .ok := by
  cases h with
  | @pongSent framed ok hp | @detachedSent framed newFramed ok hp =>
    cases ok <;> simp [framesOf, hp, Phase.send?] at hf
  | dataSent hp => simp [framesOf, hp, Phase.send?] at hf
  | exitSent => rfl
  | _ => cases hf

theorem ended_of_exitSent (hr : lts.Run .init tr s) (hf : (c, .exit code) ∈ s.sent) :
    s.phase = .ended .ok := by
  have h : ∀ c code, (c, .exit code) ∈ s.sent → s.phase = .ended .ok := by
    refine hr.reachable.invariant (I := fun s => ∀ c code, (c, .exit code) ∈ s.sent →
      s.phase = .ended .ok) (by simp [State.init]) ?_
    intro s e s' hi hst c code hf
    have h := step_cases hst
    rw [sent_step h] at hf
    rcases List.mem_append.1 hf with hf | hf
    · exact (ended_step h (hi c code hf)).1
    · exact ended_of_exitFrame h hf
  exact h c code hf

/-- A last frame that is read of what a client is sent is the end of it. -/
theorem Talk.getLast? {fs gs : List Frame} {f : Frame} (h : Talk fs) (hg : gs <+: fs) (hf : f ∈ gs)
    (hl : IsLast f) : gs.getLast? = some f := by
  have hno : ¬ IsRelayed f := by cases f <;> simp_all [IsLast, IsRelayed]
  obtain hall | ⟨hall, -⟩ := h
  · exact absurd (hall f (hg.subset hf)) hno
  · rcases List.prefix_concat_iff.1 hg with rfl | hg
    · rcases List.mem_append.1 hf with hf | hf
      · exact absurd (hall f hf) hno
      · rw [List.mem_singleton.1 hf, List.getLast?_concat]
    · exact absurd (hall f (hg.subset hf)) hno

theorem adopted_of_sendDetached {c' : Conn} (hr : lts.Run .init tr s)
    (hp : s.phase = .sendDetached c c') : [c, c'] <:+ adopted tr := by
  obtain ⟨clients, ha, -, hlast⟩ := inTurn_acts hr
  rw [hp] at ha hlast
  obtain ⟨before, rfl⟩ := List.getLast?_eq_some_iff.1 (hlast c rfl)
  exact ⟨before, by rw [ha]; simp [Phase.holds]⟩

end Server

namespace Daemon

open Server (Act)

/-- The daemon leads a request to the session task `k`: it starts the task, or the target answers to
its session, and the task takes clients. -/
inductive Grants (s : State) (k : TaskId) : Frame → Frame → Prop
  | created {name} : (name ≠ "" → ¬ Named s.sessions name) → s.issued.length = k →
      Grants s k (.newSession name) (.sessionCreated (toString (UInt32.ofNat k)))
  | attached {session id state} : Answers s.reap.sessions session id →
      s.reap.sessions.lookup id = some state → state.handle = k →
      (s.tasks k).isClosed = false → Grants s k (.attach session) .ok

variable {s s' : State} {e : Event} {tr : List (Move State Event)} {c : Conn} {k : TaskId}
  {frame reply : Frame} {next : Next}

theorem grants_of_serve (hi : TableInv s) (h : Serve s c frame s')
    (hc : s'.control = .replying c reply (.handOff k)) : Grants s k frame reply := by
  cases h with
  | created hn =>
    obtain ⟨-, rfl, hk⟩ := Control.replying.inj hc
    obtain rfl := Next.handOff.inj hk
    rw [hi.nextId]
    exact .created hn rfl
  | attached hr hl hcl =>
    obtain ⟨-, rfl, hk⟩ := Control.replying.inj hc
    obtain rfl := Next.handOff.inj hk
    have hdistinct := (hi.of_shrinks shrinks_reap).distinct
    exact .attached ((resolveSession_eq_some_iff hdistinct).1 hr) hl rfl hcl
  | _ => cases hc

/-- What was granted on a connection. -/
def Granted (tr : List (Move State Event)) (c : Conn) (k : TaskId) (frame reply : Frame) : Prop :=
  ∃ m ∈ tr, m.src.control = .reading c ∧ m.lbl = .request (some (.ok frame)) ∧
    Grants m.src k frame reply

theorem Granted.ne_exit {code : Int32} (h : Granted tr c k frame reply) : .exit code ≠ reply := by
  rintro rfl
  obtain ⟨m, -, -, -, hg⟩ := h
  cases hg

theorem Granted.ne_detached (h : Granted tr c k frame reply) : .detached ≠ reply := by
  rintro rfl
  obtain ⟨m, -, -, -, hg⟩ := h
  cases hg

theorem RepliesWith.granted (hr : lts.Run .init tr s)
    (h : RepliesWith tr c frame reply (.handOff k)) : Granted tr c k frame reply := by
  obtain ⟨m, hm, hc, hl, hrep⟩ := h
  obtain ⟨hst, tr₁, -, -, hr₁⟩ := hr.move hm
  rw [hl] at hst
  exact ⟨m, hm, hc, hl, grants_of_serve (.of_reachable ⟨tr₁, hr₁⟩) (serve_of_step hc hst) hrep⟩

theorem opens_of_accepts (h : Terminal.Accepts frame reply) : Opens frame reply := by
  cases h with
  | created => exact .inl ⟨_, _, rfl, rfl⟩
  | attached => exact .inr ⟨_, rfl, rfl⟩

/-- Nothing is written on a connection on which the reply got lost. -/
theorem framesWritten_of_lost {as : List Act} (hf : FailuresStick tr)
    (ha : actsOn c tr = .read frame :: .sent reply false :: as) : framesWritten c tr = [] := by
  have hlost := hf c
  rw [ha] at hlost
  rw [framesWritten, ha]
  have has : as.filterMap Act.written? = [] := List.filterMap_eq_nil_iff.2 fun a hm =>
    (List.pairwise_cons.1 (List.pairwise_cons.1 hlost).2).1 a hm reply rfl
  exact has

/-- A connection on which a request for a session was answered without an error is handed to a
task, which says the rest. -/
theorem handed_of_written (hr : lts.Run .init tr s) (hf : FailuresStick tr)
    (hw : (framesWritten c tr).head? = some reply) (hne : ∀ message, reply ≠ .error message)
    (hask : ∀ frame, (framesRead c tr).head? = some frame →
      (∃ name, frame = .newSession name) ∨ ∃ session, frame = .attach session) :
    ∃ frame k, (c, k) ∈ s.handOffs ∧ Granted tr c k frame reply ∧
      framesWritten c tr = reply :: (s.tasks k).server.sentTo c ∧
      framesRead c tr = frame :: (taskActsOn k c tr).filterMap Act.read? := by
  cases stage hr c with
  | early _ _ ha | due _ _ _ ha =>
    rw [framesWritten, ha] at hw
    cases hw
  | @closed frame' reply' next ok _ _ hrep hno ha =>
    cases ok with
    | false =>
      rw [framesWritten, ha] at hw
      cases hw
    | true =>
      rw [framesWritten, ha] at hw
      obtain rfl := Option.some.inj hw
      have hacc := (hrep.answer hr (hask _ (by rw [framesRead, ha]; rfl))).resolve_right
        (not_exists.2 hne)
      obtain ⟨k, hk⟩ := (hrep.spec hr).2.2 (opens_of_accepts hacc)
      exact absurd hk (hno k)
  | @handed frame' reply' k ok _ hh hrep ha =>
    cases ok with
    | false =>
      rw [framesWritten_of_lost hf ha] at hw
      cases hw
    | true =>
      have hw' : framesWritten c tr = reply' :: (s.tasks k).server.sentTo c := by
        rw [framesWritten, ha, ← written_taskActsOn hr]
        rfl
      rw [hw'] at hw
      obtain rfl := Option.some.inj hw
      exact ⟨frame', k, hh, hrep.granted hr, hw', by rw [framesRead, ha]; rfl⟩

theorem handedTo_le {tr₁ tr₂ : List (Move State Event)} {s₁ : State} (hr₁ : lts.Run .init tr₁ s₁)
    (hr : lts.Run .init (tr₁ ++ tr₂) s) (k : TaskId) : s₁.handedTo k <+: s.handedTo k := by
  rw [← handed_serverRun hr₁ k, ← handed_serverRun hr k, serverRun, serverRun, List.flatMap_append,
    Server.handed, Server.handed, List.flatMap_append]
  exact List.prefix_append _ _

theorem displaced_of_written (hr : lts.Run .init tr s) (hh : (c, k) ∈ s.handOffs)
    (hf : .detached ∈ framesWritten c tr) :
    ∃ c', [c, c'] <:+: Server.adopted (serverRun k tr) := by
  obtain ⟨a, ha, hfa⟩ := List.mem_filterMap.1 hf
  obtain ⟨m, hm, ham⟩ := List.mem_flatMap.1 (mem_entriesOf.1 ha)
  cases a with
  | read => cases hfa
  | sent f ok =>
    cases ok with
    | false => cases hfa
    | true =>
      obtain rfl := Option.some.inj hfa
      obtain ⟨k', c', -, hp, -, hsub⟩ := detached_by hr hm ham
      obtain ⟨-, tr₁, tr₂, rfl, hr₁⟩ := hr.move hm
      have hsub' := hsub.trans (handedTo_le hr₁ hr k').sublist
      have hc : (c, k') ∈ s.handOffs := mem_handedTo.1 (hsub'.subset List.mem_cons_self)
      obtain rfl := handOff_unique hr hc hh
      have htaken := Server.adopted_of_sendDetached (run_serverRun hr₁ k') hp
      refine ⟨c', htaken.isInfix.trans (List.IsPrefix.isInfix ?_)⟩
      rw [serverRun, serverRun, List.flatMap_append, Server.adopted, Server.adopted,
        List.flatMap_append]
      exact List.prefix_append _ _

end Daemon

namespace System

open FrameCodec
open Daemon (framesRead framesWritten taskActsOn)
open Server (Act)
open Terminal (Accepts Opens Options)

/-- The client `i` and the session task `k` share the line between the connections `c` and `d`. -/
structure Joined (i : ℕ) (c d : Conn) (k : Daemon.TaskId) (request reply : Frame)
    (tr : List (Move State Event)) (s : State) : Prop where
  /-- the daemon led the request to the task -/
  granted : Daemon.Granted (daemonRun tr) d k request reply
  handed : (d, k) ∈ s.daemon.handOffs
  /-- the task reads what the client writes after its request -/
  up : ∃ rest, (peerActsOn i c tr).filterMap Act.written? = request :: rest ∧
    (taskActsOn k d (daemonRun tr)).filterMap Act.read? <+: rest
  /-- the client reads what the task writes after the reply -/
  down : ∃ rest, (peerActsOn i c tr).filterMap Act.read? = reply :: rest ∧
    rest <+: (s.daemon.tasks k).server.sentTo d
  /-- an exit code that the client reads is that of the shell of the task, the last frame that it
  reads, and the task has ended -/
  exit : ∀ code, .read (.exit code) ∈ peerActsOn i c tr →
    ((peerActsOn i c tr).filterMap Act.read?).getLast? = some (.exit code) ∧
      (s.daemon.tasks k).server.phase = .ended .ok ∧
      ∃ status, (s.daemon.tasks k).server.child = .exited status ∧ code = status.exitCode
  /-- a client that reads that it is detached reads nothing after it, and the task has taken the
  next client right after this one -/
  detached : .read .detached ∈ peerActsOn i c tr →
    ((peerActsOn i c tr).filterMap Act.read?).getLast? = some .detached ∧
      ∃ d', [d, d'] <:+: Server.adopted (Daemon.serverRun k (daemonRun tr))

variable {starts : ℕ → Peer.Start} {s : State} {tr : List (Move State Event)} {i : ℕ}
  {c d : Conn} {o : Options} {reply : Frame}

/-- **Agreement.**  In every run of the system, when the first frame that a client whose request and
variables leave room reads on a connection is not a refusal, then the daemon has led its request to
one session task and has handed the connection to it, and the two share the line from then on.  An
exit code that the client reads is that of the shell of this task, and nothing is read after it; and
a client is detached by the client that the same task has taken next. -/
theorem agreement (hr : lts.Run (.init starts) tr s) (hs : starts i = .terminal o) (ho : Modest o)
    (hread : ((peerActsOn i c tr).filterMap Act.read?).head? = some reply)
    (hne : ∀ message, reply ≠ .error message) :
    ∃ op d k, Opens o c op ∧ s.dial i c = some d ∧ Joined i c d k op.request reply tr s := by
  obtain ⟨d, hd⟩ := dial_of_read hr (Server.mem_read.1 (List.mem_of_mem_head? hread))
  obtain ⟨hup, hdown⟩ := carried hr hs ho hd
  obtain ⟨op, hop, hdialogue⟩ := opened hr hs c
  have hfirst : ∀ frame, (framesRead d (daemonRun tr)).head? = some frame → frame = op.request :=
    fun frame hf => (request_first hdialogue (hup.head? hf)).1
  obtain ⟨frame, k, hh, hgrant, hw, hr'⟩ := Daemon.handed_of_written (daemon_run hr)
    (failuresStick hr) (hdown.head? hread) hne fun frame hf =>
      hfirst frame hf ▸ asksSession_of_opens hop
  obtain rfl : frame = op.request := hfirst frame (by rw [hr']; rfl)
  obtain ⟨pending, hpending⟩ := hup.isPrefix
  obtain ⟨heard, hheard, hpre⟩ : ∃ heard, (peerActsOn i c tr).filterMap Act.read? = reply :: heard ∧
      heard <+: (s.daemon.tasks k).server.sentTo d := by
    have hpre := hw ▸ hdown.isPrefix
    cases hg : (peerActsOn i c tr).filterMap Act.read? with
    | nil => simp [hg] at hread
    | cons g gs =>
      rw [hg] at hread hpre
      obtain rfl := Option.some.inj hread
      exact ⟨gs, rfl, (List.cons_prefix_cons.1 hpre).2⟩
  -- what is read after the reply was written by the task, and a last frame is the end of that
  have hlate : ∀ f, .read f ∈ peerActsOn i c tr → f ≠ reply → f ∈ heard := by
    intro f hf hne
    have hfr := Server.mem_read.2 hf
    rw [hheard] at hfr
    exact (List.mem_cons.1 hfr).resolve_left hne
  have hlast : ∀ f, f ∈ heard → Server.IsLast f →
      ((peerActsOn i c tr).filterMap Act.read?).getLast? = some f := by
    intro f hf hl
    have hend := (Daemon.conversation (daemon_run hr) k d).talk.getLast? hpre hf hl
    rw [hheard, List.getLast?_cons, hend]
    rfl
  have htask := Daemon.run_serverRun (daemon_run hr) k
  refine ⟨op, d, k, hop, hd, hgrant, hh, ⟨_, ?_, List.prefix_append _ pending⟩,
    ⟨heard, hheard, hpre⟩, fun code hcode => ?_, fun hdet => ?_⟩
  · rw [← hpending, hr', List.cons_append]
  · have hmem := hlate _ hcode hgrant.ne_exit
    have hsent := mem_entriesOf.1 (hpre.subset hmem)
    exact ⟨hlast _ hmem trivial, Server.ended_of_exitSent htask hsent,
      Server.status_of_announces htask.reachable (.inr ⟨d, hsent⟩)⟩
  · have hmem := hlate _ hdet hgrant.ne_detached
    refine ⟨hlast _ hmem trivial, Daemon.displaced_of_written (daemon_run hr) hh ?_⟩
    rw [hw]
    exact List.mem_cons_of_mem _ (hpre.subset hmem)

/-- The client is joined with its session until it exits. -/
theorem agreement_work :
    ∃ s op d k, LTS.exec step (.init workStarts) workEvents = some s ∧ Opens workOptions 0 op ∧
      s.dial 0 0 = some d ∧ Joined 0 0 d k op.request (.sessionCreated "0")
        (LTS.trace step (.init workStarts) workEvents) s := by
  have h : ∃ s, LTS.exec step (.init workStarts) workEvents = some s := ⟨_, rfl⟩
  obtain ⟨s, h⟩ := h
  have hread : ((peerActsOn 0 0 (LTS.trace step (.init workStarts) workEvents)).filterMap
      Act.read?).head? = some (.sessionCreated "0") := rfl
  obtain ⟨op, d, k, hop, hd, hj⟩ := agreement (LTS.run_of_exec h) rfl modest_work hread (by simp)
  exact ⟨s, op, d, k, h, hop, hd, hj⟩

end System

end Gritty
