import Gritty.System.Agreement
import Gritty.Terminal.Keys

/-!
# From the shell to the terminals, and back

A session outlives its clients: they take turns, and each has its part of the output and of the
input.  A terminal shows pieces of the output of shells, each where the parts of the earlier clients
of the same session end.  The shell gets a subsequence of what the escape processors of the clients
make of their input, in the order of their turns.

Here the laws of the parts meet: what a client writes to its terminal is what it reads, what it
reads is what the task wrote, and what the task wrote to its clients is what the shell wrote.

## Main results

* `frames_of_handed` : what passes on a connection that was handed to a task.
* `shown_le_sent` : a client shows the beginning of what the task sent to it.
* `read_le_written` : a task reads the beginning of what its client wrote.
* `output_shown` : the output, from the shells to a terminal.
* `input_typed` : the input, from the terminals to a shell.
-/

namespace Gritty

namespace Daemon

open Server (Act)

variable {s : State} {tr : List (Move State Event)} {c : Conn} {k : TaskId}

/-- What passes on a connection that was handed to a task: the request, the reply, and what the task
reads and writes. -/
theorem frames_of_handed (hr : lts.Run .init tr s) (hf : FailuresStick tr)
    (hh : (c, k) ∈ s.handOffs) :
    (∃ frame, framesRead c tr = frame :: (taskActsOn k c tr).filterMap Act.read?) ∧
      (framesWritten c tr = [] ∨
        ∃ reply, framesWritten c tr = reply :: (s.tasks k).server.sentTo c) := by
  cases stage hr c with
  | early hno | due hno => exact absurd hh (not_handed_of_not_answered hr hno)
  | closed _ hno => exact absurd (List.mem_map.2 ⟨_, hh, rfl⟩) hno
  | @handed frame reply k' ok _ hh' _ ha =>
    obtain rfl := handOff_unique hr hh' hh
    refine ⟨⟨frame, by rw [framesRead, ha]; rfl⟩, ?_⟩
    cases ok with
    | true =>
      refine .inr ⟨reply, ?_⟩
      rw [framesWritten, ha, ← written_taskActsOn hr]
      rfl
    | false => exact .inl (framesWritten_of_lost hf ha)

theorem handed_of_length (hr : lts.Run .init tr s) (h : 1 < (framesWritten c tr).length) :
    ∃ k, (c, k) ∈ s.handOffs := by
  cases stage hr c with
  | early _ _ ha | due _ _ _ ha =>
    rw [framesWritten, ha] at h
    exact absurd h (Nat.not_lt_zero 1)
  | @closed frame reply next ok _ _ _ _ ha =>
    rw [framesWritten, ha] at h
    cases ok with
    | false => exact absurd h (Nat.not_lt_zero 1)
    | true => exact absurd h (Nat.lt_irrefl 1)
  | handed _ hh => exact ⟨_, hh⟩

end Daemon

namespace Server

variable {s : State} {tr : List (Move State Event)} {c : Conn}

theorem mem_adopted_of_sent (hr : lts.Run .init tr s) (h : bytesIn (s.sentTo c) ≠ []) :
    c ∈ adopted tr := by
  rw [← sentData_eq, sentData_eq_filter] at h
  obtain ⟨b, hb⟩ := List.exists_mem_of_ne_nil _ h
  obtain ⟨p, hp, -⟩ := List.mem_flatMap.1 hb
  obtain ⟨hsent, hc⟩ := List.mem_filter.1 hp
  obtain rfl : p.1 = c := by simpa using hc
  exact (chunksSent_inTurn hr).mem_owners hsent

end Server

namespace System

open Daemon (framesRead framesWritten serverRun taskActsOn)
open Server (Act)
open Terminal (Options ctrlL loopFramesOn shown shownOn passed typed)

variable {starts : ℕ → Peer.Start} {s : State} {tr : List (Move State Event)} {i : ℕ}
  {c d : Conn} {k : Daemon.TaskId} {o : Options}

theorem readsOn_client (hr : lts.Run (.init starts) tr s) (hs : starts i = .terminal o) :
    Terminal.readsOn c (clientRun i tr) = (peerActsOn i c tr).filterMap Act.read? := by
  rw [peerActsOn_client hr hs]
  rfl

/-! ### Output -/

/-- What a client writes of a connection that was handed to a task is the beginning of what the task
sent there. -/
theorem shown_le_sent (hr : lts.Run (.init starts) tr s) (hs : starts i = .terminal o)
    (ho : Modest o) (hd : s.dial i c = some d) (hh : (d, k) ∈ s.daemon.handOffs) :
    shownOn c (clientRun i tr) <+: bytesIn ((s.daemon.tasks k).server.sentTo d) := by
  obtain ⟨t, -, hrun⟩ := client_run hr hs
  obtain ⟨-, hdown⟩ := carried hr hs ho hd
  obtain ⟨-, hw⟩ := Daemon.frames_of_handed (daemon_run hr) (failuresStick hr) hh
  have hpre := hdown.isPrefix
  rw [← readsOn_client hr hs] at hpre
  rw [Terminal.shownOn_eq]
  refine bytesIn_le ?_
  cases Terminal.heard hrun c with
  | nothing _ h => exact h ▸ List.nil_prefix
  | replied hreads =>
    rw [hreads] at hpre
    rcases hw with hw | ⟨reply, hw⟩
    · rw [hw] at hpre
      exact absurd (List.prefix_nil.1 hpre) (by simp)
    · rw [hw] at hpre
      exact (List.cons_prefix_cons.1 hpre).2

theorem handed_of_shown (hr : lts.Run (.init starts) tr s) (hs : starts i = .terminal o)
    (ho : Modest o) (h : shownOn c (clientRun i tr) ≠ []) :
    ∃ d k, s.dial i c = some d ∧ (d, k) ∈ s.daemon.handOffs := by
  obtain ⟨t, -, hrun⟩ := client_run hr hs
  rw [Terminal.shownOn_eq] at h
  cases Terminal.heard hrun c with
  | nothing _ hno => exact absurd (by rw [hno]; rfl) h
  | @replied reply hreads =>
    rw [readsOn_client hr hs] at hreads
    obtain ⟨d, hd⟩ := dial_of_read hr (Server.mem_read.1 (hreads ▸ List.mem_cons_self))
    obtain ⟨-, hdown⟩ := carried hr hs ho hd
    have hrelayed : 0 < (loopFramesOn c (clientRun i tr)).length :=
      List.length_pos_iff.2 fun hno => h (by rw [hno]; rfl)
    have hlen := hdown.isPrefix.length_le
    rw [hreads, List.length_cons] at hlen
    obtain ⟨k, hh⟩ := Daemon.handed_of_length (daemon_run hr) (c := d) (by omega)
    exact ⟨d, k, hd, hh⟩

/-- **Output.**  In every run of the system, the output that a client whose request and variables
leave room writes to its terminal is that of its connections, one after the other; and what it
writes of one of them is a piece of what the shell of one session wrote, which begins where the
parts of the earlier clients of the session end. -/
theorem output_shown (hr : lts.Run (.init starts) tr s) (hs : starts i = .terminal o)
    (ho : Modest o) :
    (∃ n, shown (clientRun i tr) = (List.range n).flatMap fun c => shownOn c (clientRun i tr)) ∧
      ∀ c, shownOn c (clientRun i tr) ≠ [] → ∃ d k earlier later, s.dial i c = some d ∧
        Server.adopted (serverRun k (daemonRun tr)) = earlier ++ d :: later ∧
        earlier.flatMap (fun d => bytesIn ((s.daemon.tasks k).server.sentTo d)) ++
          shownOn c (clientRun i tr) <+: Server.written (serverRun k (daemonRun tr)) := by
  obtain ⟨t, -, hrun⟩ := client_run hr hs
  refine ⟨⟨t.connections, Terminal.shown_eq hrun⟩, fun c hne => ?_⟩
  obtain ⟨d, k, hd, hh⟩ := handed_of_shown hr hs ho hne
  have hle := shown_le_sent hr hs ho hd hh
  have hserver := Daemon.run_serverRun (daemon_run hr) k
  have hsent : bytesIn ((s.daemon.tasks k).server.sentTo d) ≠ [] := fun hno =>
    hne (List.prefix_nil.1 (hno ▸ hle))
  obtain ⟨earlier, later, hadopted⟩ :=
    List.append_of_mem (Server.mem_adopted_of_sent hserver hsent)
  refine ⟨d, k, earlier, later, hd, hadopted, ?_⟩
  have hout := Server.output_by_turns hserver (Daemon.handed_serverRun_nodup (daemon_run hr) k)
  rw [hadopted, List.flatMap_append, List.flatMap_cons, ← List.append_assoc] at hout
  exact ((List.prefix_append_right_inj _).2 hle).trans ((List.prefix_append _ _).trans hout)

/-- The client shows the byte that the shell writes. -/
theorem output_shown_work :
    ∃ s n, LTS.exec step (.init workStarts) workEvents = some s ∧
      [0x24] = (List.range n).flatMap
        fun c => shownOn c (clientRun 0 (LTS.trace step (.init workStarts) workEvents)) := by
  have h : ∃ s, LTS.exec step (.init workStarts) workEvents = some s := ⟨_, rfl⟩
  obtain ⟨s, h⟩ := h
  obtain ⟨⟨n, hn⟩, -⟩ := output_shown (i := 0) (LTS.run_of_exec h) rfl modest_work
  exact ⟨s, n, h, hn⟩

/-! ### Input -/

theorem read_le_written (hr : lts.Run (.init starts) tr s) (hs : starts i = .terminal o)
    (ho : Modest o) (hd : s.dial i c = some d) (hh : (d, k) ∈ s.daemon.handOffs) :
    Server.readFrom d (serverRun k (daemonRun tr)) <+: Terminal.dataOn c (clientRun i tr) := by
  obtain ⟨hup, -⟩ := carried hr hs ho hd
  obtain ⟨op, hop, hdialogue⟩ := opened hr hs c
  obtain ⟨⟨frame, hread⟩, -⟩ := Daemon.frames_of_handed (daemon_run hr) (failuresStick hr) hh
  have hframe : frame = op.request :=
    (request_first hdialogue (hup.head? (by rw [hread]; rfl))).1
  have hno : frame.bytes = [] := by
    rcases asksSession_of_opens hop with ⟨_, h⟩ | ⟨_, h⟩ <;> rw [hframe, h] <;> rfl
  have hle := bytesIn_le hup.isPrefix
  rw [hread, bytesIn, List.flatMap_cons, hno, List.nil_append, peerActsOn_client hr hs] at hle
  exact hle

/-- **Input.**  In every run of the system, what the PTY of a session accepted is a subsequence of
what the session reads from its clients, one after the other in the order in which the session took
them.  From a client whose request and variables leave room, the session reads a Ctrl-L at most and
then the beginning of what the escape processor of the client makes of the input that it takes; and
it takes bytes out of what was typed, in order. -/
theorem input_typed (hr : lts.Run (.init starts) tr s) (k : Daemon.TaskId) :
    ∃ clients, clients <+: s.daemon.handedTo k ∧
      (s.daemon.tasks k).server.input.Sublist
        (clients.flatMap fun d => Server.readFrom d (serverRun k (daemonRun tr))) ∧
      ∀ d ∈ clients, ∀ i c o, starts i = .terminal o → Modest o → s.dial i c = some d →
        (∃ redraw, (redraw = [] ∨ redraw = [ctrlL]) ∧
          Server.readFrom d (serverRun k (daemonRun tr)) <+: redraw ++
            (entriesOf c (Terminal.filtered o.escape (passed (clientRun i tr)))).flatten) ∧
        ((passed (clientRun i tr)).flatMap Prod.snd).Sublist (typed (clientRun i tr)) := by
  have hserver := Daemon.run_serverRun (daemon_run hr) k
  obtain ⟨clients, hpre, hsub⟩ :=
    Server.input_by_turns hserver (Daemon.handed_serverRun_nodup (daemon_run hr) k)
  have hhanded : clients <+: s.daemon.handedTo k := by
    rw [← Daemon.handed_serverRun (daemon_run hr) k]
    exact hpre.trans ((List.prefix_append _ _).trans (Server.adopted_append_queue_le hserver).1)
  refine ⟨clients, hhanded, hsub, fun d hd i c o hs ho hdial => ?_⟩
  obtain ⟨t, -, hrun⟩ := client_run hr hs
  obtain ⟨redraw, hredraw, hle⟩ := Terminal.written_input hrun c
  have hread := read_le_written hr hs ho hdial (Daemon.mem_handedTo.1 (hhanded.subset hd))
  exact ⟨⟨redraw, hredraw, hread.trans hle⟩, Terminal.passed_sublist_typed hrun⟩

/-- The user types two bytes, of which the PTY takes one. -/
def typeEvents : List Event :=
  openEvents ++
    [.peer 0 (.terminal (.typed [0x6c, 0x73])) 0, .peer 0 (.terminal (.read 2)) 0,
      .peer 0 (.terminal (.sent true)) 0,
      .daemon (.task 0 (.next (some (.ok (.data [0x6c, 0x73]))))) 0,
      .daemon (.task 0 (.write (.accepted 1))) 0]

theorem input_typed_type :
    ∃ s clients, LTS.exec step (.init workStarts) typeEvents = some s ∧
      clients <+: s.daemon.handedTo 0 ∧
      [0x6c].Sublist (clients.flatMap fun d => Server.readFrom d
        (serverRun 0 (daemonRun (LTS.trace step (.init workStarts) typeEvents)))) := by
  have h : ∃ s, LTS.exec step (.init workStarts) typeEvents = some s ∧
      (s.daemon.tasks 0).server.input = [0x6c] := ⟨_, rfl, rfl⟩
  obtain ⟨s, h, hin⟩ := h
  obtain ⟨clients, hpre, hsub, -⟩ := input_typed (LTS.run_of_exec h) 0
  exact ⟨s, clients, h, hpre, hin ▸ hsub⟩

end System

end Gritty
