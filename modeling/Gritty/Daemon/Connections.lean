import Gritty.Daemon.Table
import Gritty.LTS.History
import Mathlib.Data.List.Perm.Subperm

/-!
# Connections of the daemon

Every connection has its own number, and what the daemon does on a connection ends in its logs.
Everything in this module follows from what one move adds to them, without looking at the requests.

## Main definitions

* `Known` : no connection is mentioned before it is made.
* `State.owned` : the connections that the daemon has accepted or will accept.
* `answered` : the connections that were answered, in the order of a run.

## Main results

* `logs_step` : what one move adds to the logs.
* `Known.of_reachable` : nothing is known of the connections to come.
* `owned_step` : one move makes a connection, drops some, or answers one.
* `answered_nodup` : no connection is answered twice, and none that is answered is still owned.
-/

namespace Gritty

namespace Daemon

variable {s s' : State} {e : Event} {framed : Conn} {tr : List (Move State Event)}

/-- A request is answered on its own connection, and the logs wait for the reply to be sent. -/
theorem serve_logs {frame : Frame} (h : Serve s framed frame s') :
    (∃ reply next, s'.control = .replying framed reply next) ∧ s'.replies = s.replies ∧
      s'.handOffs = s.handOffs ∧ s'.backlog = s.backlog ∧ s'.connected = s.connected := by
  cases h <;> exact ⟨⟨_, _, rfl⟩, rfl, rfl, rfl, rfl⟩

/-- The hand-off that follows a reply. -/
def Next.handOffs (framed : Conn) : Next → List (Conn × TaskId)
  | .handOff handle => [(framed, handle)]
  | _ => []

theorem mem_handOffs {c : Conn} {next : Next} {k : TaskId} :
    (c, k) ∈ next.handOffs framed ↔ c = framed ∧ next = .handOff k := by
  cases next <;> simp [Next.handOffs, eq_comm]

theorem proceed_logs (next : Next) : (s.proceed framed next).replies = s.replies ∧
    (s.proceed framed next).handOffs = s.handOffs ++ next.handOffs framed ∧
    (s.proceed framed next).backlog = s.backlog ∧
    (s.proceed framed next).connected = s.connected ∧
    ∀ c reply next', (s.proceed framed next).control ≠ .replying c reply next' := by
  cases next <;> simp [State.proceed, Next.handOffs]

/-- **What one move adds to the logs.**  Either it sends a reply, with the hand-off that follows,
or it leaves the logs alone; then the reply that is due is the one that was due before or the answer
to the request that the move serves. -/
theorem logs_step (h : Step s e s') :
    (∃ framed reply next ok, s.control = .replying framed reply next ∧ e = .replied ok ∧
      s'.replies = (if ok then s.replies ++ [(framed, reply)] else s.replies) ∧
      s'.handOffs = s.handOffs ++ next.handOffs framed ∧
      ∀ c reply next, s'.control ≠ .replying c reply next) ∨
    (s'.replies = s.replies ∧ s'.handOffs = s.handOffs ∧
      ∀ c reply next, s'.control = .replying c reply next → s.control = .replying c reply next ∨
        ∃ frame, s.control = .reading c ∧ e = .request (some (.ok frame))) := by
  cases h with
  | task | finish | rehash | connect => exact .inr ⟨rfl, rfl, fun _ _ _ hc => .inl hc⟩
  | reap | accept | refuse | acceptErr | signal | noRequest =>
    exact .inr ⟨rfl, rfl, fun _ _ _ hc => by cases hc⟩
  | request hc hs =>
    obtain ⟨⟨reply, next, hr⟩, hrep, hho, -, -⟩ := serve_logs hs
    refine .inr ⟨hrep, hho, ?_⟩
    intro c reply' next' hc'
    rw [hr] at hc'
    cases hc'
    exact .inr ⟨_, hc, rfl⟩
  | @replied framed reply next ok hc =>
    obtain ⟨hrep, hho, -, -, hn⟩ := @proceed_logs
      { s with replies := if ok then s.replies ++ [(framed, reply)] else s.replies } framed next
    exact .inl ⟨framed, reply, next, ok, hc, rfl, hrep, hho, hn⟩

/-! ### Connections are made before they are used -/

/-- The connection that the control loop works on. -/
def Control.conn? : Control → Option Conn
  | .reading framed | .replying framed _ _ => some framed
  | _ => none

/-- Only connections that were made are mentioned. -/
structure Known (s : State) : Prop where
  backlog : ∀ c ∈ s.backlog, c < s.connected
  control : ∀ c, s.control.conn? = some c → c < s.connected
  replies : ∀ p ∈ s.replies, p.1 < s.connected
  handOffs : ∀ p ∈ s.handOffs, p.1 < s.connected

theorem Known.init : Known .init := by
  constructor <;> simp [State.init, Control.conn?]

theorem Known.step (hk : Known s) (h : Step s e s') : Known s' := by
  cases h with
  | task | finish | rehash => exact ⟨hk.backlog, hk.control, hk.replies, hk.handOffs⟩
  | connect =>
    refine ⟨?_, ?_, ?_, ?_⟩
    · intro c hc
      rcases List.mem_append.1 hc with hc | hc
      · exact Nat.lt_succ_of_lt (hk.backlog c hc)
      · obtain rfl := List.mem_singleton.1 hc
        exact Nat.lt_succ_self _
    · intro c hc
      exact Nat.lt_succ_of_lt (hk.control c hc)
    · intro p hp
      exact Nat.lt_succ_of_lt (hk.replies p hp)
    · intro p hp
      exact Nat.lt_succ_of_lt (hk.handOffs p hp)
  | reap | acceptErr | signal | noRequest =>
    exact ⟨hk.backlog, by simp [Control.conn?], hk.replies, hk.handOffs⟩
  | refuse _ hb =>
    exact ⟨fun c hc => hk.backlog c (by simp [hb, hc]), by simp [Control.conn?], hk.replies,
      hk.handOffs⟩
  | accept _ hb =>
    refine ⟨fun c hc => hk.backlog c (by simp [hb, hc]), ?_, hk.replies, hk.handOffs⟩
    rintro c ⟨⟩
    exact hk.backlog _ (by simp [hb])
  | request hc hs =>
    obtain ⟨⟨reply, next, hr⟩, hrep, hho, hb, hcon⟩ := serve_logs hs
    refine ⟨?_, ?_, ?_, ?_⟩
    · rw [hb, hcon]
      exact hk.backlog
    · rw [hr, hcon]
      rintro c ⟨⟩
      exact hk.control _ (by rw [hc]; rfl)
    · rw [hrep, hcon]
      exact hk.replies
    · rw [hho, hcon]
      exact hk.handOffs
  | @replied framed reply next ok hc =>
    have hf : framed < s.connected := hk.control framed (by rw [hc]; rfl)
    obtain ⟨hrep, hho, hb, hcon, hn⟩ := @proceed_logs
      { s with replies := if ok then s.replies ++ [(framed, reply)] else s.replies } framed next
    refine ⟨?_, ?_, ?_, ?_⟩
    · rw [hb, hcon]
      exact hk.backlog
    · cases next <;> simp [State.proceed, Control.conn?]
    · rw [hrep, hcon]
      intro p hp
      cases ok
      · exact hk.replies p hp
      · rcases List.mem_append.1 hp with hp | hp
        · exact hk.replies p hp
        · obtain rfl := List.mem_singleton.1 hp
          exact hf
    · rw [hho, hcon]
      intro p hp
      rcases List.mem_append.1 hp with hp | hp
      · exact hk.handOffs p hp
      · obtain ⟨hp, -⟩ := mem_handOffs.1 hp
        rw [hp]
        exact hf

theorem Known.of_reachable (h : lts.Reachable .init s) : Known s :=
  h.invariant .init fun _ _ _ hk hst => hk.step (step_cases hst)

/-! ### One answer for each connection -/

/-- The connections that the daemon still has to answer. -/
def State.owned (s : State) : List Conn := s.backlog ++ s.control.conn?.toList

/-- The connection that a move makes. -/
def madeOf (m : Move State Event) : List Conn :=
  match m.lbl with
  | .connect => [m.src.connected]
  | _ => []

/-- The connection whose reply a move ends. -/
def answeredOf (m : Move State Event) : List Conn :=
  match m.lbl with
  | .replied _ => m.src.control.conn?.toList
  | _ => []

/-- The connections answered, also those whose reply could not be sent. -/
def answered (tr : List (Move State Event)) : List Conn := tr.flatMap answeredOf

/-- **What one move does to the connections owned.**  It may make one, drop some, and answer one. -/
theorem owned_step (h : Step s e s') :
    (s'.owned ++ answeredOf ⟨s, e, s'⟩).Subperm (s.owned ++ madeOf ⟨s, e, s'⟩) ∧
      s'.connected = s.connected + (madeOf ⟨s, e, s'⟩).length := by
  cases h with
  | task | finish | rehash =>
    exact ⟨by simp [State.owned, answeredOf, madeOf, List.Subperm.refl], rfl⟩
  | connect =>
    refine ⟨List.Perm.subperm ?_, rfl⟩
    simp only [State.owned, answeredOf, madeOf, List.append_nil, List.append_assoc]
    exact List.perm_append_comm.append_left _
  | reap hc | signal hc | acceptErr hc | noRequest hc =>
    refine ⟨List.Sublist.subperm ?_, rfl⟩
    simp [State.owned, State.reap, State.shutdown, answeredOf, madeOf, Control.conn?]
  | accept hc hb =>
    refine ⟨List.Perm.subperm ?_, rfl⟩
    simp [State.owned, answeredOf, madeOf, Control.conn?, hc, hb]
  | refuse hc hb =>
    refine ⟨List.Sublist.subperm ?_, rfl⟩
    simp [State.owned, answeredOf, madeOf, Control.conn?, hc, hb]
  | request hc hs =>
    obtain ⟨⟨reply, next, hr⟩, -, -, hb, hcon⟩ := serve_logs hs
    simp [State.owned, answeredOf, madeOf, Control.conn?, hc, hr, hb, hcon, List.Subperm.refl]
  | @replied framed reply next ok hc =>
    cases next <;> simp [State.owned, State.proceed, answeredOf, madeOf, Control.conn?, hc,
      List.Subperm.refl]

/-- **No connection is answered twice**, and none that is answered is still owned. -/
theorem answered_nodup (hr : lts.Run .init tr s) : (s.owned ++ answered tr).Nodup ∧
    ∀ c ∈ s.owned ++ answered tr, c < s.connected := by
  induction hr with
  | refl => simp [State.owned, State.init, Control.conn?, answered]
  | @tail tr s s' e _ hst ih =>
    obtain ⟨hd, hk⟩ := ih
    obtain ⟨hsub, hcon⟩ := owned_step (step_cases hst)
    generalize hm : madeOf ⟨s, e, s'⟩ = made at hsub hcon
    have hall : (s'.owned ++ answered (tr ++ [⟨s, e, s'⟩])).Subperm
        (made ++ (s.owned ++ answered tr)) := by
      have ha : answered (tr ++ [⟨s, e, s'⟩]) = answered tr ++ answeredOf ⟨s, e, s'⟩ := by
        simp [answered]
      rw [ha, ← List.append_assoc made]
      refine List.Subperm.trans (List.Perm.subperm ?_)
        (List.Subperm.append (hsub.trans List.perm_append_comm.subperm) (.refl (answered tr)))
      rw [List.append_assoc]
      exact List.perm_append_comm.append_left _
    -- a connection that is made is a new one
    have hnew : made = [] ∨ made = [s.connected] := by
      rw [← hm]
      unfold madeOf
      split <;> simp
    refine ⟨?_, fun c hc => ?_⟩
    · obtain ⟨l, hp, hl⟩ := hall
      refine hp.nodup_iff.1 (List.Nodup.sublist hl ?_)
      rcases hnew with rfl | rfl
      · exact hd
      · exact List.nodup_cons.2 ⟨fun hc => absurd (hk _ hc) (Nat.lt_irrefl _), hd⟩
    · rw [hcon]
      rcases List.mem_append.1 (hall.subset hc) with hc | hc
      · rcases hnew with rfl | rfl
        · cases hc
        · obtain rfl := List.mem_singleton.1 hc
          exact Nat.lt_succ_self _
      · exact Nat.lt_add_right _ (hk c hc)

end Daemon

end Gritty
