import Gritty.Server.Conversation
import Gritty.Server.Input
import Gritty.Server.Takeover

/-!
# Input and output, client by client

The task serves its clients in turns, and what the shell reads and writes is cut into the parts of
the clients.  The output is cut without loss, but for its end.  Of the input a part may get lost
where the PTY takes less than a payload, but nothing is added to it and its order is kept.

## Main definitions

* `bytesIn` : the bytes in the `Data` frames of a list.
* `readFrom` : what a run read from one connection.

## Main results

* `sentData_eq` : the bytes sent to a client are those in the frames that it was sent.
* `received_sublist` : the input is taken from what the task read, in order.
* `output_by_turns` : what the clients are sent, one after the other, is what the shell wrote, up to
  some point.
* `input_by_turns` : what the PTY accepted is a subsequence of what the task read from its clients,
  one after the other.
-/

namespace Gritty

/-- The bytes of a `Data` frame. -/
def Frame.bytes : Frame → List UInt8
  | .data payload => payload
  | .resize _ _ | .exit _ | .detached | .ping | .pong | .env _ | .newSession _ | .attach _
  | .listSessions | .killSession _ | .killServer | .sessionCreated _ | .sessionInfo _ | .ok
  | .error _ => []

/-- The bytes in the `Data` frames of a stream. -/
def bytesIn (frames : List Frame) : List UInt8 := frames.flatMap Frame.bytes

theorem bytesIn_append (fs gs : List Frame) : bytesIn (fs ++ gs) = bytesIn fs ++ bytesIn gs :=
  List.flatMap_append

theorem bytesIn_le {fs gs : List Frame} (h : fs <+: gs) : bytesIn fs <+: bytesIn gs := by
  obtain ⟨rest, rfl⟩ := h
  exact ⟨bytesIn rest, (bytesIn_append _ _).symm⟩

namespace Server

variable {s s' : State} {e : Event} {tr : List (Move State Event)}

theorem mem_read {f : Frame} {as : List Act} : f ∈ as.filterMap Act.read? ↔ .read f ∈ as := by
  rw [List.mem_filterMap]
  constructor
  · rintro ⟨a, ha, hf⟩
    cases a with
    | read g => exact Option.some.inj hf ▸ ha
    | sent => cases hf
  · exact fun h => ⟨_, h, rfl⟩

/-- The bytes that a task reads from a client. -/
def readFrom (c : Conn) (tr : List (Move State Event)) : List UInt8 :=
  bytesIn ((entriesOf c (acts tr)).filterMap Act.read?)

/-! ### Output -/

theorem sentData_eq (c : Conn) : s.sentData c = bytesIn (s.sentTo c) := by
  unfold State.sentData State.sentTo bytesIn
  induction s.sent with
  | nil => rfl
  | cons p sent ih =>
    obtain ⟨framed, f⟩ := p
    rw [List.flatMap_cons, ih]
    by_cases hc : framed = c
    · subst hc
      cases f <;> simp [dataTo, Frame.bytes]
    · cases f <;> simp [dataTo, hc]

/-- What the clients are sent, one after the other, is what the shell wrote, up to some point. -/
theorem output_by_turns (hr : lts.Run .init tr s) (hd : (handed tr).Nodup) :
    (adopted tr).flatMap (fun c => bytesIn (s.sentTo c)) <+: written tr := by
  have hcat : (adopted tr).flatMap s.sentData = s.chunksSent.flatMap Prod.snd := by
    rw [← (chunksSent_inTurn hr).flatMap_filter (adopted_nodup hr hd), List.flatMap_assoc]
    exact List.flatMap_congr fun c _ => sentData_eq_filter c
  have hsent : (adopted tr).flatMap (fun c => bytesIn (s.sentTo c)) =
      (adopted tr).flatMap s.sentData := List.flatMap_congr fun c _ => (sentData_eq c).symm
  rw [hsent, hcat, written_eq_read hr, chunksRead_eq hr, List.append_assoc, List.flatMap_append,
    List.append_assoc]
  exact List.prefix_append _ _

/-! ### Input -/

theorem offerOf_of_ended (h : Step s e s') {o : Outcome} (hs' : s'.phase = .ended o) :
    offerOf ⟨s, e, s'⟩ = none := by
  cases h with
  | write hp => cases hs'
  | writeBlock hp => cases hs'
  | writeErr hp => simp [offerOf, hp]
  | _ => simp [offerOf]

theorem offered_le_received (hr : lts.Run .init tr s) :
    Offer.offered (offers tr) <+: received tr := by
  induction hr with
  | refl => exact List.prefix_refl _
  | @tail tr s s' e hr hst ih =>
    have h := step_cases hst
    by_cases hend : ∃ o, s'.phase = .ended o
    · obtain ⟨o, ho⟩ := hend
      rw [offers_append_single, offerOf_of_ended h ho, received_append_single]
      simpa using ih.trans (List.prefix_append _ _)
    · rw [received_eq_offered_append_owed (hr.tail hst) fun o ho => hend ⟨o, ho⟩]
      exact List.prefix_append _ _

theorem receivedOf_sublist (m : Move State Event) :
    (receivedOf m).Sublist (bytesIn ((actsOf m).filterMap fun p => p.2.read?)) := by
  unfold receivedOf
  split
  · next framed data hp hl =>
    have ha : actsOf m = [(framed, .read (.data data))] := by rw [actsOf, hp, hl]
    rw [ha]
    simp [Act.read?, bytesIn, Frame.bytes]
  · exact List.nil_sublist _

theorem received_sublist (tr : List (Move State Event)) :
    (received tr).Sublist (bytesIn ((acts tr).filterMap fun p => p.2.read?)) := by
  induction tr with
  | nil => exact .refl _
  | cons m tr ih =>
    have hacts : acts (m :: tr) = actsOf m ++ acts tr := rfl
    rw [hacts, List.filterMap_append, bytesIn_append]
    exact (receivedOf_sublist m).append ih

theorem bytesIn_of_inTurn {clients : List Conn} {log : List (Conn × Act)} (h : InTurn clients log)
    (hn : clients.Nodup) : bytesIn (log.filterMap fun p => p.2.read?) =
      clients.flatMap fun c => bytesIn ((entriesOf c log).filterMap Act.read?) := by
  nth_rewrite 1 [← h.flatMap_filter hn]
  rw [List.filterMap_flatMap, bytesIn, List.flatMap_assoc]
  refine List.flatMap_congr fun c _ => ?_
  rw [entriesOf, List.filterMap_map, bytesIn]
  rfl

/-- **The input, client by client.**  What the PTY accepted is a subsequence of what the task read
from its clients, one after the other. -/
theorem input_by_turns (hr : lts.Run .init tr s) (hd : (handed tr).Nodup) :
    ∃ clients, clients <+: adopted tr ∧
      s.input.Sublist (clients.flatMap fun c => readFrom c tr) := by
  obtain ⟨clients, ha, ht, -⟩ := inTurn_acts hr
  have hpre : clients <+: adopted tr := ⟨_, ha.symm⟩
  refine ⟨clients, hpre, ?_⟩
  have hturns := bytesIn_of_inTurn ht ((adopted_nodup hr hd).sublist hpre.sublist)
  have hread : (received tr).Sublist (clients.flatMap fun c => readFrom c tr) :=
    hturns ▸ received_sublist tr
  rw [input_eq_accepted hr]
  exact ((Offer.accepted_sublist _).trans (offered_le_received hr).sublist).trans hread

end Server

end Gritty
