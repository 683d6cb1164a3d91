import Gritty.Server.Step
import Gritty.Stream.Offer

/-!
# From the clients to the PTY

The relay loop writes the payload of each `Data` frame to the PTY master once, without looking at
the count, and goes on with the next frame on `WouldBlock`.  What the PTY accepts is the
concatenation of the payloads exactly when it takes each of them whole.

## Main definitions

* `offers` : the writes of a run, each with what was offered and how much of it was taken.
* `received` : the payloads taken from clients.
* `State.owed` : a payload that waits for the PTY.
* `ShortWrite` : a write that was not taken whole.

## Main results

* `input_step`, `input_eq_accepted` : the PTY has accepted what the writes report.
* `received_eq_offered_append_owed` : each byte taken from a client is offered once, in order.
* `input_eq_iff` : in every run, the PTY has the payloads exactly when no write was short.
-/

namespace Gritty

namespace Server

/-- The write of a payload that a move completes: `WouldBlock` takes nothing. -/
def offerOf (m : Move State Event) : Option (Offer UInt8) :=
  match m.src.phase, m.lbl with
  | .writable _ data, .write (.accepted n) => some ⟨data, n⟩
  | .writable _ data, .write .wouldBlock => some ⟨data, 0⟩
  | _, _ => none

/-- The writes of a run, in order, whichever client the payloads are from. -/
def offers (tr : List (Move State Event)) : List (Offer UInt8) := tr.filterMap offerOf

/-- The bytes in the `Data` frames that a move takes from the client. -/
def receivedOf (m : Move State Event) : List UInt8 :=
  match m.src.phase, m.lbl with
  | .relay _, .next (some (.ok (.data data))) => data
  | _, _ => []

/-- The bytes in the `Data` frames taken from the clients, in order. -/
def received (tr : List (Move State Event)) : List UInt8 := tr.flatMap receivedOf

theorem received_append_single (tr : List (Move State Event)) (m : Move State Event) :
    received (tr ++ [m]) = received tr ++ receivedOf m := by
  simp [received]

/-- The payload that waits for the PTY to be writable. -/
def State.owed (s : State) : List UInt8 :=
  match s.phase with
  | .writable _ data => data
  | _ => []

/-- The PTY takes less than the payload. -/
def ShortWrite (m : Move State Event) : Prop := ∃ o ∈ offerOf m, ¬ o.Whole

instance : DecidablePred ShortWrite :=
  fun m => inferInstanceAs (Decidable (∃ o ∈ offerOf m, ¬ o.Whole))

variable {s s' : State} {e : Event} {tr : List (Move State Event)}

theorem offers_append_single (m : Move State Event) :
    offers (tr ++ [m]) = offers tr ++ (offerOf m).toList := by
  rw [offers, List.filterMap_append]
  cases h : offerOf m <;> simp [offers, h]

theorem input_onNext {framed : Conn} {r : NextFrame} : (s.onNext framed r).input = s.input := by
  unfold State.onNext
  split <;> rfl

/-- What one step adds to the bytes the PTY accepted. -/
theorem input_step (h : Step s e s') :
    s'.input = s.input ++ Offer.accepted (offerOf ⟨s, e, s'⟩).toList := by
  cases h with
  | write hp => simp [offerOf, hp, Offer.accepted]
  | writeBlock hp => simp [offerOf, hp, Offer.accepted]
  | next hp => simp [offerOf, input_onNext]
  | writeErr hp => simp [offerOf, State.finish]
  | _ => simp [offerOf, State.finish, State.onSpawn, State.setAttached, State.shellExited,
      State.write]

theorem owed_onNext {framed : Conn} {r : NextFrame} (hp : s.phase = .relay framed)
    (hs' : ∀ o, (s.onNext framed r).phase ≠ .ended o) :
    receivedOf ⟨s, .next r, s.onNext framed r⟩ = (s.onNext framed r).owed := by
  rcases r with _ | e | f
  · simp [receivedOf, State.onNext, State.clientGone, State.owed, hp]
  · exact absurd rfl (hs' _)
  · cases f <;> simp [receivedOf, State.onNext, State.clientGone, State.owed, hp]

theorem owed_step (h : Step s e s') (hs' : ∀ o, s'.phase ≠ .ended o) :
    s.owed ++ receivedOf ⟨s, e, s'⟩ = Offer.offered (offerOf ⟨s, e, s'⟩).toList ++ s'.owed := by
  cases h with
  | handOff | handOffLost | dropSenders | tick | output | hangup | exit =>
    simp [offerOf, receivedOf, State.owed]
  | next hp =>
    rw [owed_onNext hp hs']
    simp [State.owed, hp, offerOf]
  | abort | openptyErr | closedFirst | spawnErr | closed | exitIdle | waitErr | readErr | writeErr
  | dataFailed
  | exitSent => exact absurd rfl (hs' _)
  | readBlock hp | noTakeover hp => simp [offerOf, receivedOf, State.owed]
  | openpty hp | recvFirst hp | firstFrame hp | spawn hp | adopt hp | read hp | eof hp | takeover hp
  | exitRelay hp | write hp | writeBlock hp | pongSent hp | dataSent hp | detachedSent hp =>
    simp [offerOf, receivedOf, State.owed, hp, State.onSpawn, State.shellExited, Offer.offered]

/-- The PTY has accepted what the writes report. -/
theorem input_eq_accepted (hr : lts.Run .init tr s) :
    s.input = Offer.accepted (offers tr) := by
  refine hr.invariant (P := fun _ => True) (I := fun tr s => s.input = Offer.accepted (offers tr))
    (fun _ _ => trivial) rfl ?_
  intro tr s e s' hi _ hst
  rw [offers_append_single, Offer.accepted_append, input_step (step_cases hst), hi]

/-- While the task runs, each byte taken from a client has been offered to the PTY, in order, but
for the payload that waits for it. -/
theorem received_eq_offered_append_owed (hr : lts.Run .init tr s)
    (hs : ∀ o, s.phase ≠ .ended o) :
    received tr = Offer.offered (offers tr) ++ s.owed := by
  refine hr.invariant (P := fun _ => True)
    (I := fun tr s => (∀ o, s.phase ≠ .ended o) → received tr = Offer.offered (offers tr) ++ s.owed)
    (fun _ _ => trivial) (fun _ => rfl) (fun tr s e s' hi _ hst hs' => ?_) hs
  have h := step_cases hst
  rw [received_append_single, hi (not_ended_of_step h hs'), List.append_assoc, owed_step h hs',
    offers_append_single, Offer.offered_append, List.append_assoc]

/-- **The PTY gets the client input exactly when no write is short.**  In every run the bytes that
the PTY accepted are the payloads of the `Data` frames processed so far if and only if the PTY took
every payload whole; and the payloads processed are those taken from the clients, but for the one
that waits while the task runs. -/
theorem input_eq_iff (hr : lts.Run .init tr s) :
    (s.input = Offer.offered (offers tr) ↔ ∀ m ∈ tr, ¬ ShortWrite m) ∧
      ((∀ o, s.phase ≠ .ended o) → received tr = Offer.offered (offers tr) ++ s.owed) := by
  refine ⟨?_, received_eq_offered_append_owed hr⟩
  rw [input_eq_accepted hr, Offer.accepted_eq_offered_iff]
  simp only [offers, List.mem_filterMap, ShortWrite, Option.mem_def]
  constructor
  · rintro h m hm ⟨o, ho, hn⟩
    exact hn (h o ⟨m, hm, ho⟩)
  · rintro h o ⟨m, hm, ho⟩
    by_contra hn
    exact h m hm ⟨o, ho, hn⟩

/-- A client sends three bytes, which the PTY takes, and then one more. -/
def wholeWriteLabels : List Event :=
  [.openpty (some "/dev/pts/1"), .handOff 0, .recv, .firstFrame none, .spawn (some 7),
    .next (some (.ok (.data [108, 115, 10]))), .write (.accepted 3),
    .next (some (.ok (.data [4])))]

/-- The PTY gets the three bytes, and the last one is owed. -/
theorem input_eq_iff_whole :
    ∃ s, LTS.exec step .init wholeWriteLabels = some s ∧
      s.input = Offer.offered (offers (LTS.trace step .init wholeWriteLabels)) ∧
      s.owed = [4] := by
  have h : ∃ s, LTS.exec step .init wholeWriteLabels = some s ∧
      s.owed = [4] := ⟨_, rfl, rfl⟩
  obtain ⟨s, h, hs⟩ := h
  exact ⟨s, h, (input_eq_iff (LTS.run_of_exec h)).1.2 (by decide), hs⟩

/-- A client sends three bytes and the PTY has room for one. -/
def shortWriteLabels : List Event :=
  [.openpty (some "/dev/pts/1"), .handOff 0, .recv, .firstFrame none, .spawn (some 7),
    .next (some (.ok (.data [108, 115, 10]))), .write (.accepted 1)]

/-- The PTY takes one byte of three: the others are dropped, and the loop goes on. -/
theorem input_ne_of_shortWrite :
    ∃ tr s, lts.Run .init tr s ∧ tr.map Move.lbl = shortWriteLabels ∧
      s.phase = .relay 0 ∧ s.input = [108] ∧ Offer.offered (offers tr) = [108, 115, 10] ∧
      s.input ≠ Offer.offered (offers tr) := by
  have h : ∃ s, LTS.exec step .init shortWriteLabels = some s ∧
      s.phase = .relay 0 ∧ s.input = [108] := ⟨_, rfl, rfl, rfl⟩
  obtain ⟨s, h, hp, hi⟩ := h
  exact ⟨_, s, LTS.run_of_exec h, rfl, hp, hi, rfl, by rw [hi]; decide⟩

end Server

end Gritty
