import Gritty.Daemon.Replies
import Gritty.System.Fidelity
import Gritty.Terminal.Said

/-!
# Frames that fit

The codec carries a frame faithfully when its payload is within the limit and its texts do not
collide with the separators.  The frames that a session task sends are always such frames.  Those of
the daemon are when the request that they answer is brief, since a refusal repeats a text of the
request.

## Main definitions

* `ChunkFits` : a task that sends output sends no more of it than fits a frame.
* `Brief` : a request that leaves room for the message of a refusal.

## Main results

* `chunkFits` : the invariant of the session task.
* `representable_of_acts` : what a session task sends fits.
* `representable_of_serve` : the reply to a brief request fits.
* `representable_of_actsOn` : what is sent on a connection whose requests are brief fits.
-/

namespace Gritty

open Bytes FrameCodec

namespace Server

variable {s s' : State} {e : Event} {tr : List (Move State Event)} {c : Conn} {f : Frame}

/-- The chunk that is being sent was read at once. -/
def ChunkFits (s : State) : Prop :=
  ∀ framed chunk, s.phase = .sendData framed chunk → chunk.length ≤ 4096

theorem chunkFits_step (h : Step s e s') (hi : ChunkFits s) : ChunkFits s' := by
  cases h with
  | handOff | handOffLost | dropSenders | tick | output | hangup | exit | readBlock | noTakeover =>
    exact hi
  | @read framed n hp hpos hmax =>
    rintro framed' chunk hc
    obtain ⟨-, rfl⟩ := Phase.sendData.inj hc
    exact (List.length_take_le _ _).trans hmax
  | @next framed r hp =>
    rcases r with _ | e | f
    · simp [ChunkFits, State.onNext, State.clientGone]
    · simp [ChunkFits, State.onNext, State.finish]
    · cases f with
      | data | ping | exit => simp [ChunkFits, State.onNext, State.clientGone]
      | _ => exact hi
  | _ =>
    simp [ChunkFits, State.finish, State.onSpawn, State.shellExited]

theorem chunkFits (hr : lts.Run .init tr s) : ChunkFits s :=
  hr.reachable.invariant (by simp [ChunkFits, State.init]) fun _ _ _ hi hst =>
    chunkFits_step (step_cases hst) hi

theorem representable_data {bytes : List UInt8} (h : bytes.length ≤ 4097) :
    Representable (.data bytes) :=
  ⟨h.trans (by decide), trivial⟩

theorem representable_of_acts (hr : lts.Run .init tr s) {ok : Bool}
    (hf : (c, .sent f ok) ∈ acts tr) : Representable f := by
  obtain ⟨m, hm, hf⟩ := List.mem_flatMap.1 hf
  obtain ⟨-, tr₁, -, -, hr₁⟩ := hr.move hm
  obtain ⟨-, hsend⟩ := send_of_act hf
  cases hp : m.src.phase with
  | sendPong | sendDetached =>
    obtain ⟨-, rfl⟩ : _ ∧ _ = f := by simpa [hp, Phase.send?] using hsend
    exact ⟨by decide, trivial⟩
  | sendExit =>
    obtain ⟨-, rfl⟩ : _ ∧ _ = f := by simpa [hp, Phase.send?] using hsend
    exact ⟨by rw [show (payload (.exit _)).length = 4 from rfl]; decide, trivial⟩
  | sendData =>
    obtain ⟨-, rfl⟩ : _ ∧ _ = f := by simpa [hp, Phase.send?] using hsend
    exact representable_data ((chunkFits hr₁ _ _ hp).trans (by decide))
  | _ => simp [hp, Phase.send?] at hsend

end Server

namespace Daemon

variable {s s' : State} {c : Conn} {frame reply : Frame} {next : Next}

/-- A request that leaves room for the message of a refusal. -/
def Brief (f : Frame) : Prop := (payload f).length + 32 ≤ maxFrameSize

theorem representable_of_serve (h : Serve s c frame s')
    (hc : s'.control = .replying c reply next) (hb : Brief frame) (hl : frame ≠ .listSessions) :
    Representable reply := by
  unfold Brief at hb
  have herror : ∀ prefix' text : String, (utf8 prefix').length ≤ 32 →
      (utf8 text).length + 32 ≤ maxFrameSize → Representable (.error (prefix' ++ text)) := by
    intro prefix' text hp ht
    refine ⟨?_, trivial⟩
    rw [length_payload_error]
    omega
  cases h with
  | duplicate =>
    cases hc
    exact herror _ _ (by decide) hb
  | created =>
    cases hc
    exact ⟨length_utf8_toString_le _, trivial⟩
  | attachNone | attachClosed | killNone =>
    cases hc
    exact herror _ _ (by decide) hb
  | attached | killed | shutdown =>
    cases hc
    exact ⟨length_payload_ok, trivial⟩
  | listed => exact absurd rfl hl
  | unexpected =>
    cases hc
    exact ⟨by decide, trivial⟩

variable {tr : List (Move State Event)}

theorem RepliesWith.representable (hr : lts.Run .init tr s) (h : RepliesWith tr c frame reply next)
    (hb : Brief frame) (hl : frame ≠ .listSessions) : Representable reply := by
  obtain ⟨m, hm, hc, hlbl, hrep⟩ := h
  obtain ⟨hst, -⟩ := hr.move hm
  rw [hlbl] at hst
  exact representable_of_serve (serve_of_step hc hst) hrep hb hl

/-- **What is sent on a connection fits** when the reply to its first frame does. -/
theorem representable_of_reply (hr : lts.Run .init tr s)
    (hb : ∀ frame reply next, (framesRead c tr).head? = some frame →
      RepliesWith tr c frame reply next → Representable reply) :
    ∀ f ∈ Terminal.said (actsOn c tr), Representable f := by
  have hreply : ∀ {frame reply next as}, RepliesWith tr c frame reply next →
      actsOn c tr = .read frame :: as → Representable reply := by
    intro frame reply next as hrep ha
    exact hb frame reply next (by rw [framesRead, ha]; rfl) hrep
  intro f hf
  cases stage hr c with
  | early _ _ ha =>
    rw [ha] at hf
    cases hf
  | due _ _ _ ha =>
    rw [ha] at hf
    cases hf
  | @closed frame reply next ok _ _ hrep _ ha =>
    have hr' := hreply hrep ha
    rw [ha] at hf
    obtain rfl : reply = f := by simpa [Terminal.said, Terminal.frame?] using hf
    exact hr'
  | @handed frame reply k ok _ _ hrep ha =>
    have hr' := hreply hrep ha
    rw [ha] at hf
    change f ∈ reply :: Terminal.said (taskActsOn k c tr) at hf
    rcases List.mem_cons.1 hf with rfl | hf
    · exact hr'
    · obtain ⟨a, ha, hfa⟩ := List.mem_filterMap.1 hf
      cases a with
      | read => cases hfa
      | sent g ok =>
        obtain rfl := Option.some.inj hfa
        exact Server.representable_of_acts (run_serverRun hr k) (mem_entriesOf.1 ha)

theorem representable_of_actsOn (hr : lts.Run .init tr s)
    (hb : ∀ frame, (framesRead c tr).head? = some frame → Brief frame ∧ frame ≠ .listSessions) :
    ∀ f ∈ Terminal.said (actsOn c tr), Representable f := by
  refine representable_of_reply hr fun frame reply next hf hrep => ?_
  obtain ⟨hbr, hl⟩ := hb frame hf
  exact hrep.representable hr hbr hl

end Daemon

end Gritty
