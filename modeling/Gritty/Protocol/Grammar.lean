import Gritty.Protocol.RoundTrip
import Gritty.Protocol.Stream
import Gritty.Stream.Grammar

/-!
# The streams that the codec accepts

A frame on the wire is a type byte, the length of the payload and the payload (`IsFrame`).  A buffer
that is the beginning of a frame makes the decoder wait (`Waits`), and one that is neither makes it
fail (`Fails`).  The three notions are stated without the decoder, from the wire format alone.

However a stream is cut into chunks, the codec accepts it exactly if it is frames one after the
other, followed by the beginning of one.  What waits in the buffer is then less than a header and a
payload of the maximal size, whatever the peer sends.

## Main results

* `typeByte_of_decodePayload` : each kind of frame has its type byte.
* `accepts_iff` : the streams that are accepted, those that fail, and the bound on what is buffered.
-/

namespace Gritty

namespace FrameCodec

open Bytes

/-- The bytes of one frame. -/
inductive IsFrame : List UInt8 → Frame → Prop
  | intro {ty payload f} : payload.length ≤ maxFrameSize → decodePayload ty payload = .ok f →
      IsFrame (ty :: (putLen payload.length ++ payload)) f

/-- The beginning of a frame: a part of the header, or a header that announces more than has
come. -/
def Waits (src : List UInt8) : Prop :=
  src.length < headerLen ∨ payloadLen src ≤ maxFrameSize ∧ src.length < headerLen + payloadLen src

/-- No frame begins here: too large a payload is announced, or a complete one is not understood. -/
def Fails (src : List UInt8) (e : DecodeError) : Prop :=
  (headerLen ≤ src.length ∧ maxFrameSize < payloadLen src ∧
    e = .invalidData s!"frame payload too large: {payloadLen src} bytes (max {maxFrameSize})") ∨
  headerLen + payloadLen src ≤ src.length ∧ payloadLen src ≤ maxFrameSize ∧
    decodePayload (src.headD 0) ((src.drop headerLen).take (payloadLen src)) = .error e

variable {src src' : List UInt8} {f : Frame} {e : DecodeError}

theorem beU32_ofBeU32 (b₀ b₁ b₂ b₃ : UInt8) : beU32 (ofBeU32 b₀ b₁ b₂ b₃) = [b₀, b₁, b₂, b₃] := by
  have h₀ := b₀.toNat_lt
  have h₁ := b₁.toNat_lt
  have h₂ := b₂.toNat_lt
  have h₃ := b₃.toNat_lt
  have hn : (ofBeU32 b₀ b₁ b₂ b₃).toNat =
      b₀.toNat * 2 ^ 24 + b₁.toNat * 2 ^ 16 + b₂.toNat * 2 ^ 8 + b₃.toNat := by
    simp only [ofBeU32, UInt32.toNat_ofNat']
    omega
  simp only [beU32, hn, List.cons.injEq, ← UInt8.toNat_inj, UInt8.toNat_ofNat', and_true]
  omega

/-- Each kind of frame has its type byte. -/
theorem typeByte_of_decodePayload {ty : UInt8} {payload : List UInt8}
    (h : decodePayload ty payload = .ok f) : typeByte f = ty := by
  have hstr : ∀ {g : String → Frame} {P : Frame → Prop}, (decodeString payload).map g = .ok f →
      (∀ text, P (g text)) → P f := by
    intro g P hg hP
    cases hs : decodeString payload with
    | error e => simp [hs, Except.map] at hg
    | ok text =>
      obtain rfl : g text = f := by simpa [hs, Except.map] using hg
      exact hP text
  by_cases hmem : ty ∈ [typeData, typeDetached, typePing, typePong, typeListSessions,
    typeKillServer, typeOk, typeResize, typeExit, typeEnv, typeNewSession, typeAttach,
    typeKillSession, typeSessionCreated, typeSessionInfo, typeError]
  · simp only [List.mem_cons, List.not_mem_nil, or_false] at hmem
    rcases hmem with rfl | rfl | rfl | rfl | rfl | rfl | rfl | rfl | rfl | rfl | rfl | rfl | rfl |
      rfl | rfl | rfl
    -- the bytes, and no payload
    iterate 7
      · cases h
        rfl
    -- the numbers
    iterate 2
      · rcases payload with _ | ⟨p₀, _ | ⟨p₁, _ | ⟨p₂, _ | ⟨p₃, _ | ⟨p₄, payload⟩⟩⟩⟩⟩ <;> cases h
        rfl
    -- the texts
    · exact hstr (P := fun f => typeByte f = typeEnv) h fun _ => rfl
    · exact hstr (P := fun f => typeByte f = typeNewSession) h fun _ => rfl
    · exact hstr (P := fun f => typeByte f = typeAttach) h fun _ => rfl
    · exact hstr (P := fun f => typeByte f = typeKillSession) h fun _ => rfl
    · exact hstr (P := fun f => typeByte f = typeSessionCreated) h fun _ => rfl
    · exact hstr (P := fun f => typeByte f = typeSessionInfo) h fun _ => rfl
    · exact hstr (P := fun f => typeByte f = typeError) h fun _ => rfl
  · simp only [List.mem_cons, List.not_mem_nil, or_false, not_or] at hmem
    obtain ⟨h₁, h₂, h₃, h₄, h₅, h₆, h₇, h₈, h₉, h₁₀, h₁₁, h₁₂, h₁₃, h₁₄, h₁₅, h₁₆⟩ := hmem
    unfold decodePayload at h
    rw [if_neg h₁, if_neg h₈, if_neg h₉, if_neg h₂, if_neg h₃, if_neg h₄, if_neg h₁₀,
      if_neg h₁₁, if_neg h₁₂, if_neg h₅, if_neg h₁₃, if_neg h₆, if_neg h₁₄, if_neg h₁₅, if_neg h₇,
      if_neg h₁₆] at h
    cases h

theorem payloadLen_of_isFrame (ty : UInt8) {payload : List UInt8}
    (h : payload.length ≤ maxFrameSize) (rest : List UInt8) :
    payloadLen (ty :: (putLen payload.length ++ payload) ++ rest) = payload.length := by
  have hlt : payload.length < 2 ^ 32 := lt_of_le_of_lt h (by decide)
  show (ofBeU32 _ _ _ _).toNat = _
  rw [ofBeU32_beU32]
  exact UInt32.toNat_ofNat_of_lt' hlt

theorem decode_isFrame (h : IsFrame src f) (rest : List UInt8) :
    decode (src ++ rest) = (.ok (some f), rest) := by
  cases h with
  | @intro ty payload f hmax hp =>
    have hlen := payloadLen_of_isFrame ty hmax rest
    have hdrop : (ty :: (putLen payload.length ++ payload) ++ rest).drop headerLen =
        payload ++ rest := rfl
    rw [decode_of_complete, hlen, ← List.drop_drop, hdrop, List.take_left, List.drop_left]
    · rw [show (ty :: (putLen payload.length ++ payload) ++ rest).headD 0 = ty from rfl, hp]
      rfl
    · rw [hlen]
      simp [headerLen, length_putLen]
      omega
    · rw [hlen]
      exact hmax

theorem take_eq_cons {ty l₀ l₁ l₂ l₃ : UInt8} (rest : List UInt8) (n : ℕ) :
    (ty :: l₀ :: l₁ :: l₂ :: l₃ :: rest).take (headerLen + n) =
      ty :: ([l₀, l₁, l₂, l₃] ++ rest.take n) := by
  rw [headerLen, Nat.add_comm]
  rfl

theorem isFrame_of_decode (h : decode src = (.ok (some f), src')) :
    ∃ p, src = p ++ src' ∧ IsFrame p f := by
  obtain ⟨hlen, hmax, hp, rfl⟩ := decode_some h
  refine ⟨_, (List.take_append_drop _ _).symm, ?_⟩
  match src, hlen, hmax, hp with
  | ty :: l₀ :: l₁ :: l₂ :: l₃ :: rest, hlen, hmax, hp =>
    have hn : payloadLen (ty :: l₀ :: l₁ :: l₂ :: l₃ :: rest) = (ofBeU32 l₀ l₁ l₂ l₃).toNat := rfl
    rw [hn] at hlen hmax hp
    have hrest : (rest.take (ofBeU32 l₀ l₁ l₂ l₃).toNat).length = (ofBeU32 l₀ l₁ l₂ l₃).toNat := by
      rw [List.length_take]
      simp only [headerLen, List.length_cons] at hlen
      omega
    have hframe := @IsFrame.intro ty (rest.take (ofBeU32 l₀ l₁ l₂ l₃).toNat) f
      (hrest.symm ▸ hmax) hp
    rw [hrest, putLen, UInt32.ofNat_toNat, beU32_ofBeU32] at hframe
    rw [hn, take_eq_cons]
    exact hframe

theorem frameReads : frameDecoder.Reads IsFrame Waits where
  some_iff := by
    intro src src' f
    constructor
    · exact isFrame_of_decode
    · rintro ⟨p, rfl, hp⟩
      exact decode_isFrame hp src'
  none_iff := by
    intro src
    constructor
    · intro h
      change decode src = _ at h
      rcases incomplete_or_oversize_or_complete src with hc | ⟨hc, hmax⟩ | ⟨hc, hmax⟩
      · exact hc
      · simp [decode_of_oversize hc hmax] at h
      · rw [decode_of_complete hc hmax] at h
        generalize decodePayload _ _ = answer at h
        cases answer <;> simp [Except.map] at h
    · exact decode_of_incomplete

theorem decode_error_iff : (decode src).1 = .error e ↔ Fails src e := by
  unfold Fails
  rcases incomplete_or_oversize_or_complete src with hc | ⟨hc, hmax⟩ | ⟨hc, hmax⟩
  · rw [decode_of_incomplete hc]
    constructor
    · rintro ⟨⟩
    · rintro (⟨h, hmax, -⟩ | ⟨h, hmax, -⟩) <;> omega
  · rw [decode_of_oversize hc hmax]
    simp [hc, hmax, Nat.not_le.2 hmax, eq_comm]
  · rw [decode_of_complete hc hmax]
    generalize decodePayload _ _ = answer
    cases answer <;> simp [Except.map, hc, hmax, Nat.not_lt.2 hmax]

/-- **The streams that are accepted.**  However a stream is cut into chunks: it yields frames and
leaves a rest if and only if it is the bytes of these frames, in order, and the beginning of a
further one; it yields frames and an error if and only if after the bytes of these frames neither a
frame nor the beginning of one follows.  The rest is shorter than a header and a payload of the
maximal size. -/
theorem accepts_iff (chunks : List (List UInt8)) (fs : List Frame) :
    (∀ rest, frameDecoder.feed [] chunks = ⟨fs, .ok rest⟩ ↔
      ∃ ps, chunks.flatten = ps.flatten ++ rest ∧ List.Forall₂ IsFrame ps fs ∧ Waits rest) ∧
    (∀ e, frameDecoder.feed [] chunks = ⟨fs, .error e⟩ ↔
      ∃ ps rest, chunks.flatten = ps.flatten ++ rest ∧ List.Forall₂ IsFrame ps fs ∧ Fails rest e) ∧
    ∀ rest, frameDecoder.feed [] chunks = ⟨fs, .ok rest⟩ →
      rest.length < headerLen + maxFrameSize := by
  have hfeed : frameDecoder.feed [] chunks = frameDecoder.drain chunks.flatten :=
    StreamDecoder.feed_eq StreamDecoder.drain_nil
  rw [hfeed]
  refine ⟨fun rest => frameReads.drain_ok_iff, fun e => ?_, fun rest h => ?_⟩
  · rw [frameReads.drain_error_iff]
    simp only [← decode_error_iff]
    rfl
  · obtain ⟨ps, -, -, hw⟩ := frameReads.drain_ok_iff.1 h
    rcases hw with hw | ⟨hmax, hw⟩ <;> omega

end FrameCodec

end Gritty
