import Gritty.Protocol.Codec
import Gritty.Stream.Decoder

/-!
# Frames from a byte stream

The codec is called on a buffer that grows as bytes arrive.  It answers "not yet" without touching
the buffer, an answer is not changed by what arrives behind it, and each frame takes at least a
header off.  These are the laws of a `StreamDecoder`, and `FrameCodec.frameDecoder` is the proof of
them.  Hence the frames that a peer sees do not depend on how the bytes of the stream were cut.

## Main results

* `decode_append_of_complete` : what follows a complete frame changes nothing but the rest.
* `decode_error_append` : a first error does not change when more bytes arrive.
* `stream_decoding` : draining the buffer after each chunk yields what draining the whole stream
  yields, however it is cut, and no call of the loop is wasted.
-/

namespace Gritty

namespace FrameCodec

variable {src src' : List UInt8}

theorem payloadLen_append (h : headerLen ≤ src.length) (t : List UInt8) :
    payloadLen (src ++ t) = payloadLen src := by
  match src, h with
  | _ :: _ :: _ :: _ :: _ :: _, _ => rfl

theorem headD_append (h : headerLen ≤ src.length) (t : List UInt8) :
    (src ++ t).headD 0 = src.headD 0 := by
  match src, h with
  | _ :: _, _ => rfl

theorem decode_append_of_complete (h : headerLen + payloadLen src ≤ src.length)
    (hmax : payloadLen src ≤ maxFrameSize) (t : List UInt8) :
    decode (src ++ t) = ((decode src).1, (decode src).2 ++ t) := by
  have hlen := payloadLen_append (by omega : headerLen ≤ src.length) t
  have htake : ((src ++ t).drop headerLen).take (payloadLen src) =
      (src.drop headerLen).take (payloadLen src) := by
    rw [List.drop_append_of_le_length (by omega), List.take_append_of_le_length]
    rw [List.length_drop]
    omega
  rw [decode_of_complete h hmax, decode_of_complete, hlen, headD_append (by omega), htake,
    List.drop_append_of_le_length h]
  · rw [hlen, List.length_append]
    omega
  · rw [hlen]
    exact hmax

theorem decode_none (h : decode src = (.ok none, src')) : src' = src := by
  rcases incomplete_or_oversize_or_complete src with hc | ⟨hc, hmax⟩ | ⟨hc, hmax⟩
  · rw [decode_of_incomplete hc] at h
    exact (Prod.mk.inj h).2.symm
  · simp [decode_of_oversize hc hmax] at h
  · rw [decode_of_complete hc hmax] at h
    generalize decodePayload _ _ = answer at h
    cases answer <;> simp [Except.map] at h

/-- A first error does not change when more bytes arrive. -/
theorem decode_error_append {e : DecodeError} (h : decode src = (.error e, src')) (t : List UInt8) :
    ∃ src'', decode (src ++ t) = (.error e, src'') := by
  rcases incomplete_or_oversize_or_complete src with hc | ⟨hc, hmax⟩ | ⟨hc, hmax⟩
  · simp [decode_of_incomplete hc] at h
  · have hlen := payloadLen_append hc t
    rw [decode_of_oversize hc hmax] at h
    rw [decode_of_oversize (by rw [List.length_append]; omega) (hlen ▸ hmax), hlen]
    rw [(Prod.mk.inj h).1]
    exact ⟨_, rfl⟩
  · rw [decode_append_of_complete hc hmax, h]
    exact ⟨_, rfl⟩

/-- The codec as an incremental decoder. -/
def frameDecoder : StreamDecoder UInt8 Frame DecodeError where
  decode := decode
  minLen := headerLen
  minLen_pos := by decide
  decode_nil := rfl
  none_keeps := decode_none
  some_consumes h := by
    obtain ⟨hlen, -, -, rfl⟩ := decode_some h
    refine ⟨_, (List.take_append_drop _ _).symm, ?_⟩
    rw [List.length_take]
    omega
  some_append h t := by
    obtain ⟨hlen, hmax, -⟩ := decode_some h
    rw [decode_append_of_complete hlen hmax, h]
  error_append := decode_error_append

/-- **Stream decoding does not depend on how the bytes arrive.**  However a stream is cut into
chunks, draining the buffer after each chunk yields the frames, the first error and the rest that
draining the whole stream yields.  A call that answers nothing leaves the buffer alone, a call that
answers a frame takes its header and payload off it, and a buffer is drained after at most
`length / 5 + 1` calls. -/
theorem stream_decoding :
    (∀ chunks : List (List UInt8),
      frameDecoder.feed [] chunks = frameDecoder.drain chunks.flatten) ∧
    (∀ src src', decode src = (.ok none, src') → src' = src) ∧
    (∀ src src' f, decode src = (.ok (some f), src') →
      5 + payloadLen src ≤ src.length ∧ src' = src.drop (5 + payloadLen src)) ∧
    ∀ src, (frameDecoder.drainCalls src).1 ≤ src.length / 5 + 1 := by
  refine ⟨?_, fun _ _ => decode_none, ?_, ?_⟩
  · intro chunks
    exact StreamDecoder.feed_eq StreamDecoder.drain_nil
  · intro src src' f h
    obtain ⟨hlen, -, -, hrest⟩ := decode_some h
    exact ⟨hlen, hrest⟩
  · intro src
    exact StreamDecoder.calls_drain_le src

end FrameCodec

end Gritty
