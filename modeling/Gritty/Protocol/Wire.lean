import Gritty.Protocol.RoundTrip
import Gritty.Protocol.Stream
import Gritty.Stream.Wire

/-!
# Frames on a wire

The frame codec as a `Codec` in the sense of the wires: it reads back the frames that are
representable.  A frame that is not can be written as well, but then the other side may read an
error, or other frames.

## Main definitions

* `frameCodec` : the codec, with what makes the wires of the library work on frames: frames that
  are cut anywhere wait for their rest, and whole ones are read back, whatever follows them.
-/

namespace Gritty

namespace FrameCodec

/-- The codec on a wire: it reads back the frames that are representable. -/
def frameCodec : Codec UInt8 Frame DecodeError where
  toStreamDecoder := frameDecoder
  encode f := encode f []
  Good := Representable
  decode_encode {f} h t := by
    show decode (encode f [] ++ t) = _
    rw [decode_encode h.1, (decodePayload_payload_iff f).2 h.2]
    rfl

end FrameCodec

end Gritty
