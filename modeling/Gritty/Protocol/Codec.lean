import Gritty.Bytes.Basic
import Gritty.Text.Decimal
import Gritty.Text.Lines

/-!
# The frame codec

Frames and their wire format: a type byte, the payload length as a big-endian `u32`, the payload.
A payload is bytes (`Data`), big-endian numbers (`Resize`, `Exit`), a UTF-8 string, or line-oriented
UTF-8 text (`Env`, `SessionInfo`).

`FrameCodec.encode` appends a frame to a buffer and `FrameCodec.decode` takes one from the front
of a buffer; both follow the source branch by branch, with the texts of the errors.  `encode` cuts
the length to 32 bits, as `put_u32` does, and does not look at the limit on the size of a frame;
`decode` refuses what is above the limit as soon as it has read the header.

## Main results

* `decode_of_incomplete`, `decode_of_oversize`, `decode_of_complete` : the three cases of the
  decoder, in terms of the announced length.
* `incomplete_or_oversize_or_complete` : there are no others.
* `decode_some` : an answered frame was complete and within the limit.
-/

namespace Gritty

/-- Metadata for one session, returned in `SessionInfo`. -/
structure SessionEntry where
  id : String
  name : String
  ptyPath : String
  shellPid : UInt32
  createdAt : UInt64
  attached : Bool
  lastHeartbeat : UInt64
  deriving DecidableEq

/-- The messages of the protocol. -/
inductive Frame where
  | data (bytes : List UInt8)
  | resize (cols rows : UInt16)
  | exit (code : Int32)
  /-- Sent to a client when another client takes over the session. -/
  | detached
  /-- Heartbeat request (client to server). -/
  | ping
  /-- Heartbeat reply (server to client). -/
  | pong
  /-- Environment variables (client to server, before the first `resize` of a new session). -/
  | env (vars : List (String × String))
  | newSession (name : String)
  | attach (session : String)
  | listSessions
  | killSession (session : String)
  | killServer
  | sessionCreated (id : String)
  | sessionInfo (sessions : List SessionEntry)
  | ok
  | error (message : String)
  deriving DecidableEq

/-- An `InvalidData` error of the decoder: a text of its own, or the rejected bytes of a string. -/
inductive DecodeError where
  | invalidData (message : String)
  | fromUtf8 (bytes : List UInt8)
  deriving DecidableEq

namespace FrameCodec

open Bytes Text

/-- `TYPE_DATA` -/
def typeData : UInt8 := 0x01
/-- `TYPE_RESIZE` -/
def typeResize : UInt8 := 0x02
/-- `TYPE_EXIT` -/
def typeExit : UInt8 := 0x03
/-- `TYPE_DETACHED` -/
def typeDetached : UInt8 := 0x04
/-- `TYPE_PING` -/
def typePing : UInt8 := 0x05
/-- `TYPE_PONG` -/
def typePong : UInt8 := 0x06
/-- `TYPE_ENV` -/
def typeEnv : UInt8 := 0x07
/-- `TYPE_NEW_SESSION` -/
def typeNewSession : UInt8 := 0x10
/-- `TYPE_ATTACH` -/
def typeAttach : UInt8 := 0x11
/-- `TYPE_LIST_SESSIONS` -/
def typeListSessions : UInt8 := 0x12
/-- `TYPE_KILL_SESSION` -/
def typeKillSession : UInt8 := 0x13
/-- `TYPE_KILL_SERVER` -/
def typeKillServer : UInt8 := 0x14
/-- `TYPE_SESSION_CREATED` -/
def typeSessionCreated : UInt8 := 0x20
/-- `TYPE_SESSION_INFO` -/
def typeSessionInfo : UInt8 := 0x21
/-- `TYPE_OK` -/
def typeOk : UInt8 := 0x22
/-- `TYPE_ERROR` -/
def typeError : UInt8 := 0x23

/-- type (1) + length (4) -/
def headerLen : ℕ := 5

/-- 1 MB -/
def maxFrameSize : ℕ := 1 <<< 20

/-! ### Encoding -/

/-- `put_u32(len as u32)` : the length is cut to 32 bits. -/
def putLen (len : ℕ) : List UInt8 := beU32 (UInt32.ofNat len)

/-- `encode_empty` : a frame without a payload. -/
def encodeEmpty (dst : List UInt8) (ty : UInt8) : List UInt8 := dst ++ [ty] ++ beU32 0

/-- `encode_str` : a frame with a text for its payload. -/
def encodeStr (dst : List UInt8) (ty : UInt8) (s : String) : List UInt8 :=
  dst ++ [ty] ++ putLen (utf8 s).length ++ utf8 s

/-- `KEY=VALUE` lines. -/
def envText (vars : List (String × String)) : String :=
  "\n".intercalate (vars.map fun kv => kv.1 ++ "=" ++ kv.2)

/-- The seven tab-separated fields of a session. -/
def entryText (e : SessionEntry) : String :=
  "\t".intercalate [e.id, e.name, e.ptyPath, toString e.shellPid, toString e.createdAt,
    if e.attached then "1" else "0", toString e.lastHeartbeat]

/-- One line per session. -/
def sessionInfoText (sessions : List SessionEntry) : String :=
  "\n".intercalate (sessions.map entryText)

/-- `FrameCodec::encode` : append `frame` to `dst`. -/
def encode (frame : Frame) (dst : List UInt8) : List UInt8 :=
  match frame with
  | .data data => dst ++ [typeData] ++ putLen data.length ++ data
  | .resize cols rows => dst ++ [typeResize] ++ beU32 4 ++ beU16 cols ++ beU16 rows
  | .exit code => dst ++ [typeExit] ++ beU32 4 ++ beU32 code.toUInt32
  | .detached => encodeEmpty dst typeDetached
  | .ping => encodeEmpty dst typePing
  | .pong => encodeEmpty dst typePong
  | .env vars =>
    let text := envText vars
    dst ++ [typeEnv] ++ putLen (utf8 text).length ++ utf8 text
  | .newSession name => encodeStr dst typeNewSession name
  | .attach session => encodeStr dst typeAttach session
  | .listSessions => encodeEmpty dst typeListSessions
  | .killSession session => encodeStr dst typeKillSession session
  | .killServer => encodeEmpty dst typeKillServer
  | .sessionCreated id => encodeStr dst typeSessionCreated id
  | .sessionInfo sessions =>
    let text := sessionInfoText sessions
    dst ++ [typeSessionInfo] ++ putLen (utf8 text).length ++ utf8 text
  | .ok => encodeEmpty dst typeOk
  | .error message => encodeStr dst typeError message

/-! ### Decoding -/

/-- `String::from_utf8(payload.to_vec())` -/
def decodeString (payload : List UInt8) : Except DecodeError String :=
  match fromUtf8 payload with
  | some s => .ok s
  | none => .error (.fromUtf8 payload)

/-- `{frame_type:02x}` -/
def hex2 (b : UInt8) : String :=
  String.ofList [Nat.digitChar (b.toNat / 16), Nat.digitChar (b.toNat % 16)]

/-- The variables of an `Env` text: lines without `=` are dropped. -/
def parseEnv (text : String) : List (String × String) :=
  if text.isEmpty then []
  else
    (lines text.toList).filterMap fun line =>
      (splitOnce '=' line).map fun kv => (String.ofList kv.1, String.ofList kv.2)

/-- One line of a `SessionInfo` text: a line without exactly seven fields is dropped, a number
that does not parse is 0. -/
def parseEntry (line : List Char) : Option SessionEntry :=
  match (line.splitOn '\t').map String.ofList with
  | [id, name, ptyPath, shellPid, createdAt, attached, lastHeartbeat] =>
    some
      { id, name, ptyPath
        shellPid := (parseU32 shellPid).getD 0
        createdAt := (parseU64 createdAt).getD 0
        attached := attached == "1"
        lastHeartbeat := (parseU64 lastHeartbeat).getD 0 }
  | _ => none

/-- The sessions of a `SessionInfo` text. -/
def parseSessionInfo (text : String) : List SessionEntry :=
  if text.isEmpty then [] else (lines text.toList).filterMap parseEntry

/-- The `match frame_type` of `FrameCodec::decode`, on a complete payload. -/
def decodePayload (frameType : UInt8) (payload : List UInt8) : Except DecodeError Frame :=
  if frameType = typeData then .ok (.data payload)
  else if frameType = typeResize then
    match payload with
    | [p₀, p₁, p₂, p₃] => .ok (.resize (ofBeU16 p₀ p₁) (ofBeU16 p₂ p₃))
    | _ => .error (.invalidData "resize frame must be 4 bytes")
  else if frameType = typeExit then
    match payload with
    | [p₀, p₁, p₂, p₃] => .ok (.exit (ofBeU32 p₀ p₁ p₂ p₃).toInt32)
    | _ => .error (.invalidData "exit frame must be 4 bytes")
  else if frameType = typeDetached then .ok .detached
  else if frameType = typePing then .ok .ping
  else if frameType = typePong then .ok .pong
  else if frameType = typeEnv then (decodeString payload).map fun text => .env (parseEnv text)
  else if frameType = typeNewSession then (decodeString payload).map .newSession
  else if frameType = typeAttach then (decodeString payload).map .attach
  else if frameType = typeListSessions then .ok .listSessions
  else if frameType = typeKillSession then (decodeString payload).map .killSession
  else if frameType = typeKillServer then .ok .killServer
  else if frameType = typeSessionCreated then (decodeString payload).map .sessionCreated
  else if frameType = typeSessionInfo then
    (decodeString payload).map fun text => .sessionInfo (parseSessionInfo text)
  else if frameType = typeOk then .ok .ok
  else if frameType = typeError then (decodeString payload).map .error
  else .error (.invalidData s!"unknown frame type: 0x{hex2 frameType}")

/-- `FrameCodec::decode` : the answer and the buffer left.  The frame is taken off the buffer
before its payload is looked at, so a bad payload is consumed and an oversized header is not. -/
def decode (src : List UInt8) : Except DecodeError (Option Frame) × List UInt8 :=
  match src with
  | frameType :: l₀ :: l₁ :: l₂ :: l₃ :: rest =>
    let payloadLen := (ofBeU32 l₀ l₁ l₂ l₃).toNat
    if payloadLen > maxFrameSize then
      (.error (.invalidData
        s!"frame payload too large: {payloadLen} bytes (max {maxFrameSize})"), src)
    else if src.length < headerLen + payloadLen then (.ok none, src)
    else ((decodePayload frameType (rest.take payloadLen)).map some, rest.drop payloadLen)
  | _ => (.ok none, src)

/-! ### One call -/

/-- The payload length announced by the header of a buffer. -/
def payloadLen : List UInt8 → ℕ
  | _ :: l₀ :: l₁ :: l₂ :: l₃ :: _ => (ofBeU32 l₀ l₁ l₂ l₃).toNat
  | _ => 0

variable {src : List UInt8}

theorem decode_eq (h : headerLen ≤ src.length) : decode src =
    if payloadLen src > maxFrameSize then
      (.error (.invalidData
        s!"frame payload too large: {payloadLen src} bytes (max {maxFrameSize})"), src)
    else if src.length < headerLen + payloadLen src then (.ok none, src)
    else ((decodePayload (src.headD 0) ((src.drop headerLen).take (payloadLen src))).map some,
      src.drop (headerLen + payloadLen src)) := by
  match src, h with
  | ty :: l₀ :: l₁ :: l₂ :: l₃ :: rest, _ =>
    rw [← List.drop_drop]
    rfl

/-- Without a whole header, or without the whole payload it announces, the decoder waits. -/
theorem decode_of_incomplete (h : src.length < headerLen ∨
    payloadLen src ≤ maxFrameSize ∧ src.length < headerLen + payloadLen src) :
    decode src = (.ok none, src) := by
  by_cases hhead : headerLen ≤ src.length
  · rw [decode_eq hhead, if_neg (by omega), if_pos (by omega)]
  · unfold decode
    split
    · simp [headerLen] at hhead
    · rfl

/-- An announced length above the limit is refused at once. -/
theorem decode_of_oversize (h : headerLen ≤ src.length) (hmax : maxFrameSize < payloadLen src) :
    decode src = (.error (.invalidData
      s!"frame payload too large: {payloadLen src} bytes (max {maxFrameSize})"), src) := by
  rw [decode_eq h, if_pos hmax]

/-- A complete frame is taken off the buffer and its payload decoded. -/
theorem decode_of_complete (h : headerLen + payloadLen src ≤ src.length)
    (hmax : payloadLen src ≤ maxFrameSize) :
    decode src =
      ((decodePayload (src.headD 0) ((src.drop headerLen).take (payloadLen src))).map some,
        src.drop (headerLen + payloadLen src)) := by
  rw [decode_eq (by omega), if_neg (by omega), if_neg (by omega)]

/-- The three cases are all there are. -/
theorem incomplete_or_oversize_or_complete (src : List UInt8) :
    (src.length < headerLen ∨
      payloadLen src ≤ maxFrameSize ∧ src.length < headerLen + payloadLen src) ∨
    (headerLen ≤ src.length ∧ maxFrameSize < payloadLen src) ∨
    (headerLen + payloadLen src ≤ src.length ∧ payloadLen src ≤ maxFrameSize) := by
  omega

/-- An answered frame was complete and within the limit. -/
theorem decode_some {src' : List UInt8} {f : Frame} (h : decode src = (.ok (some f), src')) :
    headerLen + payloadLen src ≤ src.length ∧ payloadLen src ≤ maxFrameSize ∧
      decodePayload (src.headD 0) ((src.drop headerLen).take (payloadLen src)) = .ok f ∧
      src' = src.drop (headerLen + payloadLen src) := by
  rcases incomplete_or_oversize_or_complete src with hc | ⟨hc, hmax⟩ | ⟨hc, hmax⟩
  · simp [decode_of_incomplete hc] at h
  · simp [decode_of_oversize hc hmax] at h
  · rw [decode_of_complete hc hmax] at h
    obtain ⟨hpay, hsrc⟩ := Prod.mk.inj h
    refine ⟨hc, hmax, ?_, hsrc.symm⟩
    generalize decodePayload _ _ = answer at hpay ⊢
    cases answer with
    | error e => cases hpay
    | ok g => cases hpay; rfl

end FrameCodec

end Gritty
