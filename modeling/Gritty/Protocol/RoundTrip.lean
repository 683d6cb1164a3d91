import Gritty.Protocol.Codec

/-!
# Which frames survive the wire

`FrameCodec.Representable` says which frames the codec carries faithfully: the payload fits the
frame limit, and the texts inside the two line-oriented payloads do not collide with their
separators.  A variable must not have `=` in its key nor a line feed anywhere, and a field of a
session line must have neither tabs nor line ends.

The condition is exact: any other frame is refused, or is read back as another frame.

## Main results

* `parseEnv_envText_iff` : an `Env` text is read back exactly when its variables are safe.
* `parseSessionInfo_sessionInfoText_iff` : a `SessionInfo` text exactly when its entries are.
* `decodePayload_payload_iff` : a payload is read back exactly when its texts are safe.
* `accepted_iff` : an encoded frame is accepted exactly when it is within the limit.
* `decode_encode_iff` : on an encoded frame followed by anything, the decoder answers this frame and
  leaves what follows if and only if the frame is representable.
-/

namespace Gritty

namespace FrameCodec

open Bytes Text

/-- The payload of an encoded frame. -/
def payload (f : Frame) : List UInt8 := (encode f []).drop headerLen

/-- The type byte of an encoded frame. -/
def typeByte (f : Frame) : UInt8 := (encode f []).headD 0

/-- The variables of an `Env` frame do not collide with `=` and the line ends.  A carriage return
at the end of a value is part of a line end unless the value is the last one. -/
def EnvSafe (vars : List (String × String)) : Prop :=
  (∀ kv ∈ vars, '=' ∉ kv.1.toList ∧ '\n' ∉ kv.1.toList ∧ '\n' ∉ kv.2.toList) ∧
    ∀ kv ∈ vars.dropLast, kv.2.toList.getLast? ≠ some '\r'

/-- A text that can be a field of a `SessionInfo` line. -/
def FieldSafe (s : String) : Prop := '\t' ∉ s.toList ∧ '\n' ∉ s.toList

instance (s : String) : Decidable (FieldSafe s) := inferInstanceAs (Decidable (_ ∧ _))

/-- The texts of a session entry do not collide with tabs and line ends. -/
def EntrySafe (e : SessionEntry) : Prop := FieldSafe e.id ∧ FieldSafe e.name ∧ FieldSafe e.ptyPath

/-- The texts of a frame do not collide with the separators of its payload. -/
def TextSafe : Frame → Prop
  | .env vars => EnvSafe vars
  | .sessionInfo sessions => ∀ e ∈ sessions, EntrySafe e
  | _ => True

/-- The frames that the codec carries faithfully. -/
def Representable (f : Frame) : Prop := (payload f).length ≤ maxFrameSize ∧ TextSafe f

/-! ### The shape of an encoded frame -/

theorem length_putLen (n : ℕ) : (putLen n).length = 4 := rfl

theorem encode_nil_eq (f : Frame) :
    encode f [] = typeByte f :: (putLen (payload f).length ++ payload f) := by
  cases f <;> rfl

/-- The announced length is that of the payload, cut to 32 bits. -/
theorem payloadLen_encode (f : Frame) (r : List UInt8) :
    payloadLen (encode f [] ++ r) = (payload f).length % 2 ^ 32 := by
  rw [encode_nil_eq]
  show (ofBeU32 _ _ _ _).toNat = _
  rw [ofBeU32_beU32, UInt32.toNat_ofNat']

theorem headD_encode (f : Frame) (r : List UInt8) : (encode f [] ++ r).headD 0 = typeByte f := by
  rw [encode_nil_eq]
  rfl

theorem drop_encode (f : Frame) (r : List UInt8) :
    (encode f [] ++ r).drop headerLen = payload f ++ r := by
  rw [encode_nil_eq]
  rfl

theorem length_encode (f : Frame) : (encode f []).length = headerLen + (payload f).length := by
  rw [encode_nil_eq, List.length_cons, List.length_append, length_putLen, headerLen]
  omega

/-! ### Texts -/

@[simp] theorem decodeString_utf8 (s : String) : decodeString (utf8 s) = .ok s := by
  simp [decodeString]

/-- The line of a variable. -/
def envLine (kv : String × String) : List Char := kv.1.toList ++ '=' :: kv.2.toList

theorem toList_envText (vars : List (String × String)) :
    (envText vars).toList = ['\n'].intercalate (vars.map envLine) := by
  simp only [envText, String.toList_intercalate, List.map_map]
  congr 1
  exact List.map_congr_left fun kv _ => by simp [envLine]

/-- The empty text needs no case of its own: it has no lines. -/
theorem parseEnv_eq (text : String) : parseEnv text =
    (lines text.toList).filterMap fun line =>
      (splitOnce '=' line).map fun kv => (String.ofList kv.1, String.ofList kv.2) := by
  unfold parseEnv
  split
  · next h =>
    obtain rfl : text = "" := by simpa using h
    rfl
  · rfl

theorem parseSessionInfo_eq (text : String) :
    parseSessionInfo text = (lines text.toList).filterMap parseEntry := by
  unfold parseSessionInfo
  split
  · next h =>
    obtain rfl : text = "" := by simpa using h
    rfl
  · rfl

/-- Decoded variables have no `=` in the key and no line feed. -/
theorem safe_of_mem_parseEnv {text : String} {kv : String × String} (h : kv ∈ parseEnv text) :
    '=' ∉ kv.1.toList ∧ '\n' ∉ kv.1.toList ∧ '\n' ∉ kv.2.toList := by
  rw [parseEnv_eq, List.mem_filterMap] at h
  obtain ⟨line, hline, h⟩ := h
  obtain ⟨⟨k, v⟩, hsplit, rfl⟩ := Option.map_eq_some_iff.1 h
  obtain ⟨hk, rfl⟩ := splitOnce_eq_some_iff.1 hsplit
  have hlf := notMem_of_mem_lines hline
  simp only [List.mem_append, List.mem_cons, not_or] at hlf
  simp [hk, hlf.1, hlf.2.2]

/-- A variable whose value lost the carriage return that a line end absorbs. -/
def stripValue (kv : String × String) : String × String :=
  (kv.1, String.ofList (stripCr kv.2.toList))

theorem stripValue_eq_self_iff {kv : String × String} :
    stripValue kv = kv ↔ kv.2.toList.getLast? ≠ some '\r' := by
  rw [← stripCr_eq_self_iff]
  constructor
  · intro h
    simpa [stripValue] using congrArg (fun kv => kv.2.toList) h
  · intro h
    simp [stripValue, h]

/-- What decoding makes of variables without `=` in a key and without line feeds. -/
theorem parseEnv_envText {vars : List (String × String)}
    (h : ∀ kv ∈ vars, '=' ∉ kv.1.toList ∧ '\n' ∉ kv.1.toList ∧ '\n' ∉ kv.2.toList) :
    parseEnv (envText vars) = vars.dropLast.map stripValue ++ vars.getLast?.toList := by
  have hlf : ∀ l ∈ vars.map envLine, '\n' ∉ l := by
    intro l hl
    obtain ⟨kv, hkv, rfl⟩ := List.mem_map.1 hl
    simp [envLine, h kv hkv]
  have hne : ∀ l ∈ vars.map envLine, l ≠ [] := by
    intro l hl
    obtain ⟨kv, -, rfl⟩ := List.mem_map.1 hl
    simp [envLine]
  have hsplit : ∀ kv ∈ vars, (splitOnce '=' (envLine kv)).map
      (fun kv => (String.ofList kv.1, String.ofList kv.2)) = some kv := by
    intro kv hkv
    simp [envLine, splitOnce_append (h kv hkv).1]
  have hstrip : ∀ kv ∈ vars, (splitOnce '=' (stripCr (envLine kv))).map
      (fun kv => (String.ofList kv.1, String.ofList kv.2)) = some (stripValue kv) := by
    intro kv hkv
    rw [envLine, stripCr_append_cons (by decide), splitOnce_append (h kv hkv).1]
    simp [stripValue]
  rw [parseEnv_eq, toList_envText, lines_intercalate hlf hne, List.filterMap_append]
  congr 1
  · rw [← List.map_dropLast, List.map_map, List.filterMap_map]
    rw [← List.filterMap_eq_map]
    exact List.filterMap_congr fun kv hkv => hstrip kv (List.dropLast_subset _ hkv)
  · rw [List.getLast?_map]
    cases hl : vars.getLast? with
    | none => rfl
    | some kv => simp [hsplit kv (List.mem_of_getLast? hl)]

/-- **An `Env` text is read back exactly when its variables are safe.** -/
theorem parseEnv_envText_iff {vars : List (String × String)} :
    parseEnv (envText vars) = vars ↔ EnvSafe vars := by
  constructor
  · intro h
    have hsafe : ∀ kv ∈ vars, '=' ∉ kv.1.toList ∧ '\n' ∉ kv.1.toList ∧ '\n' ∉ kv.2.toList :=
      fun kv hkv => safe_of_mem_parseEnv (h.symm ▸ hkv)
    refine ⟨hsafe, ?_⟩
    intro kv hkv
    have hinit : vars.dropLast.map stripValue = vars.dropLast := by
      have happ := parseEnv_envText hsafe
      rw [h] at happ
      exact List.append_cancel_right (happ.symm.trans (dropLast_append_getLast? vars).symm)
    have hkv' : stripValue kv = kv := by
      have := List.map_inj_left.1 (hinit.trans (List.map_id _).symm) kv hkv
      simpa using this
    exact stripValue_eq_self_iff.1 hkv'
  · rintro ⟨hsafe, hcr⟩
    have hinit : vars.dropLast.map stripValue = vars.dropLast := by
      conv_rhs => rw [← List.map_id vars.dropLast]
      exact List.map_congr_left fun kv hkv => stripValue_eq_self_iff.2 (hcr kv hkv)
    rw [parseEnv_envText hsafe, hinit, dropLast_append_getLast?]

/-! ### Session lines -/

/-- The fields of a session line. -/
def entryFields (e : SessionEntry) : List (List Char) :=
  [e.id.toList, e.name.toList, e.ptyPath.toList, (toString e.shellPid).toList,
    (toString e.createdAt).toList, if e.attached then ['1'] else ['0'],
    (toString e.lastHeartbeat).toList]

theorem toList_entryText (e : SessionEntry) :
    (entryText e).toList = ['\t'].intercalate (entryFields e) := by
  simp only [entryText, String.toList_intercalate, entryFields, List.map_cons, List.map_nil]
  congr 7
  cases e.attached <;> rfl

theorem toList_sessionInfoText (sessions : List SessionEntry) :
    (sessionInfoText sessions).toList =
      ['\n'].intercalate (sessions.map fun e => (entryText e).toList) := by
  simp only [sessionInfoText, String.toList_intercalate, List.map_map]
  rfl

theorem notMem_toString_uint32 {c : Char} (hc : c.isDigit = false) (n : UInt32) :
    c ∉ (toString n).toList := by
  rw [toList_toString_uint32]
  exact notMem_toDigits hc

theorem notMem_toString_uint64 {c : Char} (hc : c.isDigit = false) (n : UInt64) :
    c ∉ (toString n).toList := by
  rw [toList_toString_uint64]
  exact notMem_toDigits hc

theorem notMem_entryFields_iff {e : SessionEntry} {c : Char} (hc : c.isDigit = false) :
    (∀ l ∈ entryFields e, c ∉ l) ↔ c ∉ e.id.toList ∧ c ∉ e.name.toList ∧ c ∉ e.ptyPath.toList := by
  have hattached : c ∉ if e.attached then ['1'] else ['0'] := by
    split <;> (rw [List.mem_singleton]; rintro rfl; simp at hc)
  simp [entryFields, notMem_toString_uint32 hc, notMem_toString_uint64 hc, hattached]

theorem parseEntry_entryText {e : SessionEntry} (h : ∀ l ∈ entryFields e, '\t' ∉ l) :
    parseEntry (entryText e).toList = some e := by
  rw [parseEntry, toList_entryText, List.splitOn_intercalate _ h (by simp [entryFields])]
  cases e with
  | mk id name ptyPath shellPid createdAt attached lastHeartbeat =>
    cases attached <;> simp [entryFields]

/-- The fields of a line that is read have neither tabs nor line ends. -/
theorem safe_of_parseEntry {line : List Char} {e : SessionEntry} (h : parseEntry line = some e)
    (hlf : '\n' ∉ line) : EntrySafe e := by
  have hfield : ∀ s ∈ (line.splitOn '\t').map String.ofList, FieldSafe s := by
    intro s hs
    obtain ⟨l, hl, rfl⟩ := List.mem_map.1 hs
    rw [FieldSafe, String.toList_ofList]
    exact ⟨notMem_of_mem_splitOn hl, fun h => hlf (subset_of_mem_splitOn hl h)⟩
  unfold parseEntry at h
  split at h
  · next hfields =>
    rw [hfields] at hfield
    obtain rfl := Option.some.inj h
    exact ⟨hfield _ (by simp), hfield _ (by simp), hfield _ (by simp)⟩
  · simp at h

theorem stripCr_entryText (e : SessionEntry) :
    stripCr (entryText e).toList = (entryText e).toList := by
  obtain ⟨fields, hfields⟩ : ∃ fields : List Char,
      (entryText e).toList = fields ++ '\t' :: (toString e.lastHeartbeat).toList := by
    rw [toList_entryText]
    exact ⟨['\t'].intercalate (entryFields e).dropLast, by simp [entryFields]⟩
  rw [hfields, stripCr_append_cons (by decide), stripCr_eq_self_iff.2]
  exact fun h => notMem_toString_uint64 (by decide) _ (List.mem_of_getLast? h)

theorem filterMap_parseEntry {sessions : List SessionEntry} (h : ∀ e ∈ sessions, EntrySafe e) :
    (sessions.map fun e => (entryText e).toList).filterMap parseEntry = sessions := by
  have hentry : ∀ e ∈ sessions, (parseEntry ∘ fun e => (entryText e).toList) e = some e := by
    intro e he
    obtain ⟨hid, hname, hpath⟩ := h e he
    rw [Function.comp_apply]
    apply parseEntry_entryText
    rw [notMem_entryFields_iff (by decide)]
    exact ⟨hid.1, hname.1, hpath.1⟩
  rw [List.filterMap_map, List.filterMap_congr hentry, List.filterMap_some]

/-- **A `SessionInfo` text is read back exactly when its entries are safe.** -/
theorem parseSessionInfo_sessionInfoText_iff {sessions : List SessionEntry} :
    parseSessionInfo (sessionInfoText sessions) = sessions ↔ ∀ e ∈ sessions, EntrySafe e := by
  rw [parseSessionInfo_eq]
  constructor
  · intro h e he
    rw [← h, List.mem_filterMap] at he
    obtain ⟨line, hline, he⟩ := he
    exact safe_of_parseEntry he (notMem_of_mem_lines hline)
  · intro h
    have hlf : ∀ l ∈ sessions.map fun e => (entryText e).toList, '\n' ∉ l := by
      intro l hl
      obtain ⟨e, he, rfl⟩ := List.mem_map.1 hl
      obtain ⟨hid, hname, hpath⟩ := h e he
      rw [toList_entryText]
      apply notMem_intercalate (by decide)
      rw [notMem_entryFields_iff (by decide)]
      exact ⟨hid.2, hname.2, hpath.2⟩
    have hne : ∀ l ∈ sessions.map fun e => (entryText e).toList, l ≠ [] := by
      intro l hl
      obtain ⟨e, -, rfl⟩ := List.mem_map.1 hl
      simp [toList_entryText, entryFields]
    have hstrip : (sessions.map fun e => (entryText e).toList).dropLast.map stripCr =
        (sessions.map fun e => (entryText e).toList).dropLast := by
      rw [← List.map_dropLast, List.map_map]
      refine List.map_congr_left ?_
      intro e _
      rw [Function.comp_apply, stripCr_entryText]
    rw [toList_sessionInfoText, lines_intercalate hlf hne, hstrip, dropLast_append_getLast?,
      filterMap_parseEntry h]

/-! ### The codec -/

/-- The payload of a frame is read back exactly when its texts are safe. -/
theorem decodePayload_payload_iff (f : Frame) :
    decodePayload (typeByte f) (payload f) = .ok f ↔ TextSafe f := by
  cases f with
  | env vars =>
    show (decodeString (utf8 (envText vars))).map _ = _ ↔ EnvSafe vars
    rw [← parseEnv_envText_iff, decodeString_utf8]
    simp [Except.map]
  | sessionInfo sessions =>
    show (decodeString (utf8 (sessionInfoText sessions))).map _ = _ ↔ ∀ e ∈ sessions, EntrySafe e
    rw [← parseSessionInfo_sessionInfoText_iff, decodeString_utf8]
    simp [Except.map]
  | resize cols rows =>
    show Except.ok (Frame.resize _ _) = _ ↔ True
    rw [ofBeU16_beU16, ofBeU16_beU16]
    exact iff_of_true rfl trivial
  | exit code =>
    show Except.ok (Frame.exit _) = _ ↔ True
    rw [ofBeU32_beU32]
    exact iff_of_true rfl trivial
  | data bytes => exact iff_of_true rfl trivial
  | newSession s | attach s | killSession s | sessionCreated s | error s =>
    show (decodeString (utf8 s)).map _ = _ ↔ True
    simp [Except.map]
  | detached | ping | pong | listSessions | killServer | ok => exact iff_of_true rfl trivial

/-- What the decoder answers on an encoded frame was read from a payload of the announced length. -/
theorem of_decode_encode {f g : Frame} {r r' : List UInt8}
    (h : decode (encode f [] ++ r) = (.ok (some g), r')) :
    (payload f).length % 2 ^ 32 ≤ maxFrameSize ∧
      decodePayload (typeByte f) ((payload f ++ r).take ((payload f).length % 2 ^ 32)) = .ok g ∧
      r' = (payload f ++ r).drop ((payload f).length % 2 ^ 32) := by
  obtain ⟨-, hmax, hpay, hr⟩ := decode_some h
  rw [payloadLen_encode] at hmax
  rw [headD_encode, drop_encode, payloadLen_encode] at hpay
  rw [← List.drop_drop, drop_encode, payloadLen_encode] at hr
  exact ⟨hmax, hpay, hr⟩

/-- An encoded frame within the limit is taken off the buffer, and its payload decoded. -/
theorem decode_encode {f : Frame} (h : (payload f).length ≤ maxFrameSize) (r : List UInt8) :
    decode (encode f [] ++ r) = ((decodePayload (typeByte f) (payload f)).map some, r) := by
  have hlen : payloadLen (encode f [] ++ r) = (payload f).length := by
    rw [payloadLen_encode]
    exact Nat.mod_eq_of_lt (Nat.lt_of_le_of_lt h (by decide))
  rw [decode_of_complete, ← List.drop_drop, headD_encode, drop_encode, hlen, List.take_left,
    List.drop_left]
  · rw [hlen, List.length_append, length_encode]
    omega
  · rw [hlen]
    exact h

theorem length_payload_mod {f g : Frame} {r : List UInt8}
    (h : decode (encode f [] ++ r) = (.ok (some g), r)) :
    (payload f).length % 2 ^ 32 = (payload f).length := by
  obtain ⟨-, -, hr⟩ := of_decode_encode h
  have := congrArg List.length hr
  rw [List.length_drop, List.length_append] at this
  have := Nat.mod_le (payload f).length (2 ^ 32)
  omega

/-- **Exact wire fidelity.**  On an encoded frame followed by anything, the decoder answers this
frame and leaves exactly what follows iff the frame is representable. -/
theorem decode_encode_iff (f : Frame) (r : List UInt8) :
    decode (encode f [] ++ r) = (.ok (some f), r) ↔ Representable f := by
  rw [Representable, ← decodePayload_payload_iff]
  constructor
  · intro h
    obtain ⟨hmax, hpay, -⟩ := of_decode_encode h
    rw [length_payload_mod h] at hmax hpay
    exact ⟨hmax, by rwa [List.take_left] at hpay⟩
  · rintro ⟨hmax, hpay⟩
    rw [decode_encode hmax, hpay]
    rfl

theorem decodePayload_payload_ok (f : Frame) :
    ∃ g, decodePayload (typeByte f) (payload f) = .ok g := by
  cases f with
  | env vars =>
    show ∃ g, (decodeString (utf8 (envText vars))).map _ = .ok g
    rw [decodeString_utf8]
    exact ⟨_, rfl⟩
  | sessionInfo sessions =>
    show ∃ g, (decodeString (utf8 (sessionInfoText sessions))).map _ = .ok g
    rw [decodeString_utf8]
    exact ⟨_, rfl⟩
  -- the other frames have no texts that could collide with a separator
  | _ => exact ⟨_, (decodePayload_payload_iff _).2 trivial⟩

/-- **An encoded frame is accepted exactly when it is within the limit.** -/
theorem accepted_iff (f : Frame) (r : List UInt8) :
    (∃ g, decode (encode f [] ++ r) = (.ok (some g), r)) ↔ (payload f).length ≤ maxFrameSize := by
  constructor
  · rintro ⟨g, h⟩
    obtain ⟨hmax, -, -⟩ := of_decode_encode h
    rwa [length_payload_mod h] at hmax
  · intro hmax
    obtain ⟨g, hg⟩ := decodePayload_payload_ok f
    exact ⟨g, by rw [decode_encode hmax, hg]; rfl⟩

end FrameCodec

end Gritty
