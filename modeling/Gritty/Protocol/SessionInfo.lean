import Gritty.Protocol.RoundTrip

/-!
# The answer to a `SessionInfo` frame

A client that decodes a `SessionInfo` frame looks at the entries and not at what is left in the
buffer.  Even so the entries are right only for a representable frame: the one thing to exclude is a
payload of 4 GiB or more, whose announced length is cut to 32 bits.

What is decoded then comes from at most `maxFrameSize` bytes, and the text of decoded entries is
never much longer than the text that they were read from: a line that is dropped costs nothing, and
a line that is read is printed again with at most its four numbers written out.  So the entries that
come out would not fill 4 GiB, and are not the ones that went in.

## Main results

* `length_payload_le_iff` : the size of the payload, row by row.
* `length_sessionInfoText_le` : the entries read from a text print to a text of about its length.
* `decode_sessionInfo_fst_iff` : the entries are decoded exactly when the frame is representable.
-/

namespace Gritty

namespace FrameCodec

open Bytes Text

variable {line : List Char} {e : SessionEntry} {sessions : List SessionEntry}

theorem length_entryText (e : SessionEntry) :
    (entryText e).toList.length + 1 = ((entryFields e).map fun l => l.length + 1).sum := by
  rw [toList_entryText]
  exact length_intercalate (by simp [entryFields])

theorem length_entryText_le (h : parseEntry line = some e) :
    (entryText e).toList.length ≤ line.length + 61 := by
  have hline : line.length + 1 =
      (((line.splitOn '\t').map String.ofList).map fun s => s.toList.length + 1).sum := by
    have hne : line.splitOn '\t' ≠ [] := List.splitOn_ne_nil _ _
    have hlen := length_intercalate (d := '\t') hne
    rw [List.intercalate_splitOn] at hlen
    rw [hlen, List.map_map]
    simp [Function.comp_def]
  have htext := length_entryText e
  unfold parseEntry at h
  split at h
  · next id name ptyPath shellPid createdAt attached lastHeartbeat hfields =>
    rw [hfields] at hline
    obtain rfl := Option.some.inj h
    have hattached : ∀ b : Bool, (if b then ['1'] else ['0']).length = 1 := by decide
    simp only [entryFields, List.map_cons, List.map_nil, List.sum_cons, List.sum_nil,
      hattached] at htext hline
    have hpid := length_toString_uint32_le ((parseU32 shellPid).getD 0)
    have hcreated := length_toString_uint64_le ((parseU64 createdAt).getD 0)
    have hbeat := length_toString_uint64_le ((parseU64 lastHeartbeat).getD 0)
    omega
  · cases h

theorem sum_filterMap_parseEntry_le (ls : List (List Char)) :
    ((ls.filterMap parseEntry).map fun e => (entryText e).toList.length + 1).sum ≤
      62 * (ls.map fun l => l.length + 1).sum := by
  induction ls with
  | nil => simp
  | cons l ls ih =>
    rw [List.map_cons, List.sum_cons]
    cases he : parseEntry l with
    | none =>
      rw [List.filterMap_cons_none he]
      omega
    | some e =>
      have hle := length_entryText_le he
      rw [List.filterMap_cons_some he, List.map_cons, List.sum_cons]
      omega

theorem length_sessionInfoText_le (text : String) :
    (sessionInfoText (parseSessionInfo text)).toList.length ≤ 62 * (text.toList.length + 1) := by
  rw [toList_sessionInfoText, parseSessionInfo_eq]
  have hjoin := length_intercalate_le '\n'
    (((lines text.toList).filterMap parseEntry).map fun e => (entryText e).toList)
  rw [List.map_map] at hjoin
  have hsum := sum_filterMap_parseEntry_le (lines text.toList)
  have hlines := length_lines_le text.toList
  simp only [Function.comp_def] at hjoin
  omega

/-- The size of the payload, row by row. -/
theorem length_payload_le_iff (n : ℕ) : (payload (.sessionInfo sessions)).length ≤ n ↔
    (sessions.map fun e => (utf8 (entryText e)).length + 1).sum ≤ n + 1 := by
  show (utf8 (sessionInfoText sessions)).length ≤ n ↔ _
  by_cases h : sessions = []
  · subst h
    exact iff_of_true (Nat.zero_le _) (Nat.zero_le _)
  · have hne : sessions.map entryText ≠ [] := by simpa using h
    have hlen := length_utf8_intercalate (d := "\n") (by decide) hne
    rw [List.map_map] at hlen
    rw [sessionInfoText]
    simp only [Function.comp_def] at hlen
    omega

theorem length_payload_lt {bs : List UInt8} (hbs : bs.length ≤ maxFrameSize)
    (h : decodePayload (typeByte (.sessionInfo sessions)) bs = .ok (.sessionInfo sessions)) :
    (payload (.sessionInfo sessions)).length < 2 ^ 32 := by
  change (decodeString bs).map _ = _ at h
  unfold decodeString at h
  split at h
  · next text htext =>
    obtain rfl : parseSessionInfo text = sessions := by
      simpa [Except.map] using h
    obtain rfl : utf8 text = bs := utf8_of_fromUtf8 htext
    have hprint := length_utf8_le (sessionInfoText (parseSessionInfo text))
    have hread := length_sessionInfoText_le text
    have htext' := length_le_length_utf8 text
    show (utf8 (sessionInfoText (parseSessionInfo text))).length < 2 ^ 32
    have hmax : maxFrameSize = 1048576 := rfl
    omega
  · cases h

/-- **The entries are decoded exactly when the frame is representable.** -/
theorem decode_sessionInfo_fst_iff :
    (decode (encode (.sessionInfo sessions) [])).1 = .ok (some (.sessionInfo sessions)) ↔
      Representable (.sessionInfo sessions) := by
  rw [Representable, ← decodePayload_payload_iff, ← List.append_nil (encode _ [])]
  constructor
  · intro h
    obtain ⟨hmax, hpay, -⟩ := of_decode_encode (Prod.ext h rfl)
    rw [List.append_nil] at hpay
    have hexact : (payload (.sessionInfo sessions)).length % 2 ^ 32 =
        (payload (.sessionInfo sessions)).length := by
      refine Nat.mod_eq_of_lt (length_payload_lt ?_ hpay)
      rw [List.length_take]
      exact Nat.le_trans (Nat.min_le_left _ _) hmax
    rw [hexact] at hmax hpay
    exact ⟨hmax, by rwa [List.take_length] at hpay⟩
  · rintro ⟨hmax, hpay⟩
    rw [decode_encode hmax, hpay]
    rfl

end FrameCodec

end Gritty
