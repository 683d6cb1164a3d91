import Gritty.Daemon.Listing

/-!
# Replies that the client can read

Only the decoder looks at the size of a frame.  A refusal repeats the name or target of the request
in a longer message, and a listing has a row for each session, so a reply can be larger than what
the client accepts.

## Main definitions

* `Readable` : the decoder gives the frame back.
* `ReplyFits` : for each request, when its reply is not too large: the name of a refused session,
  the target of a refused request, the rows of a listing.

## Main results

* `length_payload_error` : the size of a message with a text of the request in it.
* `repliesReadable_iff` : in every run, the client decodes every reply without an error if and only
  if the replies of all requests fit.
-/

namespace Gritty

namespace Daemon

open Bytes Text FrameCodec

/-- The reply is taken off the client's buffer whole and decoded without an error. -/
def Readable (s' : State) (framed : Conn) : Prop :=
  ∃ reply next, s'.control = .replying framed reply next ∧
    ∀ r, ∃ g, decode (encode reply [] ++ r) = (.ok (some g), r)

/-- An `Attach` request finds no session, or one whose task has ended. -/
def AttachRefused (s : State) (session : String) : Prop :=
  ∀ id ∈ resolveSession s.reap.sessions session, ∀ state ∈ s.reap.sessions.lookup id,
    (s.tasks state.handle).isClosed = true

/-- The reply to a request fits one frame: a refusal leaves room for its message, and a listing for
its rows. -/
def ReplyFits (s : State) : Frame → Prop
  | .newSession name => name ≠ "" → Named s.sessions name →
      (utf8 "session name already exists: ").length + (utf8 name).length ≤ maxFrameSize
  | .attach session => AttachRefused s session →
      (utf8 "no such session: ").length + (utf8 session).length ≤ maxFrameSize
  | .killSession session => resolveSession s.reap.sessions session = none →
      (utf8 "no such session: ").length + (utf8 session).length ≤ maxFrameSize
  | .listSessions => listingSize s ≤ maxFrameSize + 1
  | .data _ | .resize _ _ | .exit _ | .detached | .ping | .pong | .env _ | .killServer
  | .sessionCreated _ | .sessionInfo _ | .ok | .error _ => True

/-- The request that a move serves. -/
def requestOf (m : Move State Event) : Option Frame :=
  match m.src.control, m.lbl with
  | .reading _, .request (some (.ok frame)) => some frame
  | _, _ => none

/-- The reply to the request that a move serves is readable. -/
def ReplyReadable (m : Move State Event) : Prop :=
  ∀ framed, m.src.control = .reading framed → ∀ frame ∈ requestOf m, Readable m.dst framed

/-- The reply to the request that a move serves does not fit. -/
def ReplyOverflows (m : Move State Event) : Prop := ∃ frame ∈ requestOf m, ¬ ReplyFits m.src frame

instance (sessions : Sessions) (n : String) : Decidable (Named sessions n) :=
  decidable_of_iff _ any_name_iff

instance (s : State) (session : String) : Decidable (AttachRefused s session) :=
  inferInstanceAs (Decidable (∀ id ∈ _, ∀ state ∈ _, _ = true))

instance (s : State) : DecidablePred (ReplyFits s)
  | .newSession _ => inferInstanceAs (Decidable (_ → _ → _))
  | .attach _ | .killSession _ => inferInstanceAs (Decidable (_ → _))
  | .listSessions => inferInstanceAs (Decidable (_ ≤ _))
  | .data _ | .resize _ _ | .exit _ | .detached | .ping | .pong | .env _ | .killServer
  | .sessionCreated _ | .sessionInfo _ | .ok | .error _ => isTrue trivial

instance : DecidablePred ReplyOverflows :=
  fun m => inferInstanceAs (Decidable (∃ frame ∈ requestOf m, _))

variable {s s' : State} {framed : Conn} {frame : Frame} {tr : List (Move State Event)}

theorem readable_reply {reply : Frame} {next : Next}
    (h : s'.control = .replying framed reply next) :
    Readable s' framed ↔ (payload reply).length ≤ maxFrameSize := by
  constructor
  · rintro ⟨reply', next', h', ha⟩
    rw [h] at h'
    cases h'
    exact (accepted_iff reply []).1 (ha [])
  · intro hmax
    exact ⟨reply, next, h, fun r => (accepted_iff reply r).2 hmax⟩

/-- A message with a text of the request in it. -/
theorem length_payload_error (prefix' text : String) :
    (payload (.error (prefix' ++ text))).length = (utf8 prefix').length + (utf8 text).length := by
  show (utf8 (prefix' ++ text)).length = _
  rw [utf8_append, List.length_append]

theorem length_utf8_toString_le (id : UInt32) : (utf8 (toString id)).length ≤ maxFrameSize := by
  have h₁ := length_utf8_le (toString id)
  have h₂ := length_toString_uint32_le id
  have hmax : maxFrameSize = 1048576 := rfl
  omega

theorem length_payload_ok : (payload .ok).length ≤ maxFrameSize := by decide

theorem readable_iff (hc : s.control = .reading framed)
    (h : lts.step s (.request (some (.ok frame))) s') : Readable s' framed ↔ ReplyFits s frame := by
  cases serve_of_step hc h with
  | duplicate hne hn =>
    rw [readable_reply rfl, length_payload_error]
    exact ⟨fun h _ _ => h, fun h => h hne hn⟩
  | created hno =>
    rw [readable_reply rfl]
    exact iff_of_true (length_utf8_toString_le _) fun hne hn => absurd hn (hno hne)
  | attachNone hr =>
    rw [readable_reply rfl, noSuchSession, length_payload_error]
    exact ⟨fun h _ => h, fun h => h fun id hr' => by rw [hr] at hr'; cases hr'⟩
  | @attachClosed session id state hr hl hcl =>
    rw [readable_reply rfl, noSuchSession, length_payload_error]
    refine ⟨fun h _ => h, fun h => h fun id' hr' state' hl' => ?_⟩
    obtain rfl := Option.some.inj (hr.symm.trans hr')
    obtain rfl := Option.some.inj (hl.symm.trans hl')
    exact hcl
  | attached hr hl hcl =>
    rw [readable_reply rfl]
    refine iff_of_true length_payload_ok fun href => ?_
    have := href _ hr _ hl
    rw [hcl] at this
    cases this
  | listed =>
    have hl : (s.reap.list framed).control = .replying framed
      (.sessionInfo (buildSessionEntries s.tasks s.reap.sessions)) .again := rfl
    rw [readable_reply hl, length_payload_build_le_iff, ReplyFits]
  | killNone hr =>
    rw [readable_reply rfl, noSuchSession, length_payload_error]
    exact ⟨fun h _ => h, fun h => h hr⟩
  | killed hr =>
    rw [readable_reply rfl]
    exact iff_of_true length_payload_ok fun hno => by rw [hr] at hno; cases hno
  | shutdown =>
    rw [readable_reply rfl]
    exact iff_of_true length_payload_ok trivial
  | unexpected hn =>
    rw [readable_reply rfl]
    have hmax : (payload (.error "unexpected frame type")).length ≤ maxFrameSize := by decide
    cases frame with
    | newSession | attach | listSessions | killSession | killServer => exact absurd trivial hn
    | _ => exact iff_of_true hmax trivial

theorem mem_requestOf {m : Move State Event} :
    frame ∈ requestOf m ↔ (∃ framed, m.src.control = .reading framed) ∧
      m.lbl = .request (some (.ok frame)) := by
  constructor
  · intro h
    unfold requestOf at h
    split at h
    · next framed frame' hc hl =>
      obtain rfl := Option.some.inj h
      exact ⟨⟨framed, hc⟩, hl⟩
    · cases h
  · rintro ⟨⟨framed, hc⟩, hl⟩
    unfold requestOf
    rw [hc, hl]
    rfl

/-- **Replies are readable exactly when they fit.**  In every run of the daemon, the client decodes
every reply without an error if and only if at each request: a refusal that repeats the name or
target of the request leaves room for its message, and the rows of a listing fit one frame. -/
theorem repliesReadable_iff (hr : lts.Run .init tr s) :
    (∀ m ∈ tr, ReplyReadable m) ↔ ∀ m ∈ tr, ¬ ReplyOverflows m := by
  refine forall₂_congr fun m hm => ?_
  obtain ⟨hst, -⟩ := hr.move hm
  constructor
  · rintro h ⟨frame, hf, hn⟩
    obtain ⟨⟨framed, hc⟩, hl⟩ := mem_requestOf.1 hf
    rw [hl] at hst
    exact hn ((readable_iff hc hst).1 (h framed hc frame hf))
  · intro h framed hc frame hf
    obtain ⟨-, hl⟩ := mem_requestOf.1 hf
    rw [hl] at hst
    refine (readable_iff hc hst).2 ?_
    by_contra hn
    exact h ⟨frame, hf, hn⟩

/-- The name `work` is asked for twice. -/
def replyEvents : List Event := newSessionEvents "work" ++ newSessionEvents "work"

/-- Both replies are readable, the refusal too. -/
theorem repliesReadable_iff_work :
    ∃ s, LTS.exec step .init replyEvents = some s ∧
      ∀ m ∈ LTS.trace step .init replyEvents, ReplyReadable m := by
  have h : ∃ s, LTS.exec step .init replyEvents = some s := ⟨_, rfl⟩
  obtain ⟨s, h⟩ := h
  exact ⟨s, h, (repliesReadable_iff (LTS.run_of_exec h)).2 (by decide)⟩

/-- A target of `n` letters. -/
def longTarget (n : ℕ) : String := String.ofList (List.replicate n 'a')

theorem length_utf8_longTarget (n : ℕ) : (utf8 (longTarget n)).length = n := by
  rw [utf8_eq_flatMap, longTarget, String.toList_ofList]
  induction n with
  | zero => rfl
  | succ n ih =>
    rw [List.replicate_succ, List.flatMap_cons, List.length_append, ih]
    exact Nat.add_comm 1 n

/-- The target of an `Attach` request fills a frame, and the refusal does not fit one. -/
theorem not_readable_attach :
    ∃ s s' reply next, lts.Reachable .init s ∧ s.control = .reading 0 ∧
      decode (encode (.attach (longTarget maxFrameSize)) []) =
        (.ok (some (.attach (longTarget maxFrameSize))), []) ∧
      lts.step s (.request (some (.ok (.attach (longTarget maxFrameSize))))) s' ∧
      s'.control = .replying 0 reply next ∧ (∃ e, (decode (encode reply [])).1 = .error e) ∧
      ¬ ReplyReadable ⟨s, .request (some (.ok (.attach (longTarget maxFrameSize)))), s'⟩ := by
  have h : ∃ s, LTS.exec step .init [.connect, .reap, .accept true] = some s ∧
      s.control = .reading 0 ∧ s.sessions = ∅ := ⟨_, rfl, rfl, rfl⟩
  obtain ⟨s, h, hc, hs⟩ := h
  -- there is no session to attach to
  have hres : resolveSession s.reap.sessions (longTarget maxFrameSize) = none := by
    have hr : s.reap.sessions = ∅ := by
      rw [State.reap, hs]
      rfl
    rw [hr, Option.eq_none_iff_forall_ne_some]
    exact fun id hid => AList.notMem_empty id (mem_of_resolveSession hid)
  have hserve : s.serve 0 (.attach (longTarget maxFrameSize)) =
      s.reap.reply 0 (noSuchSession (longTarget maxFrameSize)) .again := by
    show s.reap.attach 0 _ = _
    rw [State.attach, hres]
  have hst : lts.step s (.request (some (.ok (.attach (longTarget maxFrameSize)))))
      (s.reap.reply 0 (noSuchSession (longTarget maxFrameSize)) .again) := by
    show step s _ = _
    rw [step, hc]
    exact congrArg some hserve
  have hlen : (payload (noSuchSession (longTarget maxFrameSize))).length = 17 + maxFrameSize := by
    rw [noSuchSession, length_payload_error, length_utf8_longTarget]
    rfl
  have hmax : maxFrameSize = 1048576 := rfl
  refine ⟨s, _, _, _, (LTS.run_of_exec h).reachable, hc, ?_, hst, rfl, ?_, fun hr => ?_⟩
  · rw [← List.append_nil (encode _ []), decode_encode_iff]
    exact ⟨Nat.le_of_eq (length_utf8_longTarget _), trivial⟩
  · have hpl := payloadLen_encode (noSuchSession (longTarget maxFrameSize)) []
    rw [List.append_nil, hlen] at hpl
    rw [decode_of_oversize]
    · exact ⟨_, rfl⟩
    · rw [length_encode]
      omega
    · omega
  · have := (readable_reply rfl).1 (hr 0 hc _ (mem_requestOf.2 ⟨⟨0, hc⟩, rfl⟩))
    omega

end Daemon

end Gritty
