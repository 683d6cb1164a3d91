import Gritty.Protocol.RoundTrip
import Gritty.Server.FirstFrame
import Mathlib.Data.List.Induction
import Mathlib.Logic.Function.Basic

/-!
# The environment of the shell

The client collects three of its variables and sends them in an `Env` frame; the task reads it
before it spawns the shell and sets what it decoded.  The values travel as `KEY=VALUE` lines without
any escaping, so the shell gets the collected variables exactly when no value collides with a line
end and the frame is within the size limit.

## Main definitions

* `openingBytes` : what a client with a given environment sends first.
* `cmdEnv` : the variables that the shell was spawned with, read off the moves of a run.
* `Forwardable` : the variables survive the way.

## Main results

* `forwarding` : before the shell is spawned, the task reads one frame and keeps its variables.
* `envVars_firstNext` : the variables that it keeps are those of the opening bytes.
* `envVars_of_forwardable`, `forwardable_of_cmdEnv` : the two directions.
* `environment_iff` : once the shell runs, it has the variables of the client exactly when they are
  forwardable.
-/

namespace Gritty

open Bytes Text FrameCodec

namespace Server

/-- The frames that `relay` begins with on the first connection. -/
def openingBytes (vars : List (String × String)) (cols rows : UInt16) : List UInt8 :=
  (if vars = [] then [] else encode (.env vars) []) ++ encode (.resize cols rows) []

/-- What `framed.next()` makes of the first bytes of a connection: nothing yet, when no frame is
complete. -/
def firstNext (bytes : List UInt8) : Option NextFrame :=
  match (decode bytes).1 with
  | .ok (some f) => some (some (.ok f))
  | .ok none => none
  | .error e => some (some (.error (.decode e)))

/-- `cmd.env(k, v)` for each variable: the last value of a key counts. -/
def cmdEnv (vars : List (String × String)) : String → Option String :=
  vars.foldl (fun env kv => Function.update env kv.1 (some kv.2)) fun _ => none

/-- The values of the collected variables survive the lines of an `Env` frame: none has a line feed,
only the last one may end in a carriage return, and all fit one frame. -/
def Forwardable (vars : List (String × String)) : Prop :=
  (∀ kv ∈ vars, '\n' ∉ kv.2.toList) ∧
    (∀ kv ∈ vars.dropLast, kv.2.toList.getLast? ≠ some '\r') ∧
    (utf8 (envText vars)).length ≤ maxFrameSize

instance (vars : List (String × String)) : Decidable (Forwardable vars) :=
  inferInstanceAs (Decidable (_ ∧ _ ∧ _))

/-! ### Setting variables -/

section cmdEnv

variable {vars : List (String × String)} {k v : String}

theorem cmdEnv_append_single (kv : String × String) :
    cmdEnv (vars ++ [kv]) = Function.update (cmdEnv vars) kv.1 (some kv.2) := by
  simp [cmdEnv]

theorem mem_of_cmdEnv (h : cmdEnv vars k = some v) : (k, v) ∈ vars := by
  induction vars using List.reverseRecOn with
  | nil => cases h
  | append_singleton vars kv ih =>
    rw [cmdEnv_append_single] at h
    by_cases hk : k = kv.1
    · subst hk
      rw [Function.update_self] at h
      obtain rfl := Option.some.inj h
      simp
    · rw [Function.update_of_ne hk] at h
      exact List.mem_append_left _ (ih h)

theorem cmdEnv_of_mem (hn : (vars.map Prod.fst).Nodup) (h : (k, v) ∈ vars) :
    cmdEnv vars k = some v := by
  induction vars using List.reverseRecOn with
  | nil => cases h
  | append_singleton vars kv ih =>
    rw [List.map_append, List.nodup_append] at hn
    rw [cmdEnv_append_single]
    rcases List.mem_append.1 h with h | h
    · have hne : k ≠ kv.1 := hn.2.2 k (List.mem_map_of_mem h) kv.1 (by simp)
      rw [Function.update_of_ne hne]
      exact ih hn.1 h
    · obtain rfl := List.mem_singleton.1 h
      exact Function.update_self _ _ _

end cmdEnv

/-! ### Collecting variables -/

variable {env : String → Option String} {s s' : State} {e : Event}
  {tr : List (Move State Event)}

theorem mem_collectEnvVars {kv : String × String} :
    kv ∈ collectEnvVars env ↔ kv.1 ∈ forwardedKeys ∧ env kv.1 = some kv.2 := by
  obtain ⟨k, v⟩ := kv
  simp only [collectEnvVars, List.mem_filterMap, Option.map_eq_some_iff, Prod.mk.injEq]
  constructor
  · rintro ⟨k', hk, v', hv, rfl, rfl⟩
    exact ⟨hk, hv⟩
  · rintro ⟨hk, hv⟩
    exact ⟨k, hk, v, hv, rfl, rfl⟩

theorem keys_collect (keys : List String) :
    ((keys.filterMap fun k => (env k).map fun v => (k, v)).map Prod.fst).Sublist keys := by
  induction keys with
  | nil => exact .refl _
  | cons k keys ih =>
    cases hk : env k with
    | none =>
      rw [List.filterMap_cons_none (by rw [hk]; rfl)]
      exact ih.cons k
    | some v =>
      rw [List.filterMap_cons_some (by rw [hk]; rfl)]
      exact ih.cons_cons k

theorem nodup_collectEnvVars : ((collectEnvVars env).map Prod.fst).Nodup :=
  List.Nodup.sublist (keys_collect forwardedKeys) (by decide)

theorem safe_of_mem_forwardedKeys {k : String} (h : k ∈ forwardedKeys) :
    '=' ∉ k.toList ∧ '\n' ∉ k.toList ∧ k.toList.length ≤ 9 := by
  simp only [forwardedKeys, List.mem_cons, List.not_mem_nil, or_false] at h
  rcases h with rfl | rfl | rfl <;> decide

/-! ### What arrives -/

theorem length_le_of_mem_parseEnv {text k v : String} (h : (k, v) ∈ parseEnv text) :
    v.toList.length ≤ text.toList.length := by
  rw [parseEnv_eq, List.mem_filterMap] at h
  obtain ⟨line, hline, h⟩ := h
  obtain ⟨⟨k', v'⟩, hsplit, he⟩ := Option.map_eq_some_iff.1 h
  obtain ⟨-, rfl⟩ := splitOnce_eq_some_iff.1 hsplit
  obtain ⟨-, rfl⟩ := Prod.mk.inj he
  -- the line is one of the lines
  obtain ⟨ls₁, ls₂, hls⟩ := List.append_of_mem hline
  have hsum := length_lines_le text.toList
  simp only [hls, List.map_append, List.map_cons, List.sum_append, List.sum_cons,
    List.length_append, List.length_cons] at hsum
  rw [String.toList_ofList]
  show v'.length ≤ _
  omega

theorem firstNext_cases (bytes : List UInt8) :
    (∃ g r, decode bytes = (.ok (some g), r) ∧ firstNext bytes = some (some (.ok g))) ∨
      envVars (firstNext bytes) = [] := by
  unfold firstNext
  rcases decode bytes with ⟨e | _ | g, r⟩
  · exact .inr rfl
  · exact .inr rfl
  · exact .inl ⟨g, r, rfl, rfl⟩

theorem payload_env (vars : List (String × String)) :
    payload (.env vars) = utf8 (envText vars) := rfl

theorem decodePayload_env {bs : List UInt8} {g : Frame} {vars : List (String × String)}
    (h : decodePayload (typeByte (.env vars)) bs = .ok g) :
    ∃ text, utf8 text = bs ∧ g = .env (parseEnv text) := by
  change (decodeString bs).map _ = _ at h
  unfold decodeString at h
  split at h
  · next text htext => exact ⟨text, utf8_of_fromUtf8 htext, by simpa [Except.map, eq_comm] using h⟩
  · cases h

theorem envVars_firstNext {vars : List (String × String)} {r : List UInt8} {kv : String × String}
    (h : kv ∈ envVars (firstNext (encode (.env vars) [] ++ r))) :
    (utf8 (envText vars)).length % 2 ^ 32 ≤ maxFrameSize ∧ ∃ text,
      utf8 text = (utf8 (envText vars) ++ r).take ((utf8 (envText vars)).length % 2 ^ 32) ∧
      envVars (firstNext (encode (.env vars) [] ++ r)) = parseEnv text := by
  generalize hb : encode (.env vars) [] ++ r = bytes at h ⊢
  rcases firstNext_cases bytes with ⟨g, r', hd, hn⟩ | hn
  · rw [← hb] at hd
    obtain ⟨hmax, hpay, -⟩ := of_decode_encode hd
    rw [payload_env] at hmax hpay
    obtain ⟨text, htext, rfl⟩ := decodePayload_env hpay
    exact ⟨hmax, text, htext, by rw [hn]; rfl⟩
  · rw [hn] at h
    cases h

theorem envVars_of_forwardable {vars : List (String × String)} (r : List UInt8)
    (hk : ∀ kv ∈ vars, '=' ∉ kv.1.toList ∧ '\n' ∉ kv.1.toList) (h : Forwardable vars) :
    envVars (firstNext (encode (.env vars) [] ++ r)) = vars := by
  obtain ⟨hlf, hcr, hmax⟩ := h
  have hrep : Representable (.env vars) :=
    ⟨hmax, fun kv hkv => ⟨(hk kv hkv).1, (hk kv hkv).2, hlf kv hkv⟩, hcr⟩
  rw [firstNext, (decode_encode_iff _ r).2 hrep]
  rfl

theorem length_envText_lt {vars : List (String × String)} (hlen : vars.length ≤ 3)
    (h : ∀ kv ∈ vars, kv.1.toList.length ≤ 9 ∧ kv.2.toList.length ≤ maxFrameSize) :
    (utf8 (envText vars)).length < 2 ^ 32 := by
  have htext := length_utf8_le (envText vars)
  rw [toList_envText] at htext
  have hjoin := length_intercalate_le '\n' (vars.map envLine)
  rw [List.map_map] at hjoin
  have hsum : (vars.map ((fun l => l.length + 1) ∘ envLine)).sum ≤
      vars.length * (maxFrameSize + 11) := by
    clear hlen htext hjoin
    induction vars with
    | nil => simp
    | cons kv vars ih =>
      obtain ⟨hk, hv⟩ := h kv List.mem_cons_self
      have ih := ih fun kv hkv => h kv (List.mem_cons_of_mem _ hkv)
      simp only [List.map_cons, List.sum_cons, Function.comp_apply, envLine, List.length_append,
        List.length_cons, Nat.add_mul] at ih ⊢
      omega
  have hmul := Nat.mul_le_mul_right (maxFrameSize + 11) hlen
  have hmax : maxFrameSize = 1048576 := rfl
  omega

theorem forwardable_of_cmdEnv {vars : List (String × String)} {r : List UInt8}
    (hk : ∀ kv ∈ vars, '=' ∉ kv.1.toList ∧ '\n' ∉ kv.1.toList ∧ kv.1.toList.length ≤ 9)
    (hlen : vars.length ≤ 3) (hn : (vars.map Prod.fst).Nodup) (hne : vars ≠ [])
    (h : ∀ kv ∈ vars, cmdEnv (envVars (firstNext (encode (.env vars) [] ++ r))) kv.1 = some kv.2) :
    Forwardable vars := by
  obtain ⟨kv₀, hkv₀⟩ := List.exists_mem_of_ne_nil vars hne
  obtain ⟨hmod, text, htext, henv⟩ := envVars_firstNext (mem_of_cmdEnv (h kv₀ hkv₀))
  rw [henv] at h
  -- each value came through the text, which is within the limit
  have hmem : ∀ kv ∈ vars, kv ∈ parseEnv text := fun kv hkv => mem_of_cmdEnv (h kv hkv)
  have hsize : (utf8 text).length ≤ maxFrameSize := by
    rw [htext, List.length_take]
    exact Nat.le_trans (Nat.min_le_left _ _) hmod
  have hlt : (utf8 (envText vars)).length < 2 ^ 32 := by
    refine length_envText_lt hlen fun kv hkv => ⟨(hk kv hkv).2.2, ?_⟩
    have h₁ := length_le_of_mem_parseEnv (hmem kv hkv)
    have h₂ := length_le_length_utf8 text
    omega
  rw [Nat.mod_eq_of_lt hlt] at hmod htext
  rw [List.take_left] at htext
  obtain rfl : text = envText vars := by
    have := congrArg fromUtf8 htext
    simpa using this
  have hlf : ∀ kv ∈ vars, '\n' ∉ kv.2.toList :=
    fun kv hkv => (safe_of_mem_parseEnv (hmem kv hkv)).2.2
  refine ⟨hlf, fun kv hkv => ?_, hmod⟩
  -- a value before the last one comes through stripped
  have hsafe : ∀ kv ∈ vars, '=' ∉ kv.1.toList ∧ '\n' ∉ kv.1.toList ∧ '\n' ∉ kv.2.toList :=
    fun kv hkv => ⟨(hk kv hkv).1, (hk kv hkv).2.1, hlf kv hkv⟩
  have hkv' : kv ∈ vars := List.dropLast_subset _ hkv
  have hstrip : stripValue kv ∈ parseEnv (envText vars) := by
    rw [parseEnv_envText hsafe]
    exact List.mem_append_left _ (List.mem_map_of_mem hkv)
  have hkeys : ((parseEnv (envText vars)).map Prod.fst).Nodup := by
    have hfst : Prod.fst ∘ stripValue = Prod.fst := rfl
    rw [parseEnv_envText hsafe, List.map_append, List.map_map, hfst, ← List.map_append,
      dropLast_append_getLast?]
    exact hn
  have heq := cmdEnv_of_mem hkeys (k := kv.1) (v := (stripValue kv).2) hstrip
  rw [h kv hkv'] at heq
  exact stripValue_eq_self_iff.1 (Prod.ext rfl (Option.some.inj heq).symm)

/-! ### From the client to the shell -/

/-- What a move reads as the first frame. -/
def firstReadOf (m : Move State Event) : List (Option NextFrame) :=
  match m.lbl with
  | .firstFrame r => [r]
  | _ => []

/-- What was read as the first frame, once it was. -/
def firstRead (tr : List (Move State Event)) : List (Option NextFrame) := tr.flatMap firstReadOf

/-- Where the variables of the first frame are. -/
structure Forwarding (tr : List (Move State Event)) (s : State) : Prop where
  early : s.phase.Early → firstRead tr = [] ∧ s.child = .unborn
  spawning : ∀ framed vars, s.phase = .spawning framed vars →
    s.child = .unborn ∧ ∃ r, firstRead tr = [r] ∧ vars = envVars r
  spawned : s.child ≠ .unborn → ∃ r, firstRead tr = [r] ∧ s.shellEnv = envVars r

theorem firstReadOf_eq_nil (he : ∀ r, e ≠ .firstFrame r) : firstReadOf ⟨s, e, s'⟩ = [] := by
  unfold firstReadOf
  split
  · next r hr => exact absurd hr (he r)
  · rfl

theorem spawning_onNext {framed : Conn} {r : NextFrame} (hp : s.phase = .relay framed) :
    (s.onNext framed r).child = s.child ∧ (s.onNext framed r).shellEnv = s.shellEnv ∧
      ∀ c vars, (s.onNext framed r).phase ≠ .spawning c vars := by
  rcases r with _ | e | f
  · exact ⟨rfl, rfl, nofun⟩
  · exact ⟨rfl, rfl, nofun⟩
  · cases f with
    | data | ping | exit => exact ⟨rfl, rfl, nofun⟩
    | _ => exact ⟨rfl, rfl, by simp [State.onNext, hp]⟩

theorem forwarding_frame (h : Step s e s') (he : ∀ r, e ≠ .firstFrame r)
    (he' : ∀ pid, e ≠ .spawn (some pid)) :
    (s'.child = .unborn ↔ s.child = .unborn) ∧ s'.shellEnv = s.shellEnv ∧
      ∀ c vars, s'.phase = .spawning c vars → s.phase = .spawning c vars := by
  cases h with
  | firstFrame => exact absurd rfl (he _)
  | spawn => exact absurd rfl (he' _)
  | exit hc => exact ⟨by simp [hc], rfl, fun _ _ h => h⟩
  | next hp =>
    obtain ⟨h₁, h₂, h₃⟩ := spawning_onNext hp
    exact ⟨by rw [h₁], h₂, fun c vars h => absurd h (h₃ c vars)⟩
  | handOff | handOffLost | dropSenders | tick | output | hangup | readBlock | noTakeover =>
    exact ⟨.rfl, rfl, fun _ _ h => h⟩
  | _ => exact ⟨.rfl, rfl, nofun⟩

/-- Before the shell is spawned, the task reads one frame and keeps its variables. -/
theorem forwarding (hr : lts.Run .init tr s) : Forwarding tr s := by
  refine hr.invariant (P := fun _ => True) (I := Forwarding) (fun _ _ => trivial)
    ⟨fun _ => ⟨rfl, rfl⟩, by simp [State.init], by simp [State.init]⟩ ?_
  intro tr s e s' hi _ hst
  have h := step_cases hst
  have hfr : firstRead (tr ++ [⟨s, e, s'⟩]) = firstRead tr ++ firstReadOf ⟨s, e, s'⟩ := by
    simp [firstRead]
  by_cases he : ∃ r, e = .firstFrame r
  · obtain ⟨r, rfl⟩ := he
    cases h with
    | @firstFrame framed r hp =>
      obtain ⟨hfirst, hch⟩ := hi.early (.inr (.inr ⟨framed, hp⟩))
      refine ⟨by simp [Phase.Early], ?_, fun hc => absurd hch hc⟩
      intro framed' vars hv
      obtain ⟨rfl, rfl⟩ := Phase.spawning.inj hv
      exact ⟨hch, r, by rw [hfr, hfirst]; rfl, rfl⟩
  · have hnil : firstReadOf ⟨s, e, s'⟩ = [] := firstReadOf_eq_nil fun r hr => he ⟨r, hr⟩
    rw [hnil, List.append_nil] at hfr
    by_cases he' : ∃ pid, e = .spawn (some pid)
    · obtain ⟨pid, rfl⟩ := he'
      cases h with
      | spawn hp =>
        obtain ⟨-, r, hr, hv⟩ := hi.spawning _ _ hp
        exact ⟨by simp [Phase.Early, State.onSpawn], by simp [State.onSpawn],
          fun _ => ⟨r, hfr ▸ hr, hv⟩⟩
    · obtain ⟨hch, hsh, hsp⟩ := forwarding_frame h (fun r hr => he ⟨r, hr⟩) fun p hp => he' ⟨p, hp⟩
      refine ⟨fun hs' => ?_, fun framed vars hv => ?_, fun hc => ?_⟩
      · obtain ⟨hf, hc⟩ := hi.early ((early_step h).1 hs').1
        exact ⟨hfr ▸ hf, hch.2 hc⟩
      · obtain ⟨hc, hr⟩ := hi.spawning framed vars (hsp framed vars hv)
        exact ⟨hch.2 hc, hfr ▸ hr⟩
      · rw [hsh, hfr]
        exact hi.spawned (mt hch.2 hc)

/-- The variables that the task takes from the opening bytes: none when none were collected, since
the client then begins with `Resize`. -/
theorem envVars_opening_nil {cols rows : UInt16} (rest : List UInt8) :
    envVars (firstNext (openingBytes [] cols rows ++ rest)) = [] := by
  have hd : decode (encode (.resize cols rows) [] ++ rest) =
      (.ok (some (.resize cols rows)), rest) :=
    (decode_encode_iff _ rest).2 ⟨(by decide : 4 ≤ maxFrameSize), trivial⟩
  show envVars (firstNext (encode (.resize cols rows) [] ++ rest)) = []
  rw [firstNext, hd]
  rfl

theorem cmdEnv_collectEnvVars (k : String) :
    cmdEnv (collectEnvVars env) k = if k ∈ forwardedKeys then env k else none := by
  by_cases h : ∃ v, k ∈ forwardedKeys ∧ env k = some v
  · obtain ⟨v, hk, hv⟩ := h
    rw [cmdEnv_of_mem nodup_collectEnvVars (mem_collectEnvVars.2 ⟨hk, hv⟩), if_pos hk, hv]
  · have hnone : cmdEnv (collectEnvVars env) k = none := by
      rw [Option.eq_none_iff_forall_ne_some]
      intro v hv
      exact h ⟨v, mem_collectEnvVars.1 (mem_of_cmdEnv hv)⟩
    rw [hnone]
    split
    · next hk =>
      rw [eq_comm, Option.eq_none_iff_forall_ne_some]
      exact fun v hv => h ⟨v, hk, hv⟩
    · rfl

/-- **The environment is forwarded exactly when it is forwardable.**  Once the shell runs, after the
task read the opening bytes of a client with the environment `env`: a forwarded key is set to the
client's value and no other key is set, if and only if no collected value has a line feed, only the
last one ends in a carriage return, and the frame is within the size limit. -/
theorem environment_iff {cols rows : UInt16} {rest : List UInt8} (hr : lts.Run .init tr s)
    (hc : s.child ≠ .unborn)
    (hf : firstRead tr = [firstNext (openingBytes (collectEnvVars env) cols rows ++ rest)]) :
    (∀ k, cmdEnv s.shellEnv k = if k ∈ forwardedKeys then env k else none) ↔
      Forwardable (collectEnvVars env) := by
  obtain ⟨r, hr', hsh⟩ := (forwarding hr).spawned hc
  obtain rfl : r = _ := List.singleton_inj.1 (hr'.symm.trans hf)
  have hkeys : ∀ kv ∈ collectEnvVars env,
      '=' ∉ kv.1.toList ∧ '\n' ∉ kv.1.toList ∧ kv.1.toList.length ≤ 9 :=
    fun kv hkv => safe_of_mem_forwardedKeys (mem_collectEnvVars.1 hkv).1
  simp only [← cmdEnv_collectEnvVars]
  rw [hsh]
  by_cases hne : collectEnvVars env = []
  · rw [hne, envVars_opening_nil]
    exact iff_of_true (fun _ => rfl) ⟨by simp, by simp, by decide⟩
  · have hopen : openingBytes (collectEnvVars env) cols rows ++ rest =
        encode (.env (collectEnvVars env)) [] ++ (encode (.resize cols rows) [] ++ rest) := by
      rw [openingBytes, if_neg hne, List.append_assoc]
    rw [hopen]
    constructor
    · intro h
      refine forwardable_of_cmdEnv (r := encode (.resize cols rows) [] ++ rest) hkeys ?_
        nodup_collectEnvVars hne fun kv hkv => ?_
      · rw [← List.length_map Prod.fst]
        exact (keys_collect forwardedKeys).length_le
      · rw [h, cmdEnv_of_mem nodup_collectEnvVars hkv]
    · intro h k
      rw [envVars_of_forwardable _ (fun kv hkv => ⟨(hkeys kv hkv).1, (hkeys kv hkv).2.1⟩) h]

/-- The environment of a client that has only `TERM` set. -/
def termEnv (value : String) : String → Option String :=
  fun k => if k = "TERM" then some value else none

/-- The client opens with its `Env` frame, and the shell is spawned. -/
def forwardLabels (value : String) : List Event :=
  [.openpty (some "/dev/pts/1"), .handOff 0, .recv,
    .firstFrame (firstNext (openingBytes (collectEnvVars (termEnv value)) 80 24)), .spawn (some 7)]

/-- The shell gets the `TERM` of the client. -/
theorem environment_iff_xterm :
    ∃ s, LTS.exec step .init (forwardLabels "xterm") = some s ∧
      ∀ k, cmdEnv s.shellEnv k = if k ∈ forwardedKeys then termEnv "xterm" k else none := by
  have h : ∃ s, LTS.exec step .init (forwardLabels "xterm") = some s ∧ s.child = .running :=
    ⟨_, rfl, rfl⟩
  obtain ⟨s, h, hc⟩ := h
  have hf : firstRead (LTS.trace step .init (forwardLabels "xterm")) =
      [firstNext (openingBytes (collectEnvVars (termEnv "xterm")) 80 24 ++ [])] := by
    rw [List.append_nil]
    rfl
  exact ⟨s, h, (environment_iff (LTS.run_of_exec h) (by rw [hc]; decide) hf).2 (by decide)⟩

/-- A line feed in `TERM` cuts the value short, and what follows it sets another variable. -/
theorem not_environment_lf :
    ∃ tr s, lts.Run .init tr s ∧ tr.map Move.lbl = forwardLabels "a\nX=1" ∧
      s.child = .running ∧ "X" ∉ forwardedKeys ∧ cmdEnv s.shellEnv "TERM" = some "a" ∧
      cmdEnv s.shellEnv "X" = some "1" ∧
      ¬ ∀ k, cmdEnv s.shellEnv k = if k ∈ forwardedKeys then termEnv "a\nX=1" k else none := by
  have h : ∃ s, LTS.exec step .init (forwardLabels "a\nX=1") = some s ∧ s.child = .running ∧
      s.shellEnv = [("TERM", "a"), ("X", "1")] := ⟨_, rfl, rfl, rfl⟩
  obtain ⟨s, h, hc, hs⟩ := h
  have hx : cmdEnv s.shellEnv "X" = some "1" := by
    rw [hs]
    decide
  refine ⟨_, s, LTS.run_of_exec h, rfl, hc, by decide, by rw [hs]; decide, hx, fun hall => ?_⟩
  have := hall "X"
  rw [hx, if_neg (by decide)] at this
  cases this

end Server

end Gritty
