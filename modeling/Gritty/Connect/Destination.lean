import Gritty.Text.Decimal
import Gritty.Text.Lines

/-!
# The destination of `gritty connect`

`[user@]host[:port]`.  The user ends at the first `@` of the text, the port begins behind the last
`:` of the rest, and the port is whatever `str::parse::<u16>` accepts.

`Spells` says which texts spell which destinations: the text is the destination `ssh` gets, followed
by a colon and a spelling of the port where there is one, and the pieces are such that the two
splits find their boundaries.  Parsing is then exactly the reading of such texts.

## Main definitions

* `parse` : `Destination::parse`, with `parseUser` and `parsePort` for its two splits.
* `sshDest`, `portArgs` : what `ssh` is given.
* `render` : the text of a destination.

## Main results

* `parse_eq_ok_iff` : a text is accepted if and only if it spells the destination.
* `parse_lossless` : nothing of the text is lost, and texts are rejected only for an empty host, an
  empty user or a port that is none.
-/

namespace Gritty

namespace Connect

/-- A destination of `gritty connect`. -/
structure Destination where
  user : Option String
  host : String
  port : Option UInt16
  deriving DecidableEq

/-- Why `Destination::parse` fails. -/
inductive DestinationError where
  | empty
  | emptyUser (s : String)
  | invalidPort (s : String)
  | emptyHost (s : String)
  deriving DecidableEq

/-- The text that `bail!` is given. -/
def DestinationError.message : DestinationError → String
  | .empty => "empty destination"
  | .emptyUser s => "empty user in destination: " ++ s
  | .invalidPort s => "invalid port in destination: " ++ s
  | .emptyHost s => "empty host in destination: " ++ s

namespace Destination

/-- The first split of `Destination::parse`: the user and the remainder. -/
def parseUser (s : String) : Except DestinationError (Option String × List Char) :=
  match Text.splitOnce '@' s.toList with
  | some (u, rest) =>
    if u = [] then .error (.emptyUser s) else .ok (some (String.ofList u), rest)
  | none => .ok (none, s.toList)

/-- The second split of `Destination::parse`: the host and the port. -/
def parsePort (s : String) (remainder : List Char) :
    Except DestinationError (String × Option UInt16) :=
  match Text.rsplitOnce ':' remainder with
  | some (h, p) =>
    match Text.parseU16 (String.ofList p) with
    | some p => .ok (String.ofList h, some p)
    | none => .error (.invalidPort s)
  | none => .ok (String.ofList remainder, none)

/-- `Destination::parse` -/
def parse (s : String) : Except DestinationError Destination := do
  if s = "" then throw .empty
  let (user, remainder) ← parseUser s
  let (host, port) ← parsePort s remainder
  if host = "" then throw (.emptyHost s)
  return { user := user, host := host, port := port }

/-- `Destination::ssh_dest` -/
def sshDest (d : Destination) : String :=
  match d.user with
  | some u => u ++ "@" ++ d.host
  | none => d.host

/-- `Destination::port_args` -/
def portArgs (d : Destination) : List String :=
  match d.port with
  | some p => ["-p", toString p]
  | none => []

/-- The text that spells a destination, with its port in decimal. -/
def render (d : Destination) : String :=
  match d.port with
  | some p => d.sshDest ++ ":" ++ toString p
  | none => d.sshDest

/-! ### The two splits -/

/-- What stands in front of the host. -/
def userText : Option String → List Char
  | some u => u.toList ++ ['@']
  | none => []

/-- The user and the remainder of a text are such that the first `@` lies between them. -/
def UserSplit : Option String → List Char → Prop
  | some u, _ => u ≠ "" ∧ '@' ∉ u.toList
  | none, remainder => '@' ∉ remainder

/-- A spelling of host and port in which the last `:` lies between them. -/
def PortSplit (host : String) (remainder : List Char) : Option UInt16 → Prop
  | some p => ∃ t, Text.parseU16 t = some p ∧ remainder = host.toList ++ ':' :: t.toList
  | none => ':' ∉ remainder ∧ remainder = host.toList

theorem toList_sshDest (d : Destination) : d.sshDest.toList = userText d.user ++ d.host.toList := by
  unfold sshDest
  cases d.user with
  | none => simp [userText]
  | some u => simp [userText]

theorem eq_sshDest_iff {s : String} {d : Destination} :
    s = d.sshDest ↔ s.toList = userText d.user ++ d.host.toList := by
  rw [← String.toList_inj, toList_sshDest]

theorem eq_sshDest_append_iff {s t : String} {d : Destination} :
    s = d.sshDest ++ ":" ++ t ↔
      s.toList = userText d.user ++ (d.host.toList ++ ':' :: t.toList) := by
  rw [← String.toList_inj]
  simp [toList_sshDest]

theorem parseUser_eq_ok_iff {s : String} {user : Option String} {remainder : List Char} :
    parseUser s = .ok (user, remainder) ↔
      s.toList = userText user ++ remainder ∧ UserSplit user remainder := by
  unfold parseUser
  constructor
  · intro h
    cases hs : Text.splitOnce '@' s.toList with
    | none =>
      rw [hs] at h
      obtain ⟨rfl, rfl⟩ := Prod.mk.inj (Except.ok.inj h)
      exact ⟨rfl, Text.splitOnce_eq_none_iff.1 hs⟩
    | some kv =>
      obtain ⟨u, rest⟩ := kv
      obtain ⟨hat, hcs⟩ := Text.splitOnce_eq_some_iff.1 hs
      simp only [hs] at h
      split at h
      · cases h
      · next hu =>
        obtain ⟨rfl, rfl⟩ := Prod.mk.inj (Except.ok.inj h)
        refine ⟨by simp [userText, hcs], ?_, by simpa using hat⟩
        intro he
        exact hu (by simpa using congrArg String.toList he)
  · rintro ⟨hs, hsplit⟩
    cases user with
    | none =>
      obtain rfl : s.toList = remainder := hs
      rw [Text.splitOnce_eq_none_iff.2 hsplit]
    | some u =>
      obtain ⟨hu, hat⟩ := hsplit
      have hcs : s.toList = u.toList ++ '@' :: remainder := by simp [hs, userText]
      rw [hcs, Text.splitOnce_append hat]
      simp [hu]

theorem parsePort_eq_ok_iff {s host : String} {remainder : List Char} {port : Option UInt16} :
    parsePort s remainder = .ok (host, port) ↔ PortSplit host remainder port := by
  unfold parsePort
  constructor
  · intro h
    cases hs : Text.rsplitOnce ':' remainder with
    | none =>
      rw [hs] at h
      obtain ⟨rfl, rfl⟩ := Prod.mk.inj (Except.ok.inj h)
      exact ⟨Text.rsplitOnce_eq_none_iff.1 hs, by simp⟩
    | some hp =>
      obtain ⟨k, t⟩ := hp
      obtain ⟨-, rfl⟩ := Text.rsplitOnce_eq_some_iff.1 hs
      cases hp : Text.parseU16 (String.ofList t) with
      | none => simp [hs, hp] at h
      | some p =>
        simp only [hs, hp] at h
        obtain ⟨rfl, rfl⟩ := Prod.mk.inj (Except.ok.inj h)
        exact ⟨String.ofList t, hp, by simp⟩
  · intro hsplit
    cases port with
    | none =>
      obtain ⟨hcolon, rfl⟩ := hsplit
      simp [Text.rsplitOnce_eq_none_iff.2 hcolon]
    | some p =>
      obtain ⟨t, hp, rfl⟩ := hsplit
      -- the colon before the port is the last one, as a port has none
      have hcolon : ':' ∉ t.toList := Text.notMem_of_parseU16 hp (by decide) (by decide)
      simp [Text.rsplitOnce_eq_some_iff.2 ⟨hcolon, rfl⟩, hp]

/-! ### Parsing -/

theorem parse_eq (s : String) : parse s = if s = "" then .error .empty else
    (parseUser s).bind fun ur => (parsePort s ur.2).bind fun hp =>
      if hp.1 = "" then .error (.emptyHost s) else .ok ⟨ur.1, hp.1, hp.2⟩ := by
  unfold parse
  split <;> rfl

theorem parse_eq_ok_iff_split {s : String} {d : Destination} :
    parse s = .ok d ↔ d.host ≠ "" ∧ ∃ remainder,
      (s.toList = userText d.user ++ remainder ∧ UserSplit d.user remainder) ∧
        PortSplit d.host remainder d.port := by
  simp only [← parseUser_eq_ok_iff, ← parsePort_eq_ok_iff (s := s)]
  rw [parse_eq]
  constructor
  · intro h
    split at h
    · cases h
    · cases hu : parseUser s with
      | error => simp [hu, Except.bind] at h
      | ok ur =>
        cases hp : parsePort s ur.2 with
        | error => simp [hu, hp, Except.bind] at h
        | ok hp' =>
          simp only [hu, hp, Except.bind] at h
          split at h
          · cases h
          · next hne =>
            obtain rfl := Except.ok.inj h
            exact ⟨hne, ur.2, rfl, hp⟩
  · rintro ⟨hne, remainder, hu, hp⟩
    rw [if_neg]
    · simp [hu, hp, hne, Except.bind]
    · rintro rfl
      have hnil : parseUser "" = .ok (none, []) := by decide
      obtain ⟨-, rfl⟩ := Prod.mk.inj (Except.ok.inj (hnil.symm.trans hu))
      have hblank : parsePort "" [] = .ok ("", none) := by decide
      exact hne (Prod.mk.inj (Except.ok.inj (hblank.symm.trans hp))).1.symm

/-- The text spells the destination: it is what `ssh` gets, followed by a colon and a spelling of
the port if there is one, and the two splits find the boundaries. -/
structure Spells (s : String) (d : Destination) : Prop where
  host : d.host ≠ ""
  user : ∀ u, d.user = some u → u ≠ "" ∧ '@' ∉ u.toList
  noUser : d.user = none → '@' ∉ d.host.toList
  port : ∀ p, d.port = some p → ∃ t, Text.parseU16 t = some p ∧ s = d.sshDest ++ ":" ++ t
  noPort : d.port = none → ':' ∉ d.host.toList ∧ s = d.sshDest

theorem spells_of_split {s : String} {d : Destination} {remainder : List Char} (hne : d.host ≠ "")
    (hs : s.toList = userText d.user ++ remainder) (hu : UserSplit d.user remainder)
    (hp : PortSplit d.host remainder d.port) : Spells s d where
  host := hne
  user u hd := by
    rw [hd] at hu
    exact hu
  noUser hd hat := by
    rw [hd] at hu
    refine hu ?_
    cases hport : d.port with
    | none =>
      obtain ⟨-, rfl⟩ := hport ▸ hp
      exact hat
    | some p =>
      obtain ⟨t, -, rfl⟩ := hport ▸ hp
      exact List.mem_append_left _ hat
  port p hd := by
    rw [hd] at hp
    obtain ⟨t, ht, rfl⟩ := hp
    exact ⟨t, ht, eq_sshDest_append_iff.2 hs⟩
  noPort hd := by
    rw [hd] at hp
    obtain ⟨hcolon, rfl⟩ := hp
    exact ⟨hcolon, eq_sshDest_iff.2 hs⟩

theorem Spells.userSplit {s : String} {d : Destination} (h : Spells s d) {remainder : List Char}
    (hr : '@' ∈ remainder → '@' ∈ d.host.toList) : UserSplit d.user remainder := by
  cases hu : d.user with
  | none => exact fun hat => h.noUser hu (hr hat)
  | some u => exact h.user u hu

/-- **What `Destination::parse` accepts.**  A destination is parsed from the texts that spell it. -/
theorem parse_eq_ok_iff {s : String} {d : Destination} : parse s = .ok d ↔ Spells s d := by
  rw [parse_eq_ok_iff_split]
  constructor
  · rintro ⟨hne, remainder, ⟨hs, hu⟩, hp⟩
    exact spells_of_split hne hs hu hp
  · intro h
    refine ⟨h.host, ?_⟩
    cases hport : d.port with
    | none =>
      obtain ⟨hcolon, hs⟩ := h.noPort hport
      exact ⟨d.host.toList, ⟨eq_sshDest_iff.1 hs, h.userSplit id⟩, hcolon, rfl⟩
    | some p =>
      obtain ⟨t, ht, hs⟩ := h.port p hport
      refine ⟨_, ⟨eq_sshDest_append_iff.1 hs, h.userSplit ?_⟩, t, ht, rfl⟩
      have hat : '@' ∉ t.toList := Text.notMem_of_parseU16 ht (by decide) (by decide)
      simp [hat]

theorem spells_render {d : Destination} (hhost : d.host ≠ "") (hcolon : ':' ∉ d.host.toList)
    (huser : ∀ u, d.user = some u → u ≠ "" ∧ '@' ∉ u.toList)
    (hnone : d.user = none → '@' ∉ d.host.toList) : Spells d.render d where
  host := hhost
  user := huser
  noUser := hnone
  port p hp := ⟨toString p, Text.parseU16_toString p, by rw [render, hp]⟩
  noPort hp := ⟨hcolon, by rw [render, hp]⟩

/-- **Parsing a destination loses nothing.**  A parsed text is the destination for `ssh`, followed
by a spelling of the port if there is one, and neither the host nor a user is empty; the rendering
of a user, a host and a port is parsed back, with the port in decimal as the argument of `-p`. -/
theorem parse_lossless :
    (∀ s d, parse s = .ok d →
      (d.port = none → s = d.sshDest) ∧
      (∀ p, d.port = some p → ∃ t, Text.parseU16 t = some p ∧ s = d.sshDest ++ ":" ++ t) ∧
      d.host ≠ "" ∧ d.user ≠ some "") ∧
    ∀ user host port, (∀ u, user = some u → u ≠ "" ∧ '@' ∉ u.toList) → host ≠ "" →
      ':' ∉ host.toList → (user = none → '@' ∉ host.toList) →
      parse (render ⟨user, host, port⟩) = .ok ⟨user, host, port⟩ ∧
      portArgs ⟨user, host, port⟩ = match port with
        | some p => ["-p", String.ofList (Nat.toDigits 10 p.toNat)]
        | none => [] := by
  constructor
  · intro s d h
    have hs := parse_eq_ok_iff.1 h
    exact ⟨fun hp => (hs.noPort hp).2, hs.port, hs.host, fun hu => (hs.user "" hu).1 rfl⟩
  · intro user host port huser hhost hcolon hnone
    refine ⟨parse_eq_ok_iff.2 (spells_render hhost hcolon huser hnone), ?_⟩
    cases port with
    | none => rfl
    | some p => rfl

/-- The last colon and the first `@` count, and a port may carry a plus sign and zeros. -/
theorem parse_lossless_bob :
    (∃ t, Text.parseU16 t = some 22 ∧ "bob@a@[::1]:+022" = "bob@a@[::1]" ++ ":" ++ t) ∧
      parse "bob@a@h:8022" = .ok ⟨some "bob", "a@h", some 8022⟩ ∧
      portArgs ⟨some "bob", "a@h", some 8022⟩ = ["-p", "8022"] := by
  have hback := parse_lossless.2 (some "bob") "a@h" (some 8022) (by simp) (by decide) (by decide)
    (by simp)
  exact ⟨(parse_lossless.1 "bob@a@[::1]:+022" ⟨some "bob", "a@[::1]", some 22⟩
    (by decide)).2.1 22 rfl, hback.1, hback.2⟩

/-! ### Errors -/

end Destination

end Connect

end Gritty
