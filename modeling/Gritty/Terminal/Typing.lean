import Gritty.Terminal.Speech

/-!
# What becomes of the input

The input is read at two places: in the loop of `relay`, which passes it on, and in the reconnect
loop, which looks for a Ctrl-C once a second and keeps nothing of what it reads.  Each byte is taken
in the order in which it was typed, and what `relay` takes reaches the session through the escape
processor, whose state is kept over an outage.

## Main definitions

* `typed`, `passed`, `checked` : what was typed, what `relay` has read, and what the reconnect loop
  has.
* `Typing` : no input is swallowed.
* `Sending` : what is read on a connection is sent on it.

## Main results

* `typed_eq_taken` : the input is taken in the order in which it is typed.
* `sending_step`, `sending` : the client sends what it reads, on the connection in use.
* `typing_iff` : no input is swallowed if and only if the reconnect loop reads nothing but a Ctrl-C.
-/

namespace Gritty

namespace Terminal

/-! ### What is read and what is sent -/

/-- `run` begins. -/
def begins (m : Move State Event) : Bool :=
  match m.src.phase with
  | .awaiting _ => m.dst.phase.relayed?.isSome
  | _ => false

/-- What the user types in a move. -/
def typedOf (m : Move State Event) : List UInt8 :=
  match m.lbl with
  | .typed bytes => bytes
  | _ => []

/-- What was typed since `run` began: what was typed before, the terminal drops. -/
def typed (tr : List (Move State Event)) : List UInt8 :=
  tr.foldl (fun bytes m => if begins m then [] else bytes ++ typedOf m) []

/-- A read of `relay`. -/
def passedOf (m : Move State Event) : List (Conn × List UInt8) :=
  match m.lbl with
  | .read n =>
    match m.src.phase with
    | .relay framed => if n = 0 then [] else [(framed, m.src.stdin.take n)]
    | _ => []
  | _ => []

/-- The reads of `relay`, and the connections that it worked on. -/
def passed (tr : List (Move State Event)) : List (Conn × List UInt8) := tr.flatMap passedOf

theorem passed_append_single (tr : List (Move State Event)) (m : Move State Event) :
    passed (tr ++ [m]) = passed tr ++ passedOf m := by
  simp [passed]

/-- A byte that the reconnect loop reads. -/
def checkedOf (m : Move State Event) : List UInt8 :=
  match m.lbl with
  | .wake r => r.toList
  | _ => []

/-- What the reconnect loop read. -/
def checked (tr : List (Move State Event)) : List UInt8 := tr.flatMap checkedOf

/-- The payload of a `Data` frame. -/
def payload : Frame → List (List UInt8)
  | .data bytes => [bytes]
  | _ => []

/-- A send of the loop of `relay`. -/
def relayedOf (m : Move State Event) : List (Conn × List UInt8) :=
  match m.lbl with
  | .sent true =>
    match m.src.phase with
    | .sending framed frame _ => (payload frame).map fun bytes => (framed, bytes)
    | _ => []
  | _ => []

/-- The input sent to the session, without the Ctrl-L. -/
def relayed (tr : List (Move State Event)) : List (Conn × List UInt8) := tr.flatMap relayedOf

/-- The data of the actions. -/
def dataOf : List EscapeAction → List (List UInt8)
  | [] => []
  | .data bytes :: actions => bytes :: dataOf actions
  | .detach :: actions | .suspend :: actions | .help :: actions => dataOf actions

/-- What becomes of one read. -/
def filter : Option EscapeState → List UInt8 → List (List UInt8) × Option EscapeState
  | none, chunk => ([chunk], none)
  | some esc, chunk => (dataOf (esc.process chunk).1, some (esc.process chunk).2)

/-- What becomes of the reads. -/
def filtered (esc : Option EscapeState) :
    List (Conn × List UInt8) → List (Conn × List UInt8)
  | [] => []
  | (framed, chunk) :: chunks =>
    (filter esc chunk).1.map (fun bytes => (framed, bytes)) ++ filtered (filter esc chunk).2 chunks

/-- The escape processor after the reads. -/
def escapeAfter (esc : Option EscapeState) (chunks : List (Conn × List UInt8)) :
    Option EscapeState :=
  chunks.foldl (fun esc p => (filter esc p.2).2) esc

/-- What has to be sent before the next read. -/
def Phase.owed : Phase → List (List UInt8)
  | .sending _ frame actions => payload frame ++ dataOf actions
  | .suspended _ actions => dataOf actions
  | _ => []

/-- No input is swallowed. -/
structure Typing (o : Options) (tr : List (Move State Event)) (s : State) : Prop where
  /-- what was typed was passed to `relay`, or is the Ctrl-C that ends a reconnect, or still has to
  be read -/
  kept : typed tr =
    (passed tr).flatMap Prod.snd ++ (checked tr).filter (fun b => b = ctrlC) ++ s.stdin
  /-- what was typed later is not passed to an earlier connection -/
  order : ((passed tr).map Prod.fst).Pairwise (· ≤ ·)
  /-- a connection is sent what the escape processor makes of its reads -/
  sent : ∀ c, entriesOf c (relayed tr) <+: entriesOf c (filtered o.escape (passed tr))
  /-- and all of it, while it is in use -/
  owed : ∀ c, s.phase.relayed? = some c →
    entriesOf c (filtered o.escape (passed tr)) = entriesOf c (relayed tr) ++ s.phase.owed

variable {o : Options} {s s' : State} {e : Event} {tr : List (Move State Event)} {c framed : Conn}

/-! ### The order of the input -/

/-- What a move takes from the input. -/
def takenOf (m : Move State Event) : List UInt8 := (passedOf m).flatMap Prod.snd ++ checkedOf m

/-- What was taken from the input, in order. -/
def taken (tr : List (Move State Event)) : List UInt8 := tr.flatMap takenOf

theorem taken_append_single (tr : List (Move State Event)) (m : Move State Event) :
    taken (tr ++ [m]) = taken tr ++ takenOf m := by
  simp [taken]

theorem typed_append_single (m : Move State Event) :
    typed (tr ++ [m]) = if begins m then [] else typed tr ++ typedOf m := by
  simp [typed]

theorem relayed?_startRelay : (s.startRelay framed).phase.relayed? = some framed := by
  obtain ⟨p, hs, hp⟩ := startRelay_eq s framed
  rw [hs]
  rcases hp with ⟨-, rfl⟩ | ⟨-, rfl⟩ <;> rfl

theorem begins_of_accepted {session : String} (hp : s.phase = .awaiting framed) :
    begins ⟨s, e, s.enterRun session framed⟩ = true := by
  rw [begins, hp]
  exact congrArg Option.isSome (relayed?_startRelay (s := s.setUp session))

/-- The input is a queue. -/
theorem stdin_step (h : Step s e s') (hb : begins ⟨s, e, s'⟩ = false) :
    s.stdin ++ typedOf ⟨s, e, s'⟩ = takenOf ⟨s, e, s'⟩ ++ s'.stdin := by
  cases h with
  | typed => rfl
  | accepted hp => simp [begins_of_accepted hp] at hb
  | @opened ok hp =>
    have hs : (s.onOpened ok).stdin = s.stdin := by
      cases ok
      · rw [State.onOpened]
        cases s.options.command <;> rfl
      · rfl
    rw [hs]
    exact List.append_nil _
  | @reconnected ok => cases ok <;> exact List.append_nil _
  | @reattached framed =>
    obtain ⟨p, hs, -⟩ := startRelay_eq { s with redraw := true } framed
    rw [hs]
    exact List.append_nil _
  | @sent framed frame actions =>
    obtain ⟨p, hs, -⟩ := perform_eq s framed actions
    rw [hs]
    exact List.append_nil _
  | @inputEnded framed hp hs =>
    simp [takenOf, passedOf, checkedOf, typedOf, hp, State.exit, hs]
  | @input framed n hp hn =>
    obtain ⟨escape, p, hs, -⟩ := onInput_eq { s with stdin := s.stdin.drop n } framed
      (s.stdin.take n)
    rw [hs]
    simp [takenOf, passedOf, checkedOf, typedOf, hp, hn.ne']
  | interrupt _ _ hs =>
    obtain ⟨rest, hs⟩ := List.head?_eq_some_iff.1 hs
    simp [takenOf, passedOf, checkedOf, typedOf, State.exit, hs]
  | swallow _ _ hs =>
    obtain ⟨rest, hs⟩ := List.head?_eq_some_iff.1 hs
    simp [takenOf, passedOf, checkedOf, typedOf, hs]
  | _ => exact List.append_nil _

/-- Before `run` begins. -/
def Phase.early : Phase → Bool
  | .opening | .requesting _ | .awaiting _ => true
  | .sendEnv _ | .sendResize _ _ | .sendRedraw _ | .relay _ | .sending _ _ _ | .suspended _ _
  | .sleeping _ | .connecting | .attaching _ | .reattaching _ | .exited _ => false

theorem early_of_relayed {p : Phase} (h : p.relayed? = some framed) : p.early = false := by
  cases p <;> first | rfl | cases h

theorem Performs.not_early {p : Phase} (h : Performs framed p) : p.early = false := by
  cases h <;> rfl

theorem early_step (h : Step s e s') (he : s'.phase.early = true) :
    s.phase.early = true ∧ passedOf ⟨s, e, s'⟩ = [] ∧ checkedOf ⟨s, e, s'⟩ = [] := by
  cases h with
  | typed | eof | resized | elapse => exact ⟨he, rfl, rfl⟩
  | opened hp | requestSent hp => exact ⟨by rw [hp]; rfl, rfl, rfl⟩
  | @accepted framed reply session =>
    exact absurd he (by simp [State.enterRun, early_of_relayed relayed?_startRelay])
  | @reattached framed =>
    exact absurd he (by simp [early_of_relayed relayed?_startRelay])
  | @sent framed frame actions =>
    obtain ⟨p, hs, hp⟩ := perform_eq s framed actions
    rw [hs] at he
    exact absurd he (by simp [hp.not_early])
  | @input framed n =>
    obtain ⟨escape, p, hs, hp⟩ := onInput_eq { s with stdin := s.stdin.drop n } framed
      (s.stdin.take n)
    rw [hs] at he
    exact absurd he (by simp [hp.not_early])
  | pong hp | passive hp =>
    change s.phase.early = true at he
    rw [hp] at he
    cases he
  | @reconnected ok => cases ok <;> cases he
  | _ => cases he

theorem nothing_early (hr : lts.Run (.init o) tr s) (he : s.phase.early = true) :
    passed tr = [] ∧ taken tr = [] := by
  induction hr with
  | refl => exact ⟨rfl, rfl⟩
  | @tail tr s s' e hr hst ih =>
    obtain ⟨he', hpa, hch⟩ := early_step (step_cases hst) he
    obtain ⟨hp, ht⟩ := ih he'
    exact ⟨by simpa [passed, hpa] using hp, by simpa [taken, takenOf, hpa, hch] using ht⟩

theorem begins_step (h : Step s e s') (hb : begins ⟨s, e, s'⟩ = true) :
    s.phase.early = true ∧ takenOf ⟨s, e, s'⟩ = [] ∧ s'.stdin = [] := by
  unfold begins at hb
  cases hp : s.phase with
  | awaiting framed =>
    rw [hp] at hb
    refine ⟨rfl, ?_⟩
    cases h with
    | @accepted framed reply session =>
      obtain ⟨p, hs, -⟩ := startRelay_eq (s.setUp session) framed
      exact ⟨rfl, by rw [State.enterRun, hs]; rfl⟩
    | typed | eof | resized | elapse => simp [hp, Phase.relayed?] at hb
    | fail | refused | unanswered => cases hb
    | sendFailed hp' => simp [hp, Phase.relayed?] at hp'
    | _ hp' => simp [hp] at hp'
  | _ => simp [hp] at hb

/-- **The input is taken in the order in which it is typed.** -/
theorem typed_eq_taken (hr : lts.Run (.init o) tr s) : typed tr = taken tr ++ s.stdin := by
  induction hr with
  | refl => rfl
  | @tail tr s s' e hr hst ih =>
    rw [typed_append_single, taken_append_single]
    cases hb : begins ⟨s, e, s'⟩ with
    | false =>
      have hq := stdin_step (step_cases hst) hb
      rw [if_neg (by simp), ih, List.append_assoc, hq, List.append_assoc]
    | true =>
      obtain ⟨he, ht, hs⟩ := begins_step (step_cases hst) hb
      rw [if_pos rfl, (nothing_early hr he).2, ht, hs]
      rfl

/-! ### Where the input goes -/

theorem length_taken (tr : List (Move State Event)) :
    (taken tr).length = ((passed tr).flatMap Prod.snd).length + (checked tr).length := by
  induction tr with
  | nil => rfl
  | cons m tr ih =>
    have ht : taken (m :: tr) = takenOf m ++ taken tr := rfl
    have hp : passed (m :: tr) = passedOf m ++ passed tr := rfl
    have hc : checked (m :: tr) = checkedOf m ++ checked tr := rfl
    rw [ht, hp, hc, List.flatMap_append]
    simp only [List.length_append, takenOf, ih]
    omega

theorem exited_step {code : Option Int32} (h : Step s e s') (hp : s.phase = .exited code) :
    s'.phase = .exited code ∧ passedOf ⟨s, e, s'⟩ = [] ∧ checkedOf ⟨s, e, s'⟩ = [] := by
  cases h with
  | typed | eof | resized | elapse => exact ⟨hp, rfl, rfl⟩
  | fail hp' => exact absurd hp (hp' code)
  | sendFailed hp' => simp [hp, Phase.relayed?] at hp'
  | _ hp' => simp [hp] at hp'

theorem checked_step (h : Step s e s') (hc : ∀ b ∈ checkedOf ⟨s, e, s'⟩, b = ctrlC) :
    checkedOf ⟨s, e, s'⟩ = [] ∨ ∃ code, s'.phase = .exited code := by
  cases h with
  | interrupt => exact .inr ⟨_, rfl⟩
  | swallow _ _ _ hb => exact absurd (hc _ (List.mem_singleton.2 rfl)) hb
  | _ => exact .inl rfl

theorem taken_eq_passed (hr : lts.Run (.init o) tr s) (hc : ∀ b ∈ checked tr, b = ctrlC) :
    taken tr = (passed tr).flatMap Prod.snd ++ checked tr ∧
      (checked tr = [] ∨ ∃ code, s.phase = .exited code) := by
  induction hr with
  | refl => exact ⟨rfl, .inl rfl⟩
  | @tail tr s s' e _ hst ih =>
    have h := step_cases hst
    have hch : checked (tr ++ [⟨s, e, s'⟩]) = checked tr ++ checkedOf ⟨s, e, s'⟩ := by
      simp [checked]
    rw [hch] at hc ⊢
    obtain ⟨ht, hover⟩ := ih fun b hb => hc b (List.mem_append_left _ hb)
    rw [passed_append_single, taken_append_single, ht, takenOf]
    rcases hover with h₀ | ⟨code, hp⟩
    · refine ⟨by simp [h₀], ?_⟩
      rw [h₀]
      exact checked_step h fun b hb => hc b (List.mem_append_right _ hb)
    · obtain ⟨hp', hn, hn'⟩ := exited_step h hp
      exact ⟨by simp [hn, hn'], .inr ⟨code, hp'⟩⟩

/-! ### What is sent -/

theorem filtered_append {esc : Option EscapeState} {l l' : List (Conn × List UInt8)} :
    filtered esc (l ++ l') = filtered esc l ++ filtered (escapeAfter esc l) l' := by
  induction l generalizing esc with
  | nil => rfl
  | cons p l ih => simp [filtered, escapeAfter, ih]

theorem entriesOf_filtered {esc : Option EscapeState} {l : List (Conn × List UInt8)}
    (h : ∀ p ∈ l, p.1 ≠ c) : entriesOf c (filtered esc l) = [] := by
  induction l generalizing esc with
  | nil => rfl
  | cons p l ih =>
    rw [filtered, entriesOf_append, ih fun q hq => h q (List.mem_cons_of_mem _ hq), List.append_nil]
    refine entriesOf_eq_nil fun q hq => ?_
    obtain ⟨bytes, -, rfl⟩ := List.mem_map.1 hq
    exact h p List.mem_cons_self

theorem owed_perform (s : State) (framed : Conn) (actions : List EscapeAction)
    (h : (s.perform framed actions).phase.relayed? ≠ none) :
    (s.perform framed actions).phase.owed = dataOf actions := by
  induction actions with
  | nil => rfl
  | cons a actions ih =>
    cases a with
    | data | suspend => rfl
    | detach => exact absurd rfl h
    | help => exact ih h

/-- The client sends what it reads, on the connection in use. -/
structure Sending (o : Options) (tr : List (Move State Event)) (s : State) : Prop where
  escape : s.phase.early = false → (∀ code, s.phase ≠ .exited code) →
    s.escape = escapeAfter o.escape (passed tr)
  bound : ∀ p ∈ passed tr, p.1 < s.connections
  /-- nothing was read on a connection before it is granted -/
  fresh : ∀ framed, s.phase = .attaching framed ∨ s.phase = .reattaching framed →
    ∀ p ∈ passed tr, p.1 ≠ framed
  order : ((passed tr).map Prod.fst).Pairwise (· ≤ ·)
  sent : ∀ c, entriesOf c (relayed tr) <+: entriesOf c (filtered o.escape (passed tr))
  owed : ∀ c, s.phase.relayed? = some c →
    entriesOf c (filtered o.escape (passed tr)) = entriesOf c (relayed tr) ++ s.phase.owed

/-- Nothing is read by `relay`, and no input is sent. -/
theorem Sending.quiet (hi : Sending o tr s) (hpa : passedOf ⟨s, e, s'⟩ = [])
    (hre : relayedOf ⟨s, e, s'⟩ = []) (hesc : s'.escape = s.escape)
    (hn : s.connections ≤ s'.connections)
    (hlive : s'.phase.early = false → (∀ code, s'.phase ≠ .exited code) →
      s.phase.early = false ∧ ∀ code, s.phase ≠ .exited code)
    (hfresh : ∀ framed, s'.phase = .attaching framed ∨ s'.phase = .reattaching framed →
      (s.phase = .attaching framed ∨ s.phase = .reattaching framed) ∨ framed = s.connections)
    (howed : ∀ c, s'.phase.relayed? = some c →
      s.phase.relayed? = some c ∧ s'.phase.owed = s.phase.owed ∨
        s.phase = .reattaching c ∧ s'.phase.owed = []) :
    Sending o (tr ++ [⟨s, e, s'⟩]) s' := by
  have hp : passed (tr ++ [⟨s, e, s'⟩]) = passed tr := by simp [passed, hpa]
  have hr : relayed (tr ++ [⟨s, e, s'⟩]) = relayed tr := by simp [relayed, hre]
  refine ⟨?_, ?_, ?_, hp ▸ hi.order, hp ▸ hr ▸ hi.sent, ?_⟩
  · intro he hx
    obtain ⟨he', hx'⟩ := hlive he hx
    rw [hp, hesc, hi.escape he' hx']
  · rw [hp]
    exact fun p hm => (hi.bound p hm).trans_le hn
  · rw [hp]
    intro framed hf p hm
    rcases hfresh framed hf with hf | rfl
    · exact hi.fresh framed hf p hm
    · exact (hi.bound p hm).ne
  · rw [hp, hr]
    intro c hc
    rcases howed c hc with ⟨hc', ho⟩ | ⟨hc', ho⟩
    · rw [ho]
      exact hi.owed c hc'
    · have hnil : entriesOf c (filtered o.escape (passed tr)) = [] :=
        entriesOf_filtered (hi.fresh c (.inr hc'))
      have hsent := hi.sent c
      rw [hnil] at hsent
      rw [hnil, List.prefix_nil.1 hsent, ho]
      rfl

/-- The client exits, or has not begun to relay. -/
theorem Sending.idle (hi : Sending o tr s) (hpa : passedOf ⟨s, e, s'⟩ = [])
    (hre : relayedOf ⟨s, e, s'⟩ = []) (hesc : s'.escape = s.escape)
    (hn : s.connections ≤ s'.connections)
    (hp : s'.phase.early = true ∨ ∃ code, s'.phase = .exited code) :
    Sending o (tr ++ [⟨s, e, s'⟩]) s' := by
  refine hi.quiet hpa hre hesc hn ?_ ?_ ?_
  · intro he hx
    rcases hp with hp | ⟨code, hp⟩
    · simp [he] at hp
    · exact absurd hp (hx code)
  · rintro framed (hf | hf) <;> simp [hf, Phase.early] at hp
  · intro c hc
    rcases hp with hp | ⟨code, hp⟩
    · simp [early_of_relayed hc] at hp
    · simp [hp, Phase.relayed?] at hc

theorem not_exited_of_relayed {p : Phase} (h : p.relayed? = some framed) (code : Option Int32) :
    p ≠ .exited code := by
  rintro rfl
  cases h

/-- `relay` goes on. -/
theorem Sending.relays (hi : Sending o tr s) (hpa : passedOf ⟨s, e, s'⟩ = [])
    (hre : relayedOf ⟨s, e, s'⟩ = []) (hesc : s'.escape = s.escape)
    (hn : s'.connections = s.connections) (hp : s.phase.relayed? = some framed)
    (hp' : s'.phase.relayed? = some framed) (ho : s'.phase.owed = s.phase.owed) :
    Sending o (tr ++ [⟨s, e, s'⟩]) s' := by
  refine hi.quiet hpa hre hesc hn.ge ?_ ?_ ?_
  · exact fun _ _ => ⟨early_of_relayed hp, not_exited_of_relayed hp⟩
  · rintro framed (hf | hf) <;> simp [hf, Phase.relayed?] at hp'
  · intro c hc
    obtain rfl := Option.some.inj (hp'.symm.trans hc)
    exact .inl ⟨hp, ho⟩

theorem Sending.pauses (hi : Sending o tr s) (hpa : passedOf ⟨s, e, s'⟩ = [])
    (hre : relayedOf ⟨s, e, s'⟩ = []) (hesc : s'.escape = s.escape)
    (hn : s'.connections = s.connections)
    (hp : s.phase.early = false ∧ ∀ code, s.phase ≠ .exited code)
    (hp' : (∃ deadline, s'.phase = .sleeping deadline) ∨ s'.phase = .connecting) :
    Sending o (tr ++ [⟨s, e, s'⟩]) s' := by
  refine hi.quiet hpa hre hesc hn.ge (fun _ _ => hp) ?_ ?_
  · rintro framed (hf | hf) <;> simp [hf] at hp'
  · intro c hc
    rcases hp' with ⟨deadline, hp'⟩ | hp' <;> simp [hp', Phase.relayed?] at hc

theorem sending_begin {session : String} (hr : lts.Run (.init o) tr s) (hi : Sending o tr s)
    (hp : s.phase = .awaiting framed) (hpa : passedOf ⟨s, e, s.enterRun session framed⟩ = [])
    (hre : relayedOf ⟨s, e, s.enterRun session framed⟩ = []) :
    Sending o (tr ++ [⟨s, e, s.enterRun session framed⟩]) (s.enterRun session framed) := by
  obtain ⟨h₀, -⟩ := nothing_early hr (by rw [hp]; rfl)
  have hpassed : passed (tr ++ [⟨s, e, s.enterRun session framed⟩]) = [] := by
    simpa [passed, hpa] using h₀
  have hrelayed : ∀ c, entriesOf c (relayed (tr ++ [⟨s, e, s.enterRun session framed⟩])) = [] := by
    intro c
    have hsent := hi.sent c
    rw [h₀] at hsent
    simpa [relayed, hre] using List.prefix_nil.1 hsent
  obtain ⟨p, hs, hp'⟩ := startRelay_eq (s.setUp session) framed
  have howed : p.owed = [] ∧ ∀ framed', p ≠ .attaching framed' ∧ p ≠ .reattaching framed' := by
    rcases hp' with ⟨-, rfl⟩ | ⟨-, rfl⟩ <;> simp [Phase.owed]
  refine ⟨fun _ _ => ?_, by simp [hpassed], ?_, by simp [hpassed], ?_, ?_⟩
  · rw [hpassed, State.enterRun, hs]
    exact congrArg Options.escape (options_eq hr)
  · rw [State.enterRun, hs]
    rintro framed' (hf | hf)
    · exact absurd hf (howed.2 framed').1
    · exact absurd hf (howed.2 framed').2
  · intro c
    rw [hrelayed]
    exact List.nil_prefix
  · intro c _
    rw [hrelayed, hpassed, State.enterRun, hs]
    exact howed.1.symm

theorem onInput_spec (s : State) (framed : Conn) (input : List UInt8) :
    ∃ p, s.onInput framed input = { s with escape := (filter s.escape input).2, phase := p } ∧
      Performs framed p ∧ (p.relayed? ≠ none → p.owed = (filter s.escape input).1) := by
  cases he : s.escape with
  | none =>
    have hin : s.onInput framed input = { s with phase := .sending framed (.data input) [] } := by
      rw [State.onInput, he]
    refine ⟨.sending framed (.data input) [], ?_, .data, fun _ => rfl⟩
    simp [hin, filter, ← he]
  | some esc =>
    have hin : s.onInput framed input =
        { s with escape := some (esc.process input).2 }.perform framed (esc.process input).1 := by
      rw [State.onInput, he]
    have howed := owed_perform { s with escape := some (esc.process input).2 } framed
      (esc.process input).1
    obtain ⟨p, hp, hperf⟩ := perform_eq { s with escape := some (esc.process input).2 } framed
      (esc.process input).1
    rw [hp] at howed
    exact ⟨p, hin.trans hp, hperf, howed⟩

theorem sending_input {n : ℕ} (hr : lts.Run (.init o) tr s) (hi : Sending o tr s)
    (hp : s.phase = .relay framed) (hn : 0 < n)
    (hs : s' = { s with stdin := s.stdin.drop n }.onInput framed (s.stdin.take n)) :
    Sending o (tr ++ [⟨s, .read n, s'⟩]) s' := by
  have hrel : s.phase.relayed? = some framed := by rw [hp]; rfl
  obtain ⟨hcur, -⟩ := (sound hr).relay hrel
  obtain ⟨p, hs', hperf, howed⟩ := onInput_spec { s with stdin := s.stdin.drop n } framed
    (s.stdin.take n)
  rw [← hs] at hs'
  have hphase : s'.phase = p := by rw [hs']
  have hconn : s'.connections = s.connections := by rw [hs']
  have hesc' : s'.escape = (filter s.escape (s.stdin.take n)).2 := by rw [hs']
  clear hs hs'
  have hpassed : passed (tr ++ [⟨s, .read n, s'⟩]) = passed tr ++ [(framed, s.stdin.take n)] := by
    simp [passed, passedOf, hp, hn.ne']
  have hrelayed : relayed (tr ++ [⟨s, .read n, s'⟩]) = relayed tr := by
    simp [relayed, relayedOf]
  have hesc : s.escape = escapeAfter o.escape (passed tr) :=
    hi.escape (by rw [hp]; rfl) (by simp [hp])
  have hfil : filtered o.escape (passed (tr ++ [⟨s, .read n, s'⟩])) =
      filtered o.escape (passed tr) ++
        (filter s.escape (s.stdin.take n)).1.map fun bytes => (framed, bytes) := by
    rw [hpassed, filtered_append, ← hesc]
    simp [filtered]
  refine ⟨fun _ _ => ?_, ?_, ?_, ?_, ?_, ?_⟩
  · rw [hesc', hpassed]
    simp [escapeAfter, hesc]
  · rw [hconn, hpassed]
    intro q hq
    rcases List.mem_append.1 hq with hq | hq
    · exact hi.bound q hq
    · obtain rfl := List.mem_singleton.1 hq
      exact hcur ▸ Nat.lt_succ_self framed
  · rw [hphase]
    rintro framed' (rfl | rfl) <;> cases hperf
  · rw [hpassed, List.map_append, List.pairwise_append]
    refine ⟨hi.order, List.pairwise_singleton _ _, ?_⟩
    intro a ha b hb
    obtain ⟨q, hq, rfl⟩ := List.mem_map.1 ha
    obtain rfl : b = framed := by simpa using hb
    exact Nat.le_of_lt_succ ((hi.bound q hq).trans_eq hcur.symm)
  · intro c
    rw [hrelayed, hfil, entriesOf_append]
    exact (hi.sent c).trans (List.prefix_append _ _)
  · intro c hc
    rw [hphase] at hc ⊢
    obtain rfl : framed = c := by
      rcases hperf.relayed with h | h
      · exact Option.some.inj (h.symm.trans hc)
      · simp [h, Phase.relayed?] at hc
    have ho : s.phase.owed = [] := by rw [hp]; rfl
    have h := hi.owed framed hrel
    rw [ho, List.append_nil] at h
    have howed' : p.owed = (filter s.escape (s.stdin.take n)).1 :=
      howed (hc ▸ Option.some_ne_none framed)
    rw [hrelayed, hfil, entriesOf_append, h, entriesOf_map_self, howed']

theorem sending_sent {frame : Frame} {actions : List EscapeAction} (hi : Sending o tr s)
    (hp : s.phase = .sending framed frame actions) :
    Sending o (tr ++ [⟨s, .sent true, s.perform framed actions⟩]) (s.perform framed actions) := by
  have hrel : s.phase.relayed? = some framed := by rw [hp]; rfl
  have howed := owed_perform s framed actions
  obtain ⟨p, hs, hperf⟩ := perform_eq s framed actions
  rw [hs] at howed ⊢
  have hpassed : passed (tr ++ [⟨s, .sent true, { s with phase := p }⟩]) = passed tr := by
    simp [passed, passedOf]
  have hrelayed : relayed (tr ++ [⟨s, .sent true, { s with phase := p }⟩]) =
      relayed tr ++ (payload frame).map fun bytes => (framed, bytes) := by
    simp [relayed, relayedOf, hp]
  have h := hi.owed framed hrel
  have ho : s.phase.owed = payload frame ++ dataOf actions := by rw [hp]; rfl
  rw [ho] at h
  refine ⟨fun _ _ => ?_, hpassed ▸ hi.bound, ?_, hpassed ▸ hi.order, ?_, ?_⟩
  · rw [hpassed]
    exact hi.escape (early_of_relayed hrel) (not_exited_of_relayed hrel)
  · rintro framed' (hf | hf) <;> cases hf <;> cases hperf
  · intro c
    rw [hpassed, hrelayed, entriesOf_append]
    by_cases hc : framed = c
    · subst hc
      rw [h, entriesOf_map_self, ← List.append_assoc]
      exact List.prefix_append _ _
    · rw [entriesOf_map_of_ne hc, List.append_nil]
      exact hi.sent c
  · intro c hc
    obtain rfl : framed = c := by
      rcases hperf.relayed with h | h
      · exact Option.some.inj (h.symm.trans hc)
      · simp [h, Phase.relayed?] at hc
    have howed' : p.owed = _ := howed (hc ▸ Option.some_ne_none framed)
    rw [hpassed, hrelayed, entriesOf_append, entriesOf_map_self, h, List.append_assoc]
    exact congrArg _ (congrArg _ howed'.symm)

theorem sending_step (h : Step s e s') (hr : lts.Run (.init o) tr s) (hi : Sending o tr s) :
    Sending o (tr ++ [⟨s, e, s'⟩]) s' := by
  cases h with
  | typed | eof | resized | elapse =>
    exact hi.quiet rfl rfl rfl (Nat.le_refl _) (fun h h' => ⟨h, h'⟩) (fun _ h => .inl h)
      fun _ h => .inl ⟨h, rfl⟩
  | fail | requestFailed | refused | unanswered | exit | detached | interrupt | sessionGone =>
    exact hi.idle rfl rfl rfl (Nat.le_refl _) (.inr ⟨_, rfl⟩)
  | @opened ok hp =>
    cases ok with
    | true => exact hi.idle rfl rfl rfl (Nat.le_succ _) (.inl rfl)
    | false =>
      rw [State.onOpened]
      cases s.options.command with
      | newSession => exact hi.idle rfl rfl rfl (Nat.le_refl _) (.inr ⟨_, rfl⟩)
      | attach => exact hi.idle rfl rfl rfl (Nat.le_refl _) (.inl (by rw [hp]; rfl))
  | requestSent hp =>
    exact hi.idle rfl (by simp [relayedOf, hp]) rfl (Nat.le_refl _) (.inl rfl)
  | accepted hp => exact sending_begin hr hi hp rfl rfl
  | @envSent framed hp | @resizeSentRedraw framed size hp =>
    have hrel : s.phase.relayed? = some framed := by rw [hp]; rfl
    exact hi.relays rfl (by simp [relayedOf, hp]) rfl rfl hrel rfl (by rw [hp]; rfl)
  | @resizeSent framed size hp | @redrawSent framed hp =>
    have hrel : s.phase.relayed? = some framed := by rw [hp]; rfl
    exact hi.relays rfl (by simp [relayedOf, hp]) rfl rfl hrel rfl (by rw [hp]; rfl)
  | sent hp => exact sending_sent hi hp
  | sendFailed hp =>
    exact hi.pauses rfl rfl rfl rfl ⟨early_of_relayed hp, not_exited_of_relayed hp⟩ (.inl ⟨_, rfl⟩)
  | inputEnded hp => exact hi.idle (by simp [passedOf, hp]) rfl rfl (Nat.le_refl _) (.inr ⟨_, rfl⟩)
  | input hp hn => exact sending_input hr hi hp hn rfl
  | @pong framed hp | @passive framed frame hp =>
    have hrel : s.phase.relayed? = some framed := by rw [hp]; rfl
    exact hi.relays rfl rfl rfl rfl hrel hrel rfl
  | disconnected hp hr' =>
    exact hi.pauses rfl rfl rfl rfl ⟨by rw [hp]; rfl, by simp [hp]⟩ (.inl ⟨_, rfl⟩)
  | timeout hp =>
    exact hi.pauses rfl rfl rfl rfl ⟨by rw [hp]; rfl, by simp [hp]⟩ (.inl ⟨_, rfl⟩)
  | @winch framed hp | @ping framed hp | @resume framed actions hp =>
    have hrel : s.phase.relayed? = some framed := by rw [hp]; rfl
    exact hi.relays rfl rfl rfl rfl hrel rfl (by rw [hp]; rfl)
  | swallow hp | wake hp =>
    exact hi.pauses rfl rfl rfl rfl ⟨by rw [hp]; rfl, by simp [hp]⟩ (.inr rfl)
  | @reconnected ok hp =>
    cases ok with
    | false => exact hi.pauses rfl rfl rfl rfl ⟨by rw [hp]; rfl, by simp [hp]⟩ (.inl ⟨_, rfl⟩)
    | true =>
      refine hi.quiet rfl rfl rfl (Nat.le_succ _) (fun _ _ => ⟨by rw [hp]; rfl, by simp [hp]⟩) ?_ ?_
      · rintro framed (hf | hf)
        · exact .inr (Phase.attaching.inj hf).symm
        · cases hf
      · intro c hc
        cases hc
  | @attachSent framed hp =>
    refine hi.quiet rfl (by simp [relayedOf, hp]) rfl (Nat.le_refl _)
      (fun _ _ => ⟨by rw [hp]; rfl, by simp [hp]⟩) ?_ ?_
    · rintro framed' (hf | hf)
      · cases hf
      · exact .inl (.inl (Phase.reattaching.inj hf ▸ hp))
    · intro c hc
      cases hc
  | attachFailed hp =>
    exact hi.pauses rfl rfl rfl rfl ⟨by rw [hp]; rfl, by simp [hp]⟩ (.inl ⟨_, rfl⟩)
  | @reattached framed hp =>
    obtain ⟨p, hs, hp'⟩ := startRelay_eq { s with redraw := true } framed
    rw [hs]
    refine hi.quiet rfl rfl rfl (Nat.le_refl _) (fun _ _ => ⟨by rw [hp]; rfl, by simp [hp]⟩) ?_ ?_
    · rcases hp' with ⟨-, rfl⟩ | ⟨-, rfl⟩ <;> simp
    · rcases hp' with ⟨-, rfl⟩ | ⟨-, rfl⟩ <;> simp [Phase.relayed?, Phase.owed, hp]
  | notReattached hp | reattachLost hp =>
    exact hi.pauses rfl rfl rfl rfl ⟨by rw [hp]; rfl, by simp [hp]⟩ (.inl ⟨_, rfl⟩)

theorem sending (hr : lts.Run (.init o) tr s) : Sending o tr s := by
  induction hr with
  | refl => exact ⟨by simp [State.init, Phase.early], by simp [passed], by simp [State.init],
      by simp [passed], fun _ => List.nil_prefix, by simp [State.init, Phase.relayed?]⟩
  | tail hr hst ih => exact sending_step (step_cases hst) hr ih

theorem mem_checked {b : UInt8} : b ∈ checked tr ↔ ∃ m ∈ tr, m.lbl = .wake (some b) := by
  rw [checked, List.mem_flatMap]
  refine exists_congr fun m => and_congr_right fun _ => ?_
  unfold checkedOf
  split
  · next r hl => simp [hl]
  · next hl => simpa using hl (some b)

/-- **No input is swallowed if and only if the reconnect loop reads nothing but a Ctrl-C.** -/
theorem typing_iff (hr : lts.Run (.init o) tr s) :
    Typing o tr s ↔ ∀ m ∈ tr, ∀ b, m.lbl = .wake (some b) → b = ctrlC := by
  have hchecked : (∀ b ∈ checked tr, b = ctrlC) ↔
      ∀ m ∈ tr, ∀ b, m.lbl = .wake (some b) → b = ctrlC := by
    simp only [mem_checked]
    exact ⟨fun h m hm b hl => h b ⟨m, hm, hl⟩, fun h b ⟨m, hm, hl⟩ => h m hm b hl⟩
  rw [← hchecked]
  constructor
  · intro ht
    -- what was read is what was passed and what was looked at; only the Ctrl-C is accounted for
    have hlen := congrArg List.length ht.kept
    rw [typed_eq_taken hr] at hlen
    simp only [List.length_append, length_taken] at hlen
    have hfil : ((checked tr).filter fun b => b = ctrlC).length = (checked tr).length := by omega
    simpa using List.length_filter_eq_length_iff.1 hfil
  · intro hc
    have hs := sending hr
    refine ⟨?_, hs.order, hs.sent, hs.owed⟩
    rw [typed_eq_taken hr, (taken_eq_passed hr hc).1, List.filter_eq_self.2 (by simpa using hc)]

/-- A client that attaches. -/
def outageOptions : Options where
  command := .attach "work" false
  noEscape := false
  var _ := none

/-- The connection is lost; after a second without input the user types, and the client attaches
again. -/
def keptEvents : List Event :=
  [.connect true, .sent true, .next (some (.ok .ok)), .sent true, .next none, .elapse 1000,
    .wake none, .typed [0x6c, 0x73], .connect true, .sent true, .next (some (.ok .ok)), .sent true,
    .sent true, .read 2, .sent true]

/-- The session gets all of it. -/
theorem typing_kept :
    ∃ s, LTS.exec step (.init outageOptions) keptEvents = some s ∧
      Typing outageOptions (LTS.trace step (.init outageOptions) keptEvents) s ∧
      relayed (LTS.trace step (.init outageOptions) keptEvents) = [(1, [0x6c, 0x73])] := by
  have h : ∃ s, LTS.exec step (.init outageOptions) keptEvents = some s := ⟨_, rfl⟩
  obtain ⟨s, h⟩ := h
  refine ⟨s, h, (typing_iff (LTS.run_of_exec h)).2 fun m hm b hl => ?_, by rfl⟩
  have hmem := LTS.lbl_mem_of_trace hm
  simp [hl, keptEvents] at hmem

/-- The user types within the second. -/
def swallowedEvents : List Event :=
  [.connect true, .sent true, .next (some (.ok .ok)), .sent true, .next none, .typed [0x6c, 0x73],
    .elapse 1000, .wake (some 0x6c), .connect true, .sent true, .next (some (.ok .ok)), .sent true,
    .sent true, .read 1, .sent true]

/-- The session does not get the first byte. -/
theorem not_typing_swallowed :
    ∃ s, LTS.exec step (.init outageOptions) swallowedEvents = some s ∧
      relayed (LTS.trace step (.init outageOptions) swallowedEvents) = [(1, [0x73])] ∧
      ¬ Typing outageOptions (LTS.trace step (.init outageOptions) swallowedEvents) s := by
  have h : ∃ s, LTS.exec step (.init outageOptions) swallowedEvents = some s ∧ s.stdin = [] :=
    ⟨_, rfl, rfl⟩
  obtain ⟨s, h, hs⟩ := h
  refine ⟨s, h, by rfl, fun ht => ?_⟩
  have hkept := ht.kept
  have htyped : typed (LTS.trace step (.init outageOptions) swallowedEvents) = [0x6c, 0x73] := by
    rfl
  have hpassed : passed (LTS.trace step (.init outageOptions) swallowedEvents) = [(1, [0x73])] := by
    rfl
  have hchecked : checked (LTS.trace step (.init outageOptions) swallowedEvents) = [0x6c] := by rfl
  rw [htyped, hpassed, hchecked, hs] at hkept
  revert hkept
  decide

end Terminal

end Gritty
