import Gritty.FileTree.Basic

/-!
# Trees that grow

One tree extends another when it has every entry of it, unchanged (`Extends`).  What a process finds
in a tree it finds in every extension of it.  Two facts about `stat` and `lstat` go with this, since
a check that looks at a path itself is often followed by a call that goes through it.

## Main results

* `Extends.resolve`, `Extends.stat`, `Extends.lstat` : what a path leads to stays there.
* `stat_of_lstat`, `lstat_of_stat` : a path that is no link is what it leads to, and a path that
  leads somewhere is there.
* `dir_of_stat_cons` : a path that goes on leads over a directory.
* `mkdir_eq_ok` : what a successful `mkdir` found and did.
* `create` : a directory that is created and given a mode extends the tree.
-/

namespace Gritty

namespace FileTree

variable {α : Type*} {fs fs' fs'' : FileTree α} {pr : Process α}
  {path up q : List (Component α)} {x : Component α} {c c' : Cursor α} {d p : Place α} {n : α}
  {e : Entry α}

theorem ok_of_bind {ε : Type*} {β γ : Type u} {x : Except ε β} {f : β → Except ε γ} {b : γ}
    (h : (x >>= f) = .ok b) : ∃ a, x = .ok a ∧ f a = .ok b := by
  cases x with
  | error => cases h
  | ok a => exact ⟨a, rfl, h⟩

/-! ### What a walk has found -/

theorem look_eq_ok : fs.look p = .ok e ↔ fs.entry p = some e := by
  unfold look
  cases fs.entry p <;> simp

theorem link?_of_dir {a : Attr} (h : fs.entry p = some ⟨a, .dir⟩) : fs.link? p = none := by
  rw [link?, h]

theorem dir_of_enter (h : fs.enter pr d x = .ok p) : ∃ a, fs.entry d = some ⟨a, .dir⟩ := by
  unfold enter at h
  cases hd : fs.dir? d with
  | none =>
    rw [hd] at h
    cases h
  | some a => exact ⟨a, dir?_eq_some.1 hd⟩

theorem enter_eq {a : Attr} (hd : fs.entry d = some ⟨a, .dir⟩) : fs.enter pr d x =
    if x.looksUp && !pr.search a then .error .access else fs.next d x := by
  rw [enter, dir?_eq_some.2 hd]

theorem entry_of_enter (h : fs.enter pr d x = .ok p) : ∃ e, fs.entry p = some e := by
  obtain ⟨a, hd⟩ := dir_of_enter h
  rw [enter_eq hd] at h
  by_cases hs : (x.looksUp && !pr.search a) = true
  · rw [if_pos hs] at h
    cases h
  · rw [if_neg hs] at h
    cases x with
    | normal n =>
      obtain ⟨he, rfl⟩ := next_normal_eq_ok.1 h
      exact he
    | parentDir =>
      cases h
      cases d with
      | nil => exact ⟨_, hd⟩
      | cons n d =>
        obtain ⟨b, hb⟩ := fs.parent n d (by rw [hd]; rfl)
        exact ⟨_, hb⟩
    | curDir =>
      cases h
      exact ⟨_, hd⟩
    | slash =>
      cases h
      exact ⟨_, hd⟩

theorem follow_of_enter {jump : Cursor α → List (Component α) → Except Errno (Cursor α)}
    (h : fs.enter pr c.place x = .ok p) (hl : fs.link? p = none) :
    fs.follow pr jump c x = .ok ⟨p, c.links⟩ := by
  simp only [follow, h, hl, bind, Except.bind]

theorem resolve_cons : fs.resolve pr (x :: path) =
    fs.resolve pr path >>= fun c => fs.follow pr (fs.walk pr (maxLinks - 1)) c x := by
  change fs.walk pr (39 + 1) _ _ = fs.walk pr (39 + 1) _ _ >>= _
  rw [walk, walk, List.reverse_cons, List.foldlM_append]
  congr 1
  funext c
  rw [List.foldlM_cons]
  exact bind_pure _

theorem enter_of_resolve_cons (h : fs.resolve pr (x :: path) = .ok c) :
    ∃ c', fs.resolve pr path = .ok c' ∧ ∃ p, fs.enter pr c'.place x = .ok p := by
  rw [resolve_cons] at h
  obtain ⟨c', hc', h⟩ := ok_of_bind h
  obtain ⟨p, hp, -⟩ := ok_of_bind h
  exact ⟨c', hc', p, hp⟩

theorem stat_eq_ok : fs.stat pr path = .ok e ↔
    ∃ c, fs.resolve pr path = .ok c ∧ fs.entry c.place = some e := by
  constructor
  · intro h
    obtain ⟨c, hc, h⟩ := ok_of_bind h
    exact ⟨c, hc, look_eq_ok.1 h⟩
  · rintro ⟨c, hc, h⟩
    rw [stat, hc]
    exact look_eq_ok.2 h

theorem lstat_cons_eq_ok : fs.lstat pr (x :: path) = .ok e ↔
    ∃ c, fs.resolve pr path = .ok c ∧ ∃ p, fs.enter pr c.place x = .ok p ∧
      fs.entry p = some e := by
  constructor
  · intro h
    obtain ⟨c, hc, h⟩ := ok_of_bind h
    obtain ⟨p, hp, h⟩ := ok_of_bind h
    exact ⟨c, hc, p, hp, look_eq_ok.1 h⟩
  · rintro ⟨c, hc, p, hp, h⟩
    rw [lstat, hc]
    change (fs.enter pr c.place x >>= _) = _
    rw [hp]
    exact look_eq_ok.2 h

/-- What is not a symbolic link is what the path leads to. -/
theorem stat_of_lstat (h : fs.lstat pr path = .ok e) (hl : ∀ l, e.kind ≠ .symlink l) :
    fs.stat pr path = .ok e := by
  cases path with
  | nil => exact stat_eq_ok.2 ⟨⟨[], maxLinks⟩, rfl, look_eq_ok.1 h⟩
  | cons x path =>
    obtain ⟨c, hc, p, hp, he⟩ := lstat_cons_eq_ok.1 h
    have hlink : fs.link? p = none := by
      obtain ⟨a, k⟩ := e
      rw [link?, he]
      cases k with
      | symlink l => exact absurd rfl (hl l)
      | _ => rfl
    refine stat_eq_ok.2 ⟨⟨p, c.links⟩, ?_, he⟩
    rw [resolve_cons, hc]
    exact follow_of_enter hp hlink

/-- A path that leads somewhere is there itself. -/
theorem lstat_of_stat (h : fs.stat pr path = .ok e) : ∃ e', fs.lstat pr path = .ok e' := by
  cases path with
  | nil =>
    obtain ⟨a, ha⟩ := fs.root
    exact ⟨_, look_eq_ok.2 ha⟩
  | cons x path =>
    obtain ⟨c, hc, -⟩ := stat_eq_ok.1 h
    obtain ⟨c', hc', p, hp⟩ := enter_of_resolve_cons hc
    obtain ⟨e', he⟩ := entry_of_enter hp
    exact ⟨e', lstat_cons_eq_ok.2 ⟨c', hc', p, hp, he⟩⟩

/-- A path that goes on leads over a directory. -/
theorem dir_of_stat_cons (h : fs.stat pr (x :: path) = .ok e) :
    ∃ e', fs.stat pr path = .ok e' ∧ e'.kind = .dir := by
  obtain ⟨c, hc, -⟩ := stat_eq_ok.1 h
  obtain ⟨c', hc', p, hp⟩ := enter_of_resolve_cons hc
  obtain ⟨a, ha⟩ := dir_of_enter hp
  exact ⟨⟨a, .dir⟩, stat_eq_ok.2 ⟨c', hc', ha⟩, rfl⟩

/-! ### Extensions -/

/-- Every entry of `fs` is in `fs'`, unchanged. -/
def Extends (fs fs' : FileTree α) : Prop := ∀ p e, fs.entry p = some e → fs'.entry p = some e

theorem foldlM_mono {ε σ β : Type*} {f g : σ → β → Except ε σ} {xs : List β} {s s' : σ}
    (hfg : ∀ s x s', f s x = .ok s' → g s x = .ok s') (h : xs.foldlM f s = .ok s') :
    xs.foldlM g s = .ok s' := by
  induction xs generalizing s with
  | nil => exact h
  | cons x xs ih =>
    rw [List.foldlM_cons] at h ⊢
    obtain ⟨s₁, h₁, h₂⟩ := ok_of_bind h
    rw [hfg _ _ _ h₁]
    exact ih h₂

namespace Extends

theorem refl (fs : FileTree α) : fs.Extends fs := fun _ _ => id

theorem trans (h : fs.Extends fs') (h' : fs'.Extends fs'') : fs.Extends fs'' :=
  fun p e he => h' p e (h p e he)

theorem next (h : fs.Extends fs') (hx : fs.next d x = .ok p) : fs'.next d x = .ok p := by
  cases x with
  | normal n =>
    obtain ⟨⟨e, he⟩, rfl⟩ := next_normal_eq_ok.1 hx
    exact next_normal_eq_ok.2 ⟨⟨e, h _ _ he⟩, rfl⟩
  | _ => exact hx

theorem enter (h : fs.Extends fs') (hx : fs.enter pr d x = .ok p) :
    fs'.enter pr d x = .ok p := by
  obtain ⟨a, hd⟩ := dir_of_enter hx
  rw [enter_eq hd] at hx
  rw [enter_eq (h _ _ hd)]
  by_cases hs : (x.looksUp && !pr.search a) = true
  · rw [if_pos hs] at hx
    cases hx
  · rw [if_neg hs] at hx ⊢
    exact h.next hx

theorem follow {jump jump' : Cursor α → List (Component α) → Except Errno (Cursor α)}
    (h : fs.Extends fs') (hj : ∀ c xs c', jump c xs = .ok c' → jump' c xs = .ok c')
    (hx : fs.follow pr jump c x = .ok c') : fs'.follow pr jump' c x = .ok c' := by
  obtain ⟨p, hp, hl⟩ := ok_of_bind hx
  obtain ⟨e, he⟩ := entry_of_enter hp
  have hlink : fs'.link? p = fs.link? p := by rw [link?, link?, he, h p e he]
  simp only [FileTree.follow, h.enter hp, hlink, bind, Except.bind]
  cases hk : fs.link? p with
  | none =>
    rw [hk] at hl
    exact hl
  | some link =>
    rw [hk] at hl
    by_cases h0 : c.links = 0
    · simp only [if_pos h0] at hl
      cases hl
    · simp only [if_neg h0] at hl ⊢
      exact hj _ _ _ hl

theorem walk (h : fs.Extends fs') {k : ℕ} {xs : List (Component α)}
    (hx : fs.walk pr k c xs = .ok c') : fs'.walk pr k c xs = .ok c' := by
  induction k generalizing c xs c' with
  | zero => exact foldlM_mono (fun _ _ _ => h.follow fun _ _ _ => id) hx
  | succ k ih => exact foldlM_mono (fun _ _ _ => h.follow fun _ _ _ => ih) hx

/-- **What a path leads to stays there.** -/
theorem resolve (h : fs.Extends fs') (hx : fs.resolve pr path = .ok c) :
    fs'.resolve pr path = .ok c := h.walk hx

theorem stat (h : fs.Extends fs') (hx : fs.stat pr path = .ok e) : fs'.stat pr path = .ok e := by
  obtain ⟨c, hc, he⟩ := stat_eq_ok.1 hx
  exact stat_eq_ok.2 ⟨c, h.resolve hc, h _ _ he⟩

theorem lstat (h : fs.Extends fs') (hx : fs.lstat pr path = .ok e) :
    fs'.lstat pr path = .ok e := by
  cases path with
  | nil => exact look_eq_ok.2 (h _ _ (look_eq_ok.1 hx))
  | cons x path =>
    obtain ⟨c, hc, p, hp, he⟩ := lstat_cons_eq_ok.1 hx
    exact lstat_cons_eq_ok.2 ⟨c, h.resolve hc, p, h.enter hp, h _ _ he⟩

end Extends

/-! ### Slashes behind a path -/

/-- `path` is `base` with slashes behind it. -/
inductive Slashes (base : List (Component α)) : List (Component α) → Prop
  | base : Slashes base base
  | slash {path : List (Component α)} : Slashes base path → Slashes base (.slash :: path)

theorem enter_normal_eq_ok {a : Attr} (hd : fs.entry d = some ⟨a, .dir⟩) (hs : pr.search a = true) :
    fs.enter pr d (.normal n) = .ok p ↔ (∃ e, fs.entry (n :: d) = some e) ∧ p = n :: d := by
  rw [enter_eq hd, if_neg (by simp [hs]), next_normal_eq_ok]

theorem resolve_slashes {a b : Attr} (hup : fs.resolve pr up = .ok c)
    (hd : fs.entry c.place = some ⟨a, .dir⟩) (hs : pr.search a = true)
    (hn : fs.entry (n :: c.place) = some ⟨b, .dir⟩) (hq : Slashes (.normal n :: up) q) :
    fs.resolve pr q = .ok ⟨n :: c.place, c.links⟩ := by
  induction hq with
  | base =>
    rw [resolve_cons, hup]
    exact follow_of_enter ((enter_normal_eq_ok hd hs).2 ⟨⟨_, hn⟩, rfl⟩) (link?_of_dir hn)
  | slash _ ih =>
    rw [resolve_cons, ih]
    exact follow_of_enter (enter_eq hn) (link?_of_dir hn)

theorem lstat_slashes {a b : Attr} (hup : fs.resolve pr up = .ok c)
    (hd : fs.entry c.place = some ⟨a, .dir⟩) (hs : pr.search a = true)
    (hn : fs.entry (n :: c.place) = some ⟨b, .dir⟩) (hq : Slashes (.normal n :: up) q) :
    fs.lstat pr q = .ok ⟨b, .dir⟩ := by
  cases hq with
  | base =>
    exact lstat_cons_eq_ok.2 ⟨c, hup, _, (enter_normal_eq_ok hd hs).2 ⟨⟨_, hn⟩, rfl⟩, hn⟩
  | slash hq =>
    exact lstat_cons_eq_ok.2 ⟨_, resolve_slashes hup hd hs hn hq, _, enter_eq hn, hn⟩

theorem enter_of_lstat (hq : Slashes (.normal n :: up) q) (h : fs.lstat pr q = .ok e) :
    ∃ c, fs.resolve pr up = .ok c ∧ ∃ p, fs.enter pr c.place (.normal n) = .ok p := by
  cases hq with
  | base =>
    obtain ⟨c, hc, p, hp, -⟩ := lstat_cons_eq_ok.1 h
    exact ⟨c, hc, p, hp⟩
  | slash hq =>
    obtain ⟨c, hc, -⟩ := lstat_cons_eq_ok.1 h
    clear h
    induction hq generalizing c with
    | base => exact enter_of_resolve_cons hc
    | slash _ ih =>
      obtain ⟨c', hc', -⟩ := enter_of_resolve_cons hc
      exact ih c' hc'

/-! ### A new directory -/

section Create

variable [DecidableEq α] {mode : Mode}

/-- What a successful `mkdir` found and did. -/
theorem mkdir_eq_ok (h : fs.mkdir pr mode path = .ok fs') : ∃ n up c a, ∃ hd,
    Slashes (.normal n :: up) path ∧ fs.resolve pr up = .ok c ∧
      fs.entry c.place = some ⟨a, .dir⟩ ∧ pr.search a = true ∧ fs.entry (n :: c.place) = none ∧
      fs' = fs.insertDir n c.place ⟨pr.uid, mode &&& ~~~pr.umask⟩ hd := by
  induction path with
  | nil =>
    obtain ⟨e, -, h⟩ := ok_of_bind h
    cases h
  | cons x path ih =>
    cases x with
    | slash =>
      obtain ⟨n, up, c, a, hd, hs, h⟩ := ih h
      exact ⟨n, up, c, a, hd, .slash hs, h⟩
    | normal n =>
      obtain ⟨c, hc, h⟩ := ok_of_bind h
      split at h
      · cases h
      · rename_i a hd
        by_cases hs : (!pr.search a) = true
        · rw [if_pos hs] at h
          cases h
        rw [if_neg hs] at h
        by_cases he : (fs.entry (n :: c.place)).isSome = true
        · rw [if_pos he] at h
          cases h
        rw [if_neg he] at h
        by_cases hcr : pr.create a (n :: c.place) = true
        · rw [if_pos hcr] at h
          cases h
          exact ⟨n, path, c, a, _, .base, hc, dir?_eq_some.1 hd, by simpa using hs,
            by simpa using he, rfl⟩
        · rw [if_neg hcr] at h
          cases h
    | _ =>
      obtain ⟨e, -, h⟩ := ok_of_bind h
      cases h

theorem chmod_eq_ok (h : fs.chmod pr mode path = .ok fs') :
    ∃ c, fs.resolve pr path = .ok c ∧ fs' = fs.setMode c.place mode := by
  obtain ⟨c, hc, h⟩ := ok_of_bind h
  obtain ⟨e, -, h⟩ := ok_of_bind h
  by_cases ho : e.attr.owner = pr.uid ∨ pr.uid = 0
  · rw [if_pos ho] at h
    exact ⟨c, hc, (Except.ok.inj h).symm⟩
  · rw [if_neg ho] at h
    cases h

theorem extends_insertDir {a : Attr} {hd} (hn : fs.entry (n :: d) = none) :
    fs.Extends (fs.insertDir n d a hd) := by
  intro p e he
  have hp : p ≠ n :: d := by
    rintro rfl
    simp [hn] at he
  exact (if_neg hp).trans he

theorem extends_setMode (h : fs.Extends fs') (hn : fs.entry p = none) :
    fs.Extends (fs'.setMode p mode) := by
  intro q e he
  have hq : q ≠ p := by
    rintro rfl
    simp [hn] at he
  change (fs'.entry q).map _ = _
  rw [h q e he, Option.map_some, if_neg hq]

/-- **A directory that is created with a mode** was not there before, is there with its owner and
mode, and nothing else changed. -/
theorem create {mode' : Mode} (hm : fs.mkdir pr mode path = .ok fs')
    (hc : fs'.chmod pr mode' path = .ok fs'') :
    fs.Extends fs'' ∧ ∀ q, path = q ∨ path = .slash :: q →
      (∀ e, fs.lstat pr q ≠ .ok e) ∧ fs''.lstat pr q = .ok ⟨⟨pr.uid, mode'⟩, .dir⟩ := by
  obtain ⟨n, up, c, a, hd', hpath, hup, hd, hs, hn, rfl⟩ := mkdir_eq_ok hm
  have h₁ : fs.Extends (fs.insertDir n c.place ⟨pr.uid, mode &&& ~~~pr.umask⟩ hd') :=
    extends_insertDir hn
  obtain ⟨c', hc', rfl⟩ := chmod_eq_ok hc
  rw [resolve_slashes (h₁.resolve hup) (h₁ _ _ hd) hs (if_pos rfl) hpath] at hc'
  obtain rfl := Except.ok.inj hc'
  have h₂ : fs.Extends (FileTree.setMode _ _ mode') := extends_setMode h₁ hn
  refine ⟨h₂, fun q hq => ?_⟩
  have hq : Slashes (.normal n :: up) q := by
    rcases hq with rfl | rfl
    · exact hpath
    · cases hpath with
      | slash h => exact h
  constructor
  · intro e he
    obtain ⟨c', hc', p, hp⟩ := enter_of_lstat hq he
    obtain rfl := Except.ok.inj (hup.symm.trans hc')
    obtain ⟨⟨e, he⟩, -⟩ := (enter_normal_eq_ok hd hs).1 hp
    simp [hn] at he
  · refine lstat_slashes (h₂.resolve hup) (h₂ _ _ hd) hs ?_ hq
    simp [setMode, insertDir]

end Create

end FileTree

end Gritty
