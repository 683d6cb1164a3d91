import Gritty.FileTree.Extends
import Mathlib.Data.List.Induction
import Mathlib.Data.List.Infix
import Mathlib.Data.List.TakeWhile

/-!
# The directory of the control socket

`secure_create_dir_all` creates what is missing of a path and checks the deepest directory that
exists.  The directories above that one are not looked at: the promise that no component below a
trusted root is a symbolic link or belongs to somebody else holds exactly if they keep it by
themselves.

## Main definitions

* `parent`, `isTrustedRoot`, `validateDir`, `createDir` : the functions of the source.
* `secureCreateDirAll` : the recursion over the path.
* `Promise` : what the comment of the function promises of the components.
* `Passed` : a component that is not looked at.

## Main results

* `secureCreateDirAll_eq` : the recursion is that of the source.
* `validateDir_eq_ok` : what the check accepts.
* `fate` : a component was created by this call, was checked, or was passed.
* `promise_iff` : the promise is kept if and only if the components that are passed keep it.
-/

namespace Gritty

namespace Security

/-- A file name, in bytes. -/
abbrev Name := List UInt8

/-- How the text of a path ends: with its last component, with slashes behind it, or with `/.`. -/
inductive Tail where
  | none
  | slash
  | dot
  deriving DecidableEq

/-- An absolute path.  More slashes and dots between its components make no difference. -/
structure Path where
  /-- last one first -/
  components : List (Component Name)
  /-- a single slash stands in front of the components -/
  plain : Bool
  tail : Tail

namespace Path

/-- What is walked along. -/
def steps (path : Path) : List (Component Name) :=
  match path.tail with
  | .none => path.components
  | .slash => .slash :: path.components
  | .dot => .curDir :: path.components

/-- `Path::parent` -/
def parent (path : Path) : Option Path :=
  match path.components with
  | [] => none
  | _ :: components => some ⟨components, path.plain || components.isEmpty, .none⟩

end Path

/-- Why `secure_create_dir_all` refuses or fails. -/
inductive Error where
  | os (e : Errno)
  /-- `refusing to use symlink at {path}` -/
  | symlink (path : Path)
  /-- `{path} is not a directory` -/
  | notDirectory (path : Path)
  /-- `{path} is owned by uid {owner}, expected uid {uid}` -/
  | foreign (path : Path) (owner uid : Uid)

/-- The components of `/`, `/tmp` and `/run`. -/
def systemRoots : List (List (Component Name)) :=
  [[], [.normal [0x74, 0x6d, 0x70]], [.normal [0x72, 0x75, 0x6e]]]

/-! ### The code -/

section

variable (pr : Process Name) (xdg : Option Path)

/-- `is_trusted_root`; `xdg` is the value of `XDG_RUNTIME_DIR`, if it is an absolute path.  The
texts of the system roots are compared, but the components of `xdg`. -/
def isTrustedRoot (path : Path) : Bool :=
  (path.plain && decide (path.tail = .none) && systemRoots.contains path.components) ||
    xdg.any fun x => decide (path.components = x.components)

/-- `Path::exists` -/
def pathExists (path : Path) (fs : FileTree Name) : Bool := (fs.stat pr path.steps).isOk

/-- `validate_dir` : the path is a directory of ours and no symbolic link. -/
def validateDir (path : Path) (fs : FileTree Name) : Except Error Unit :=
  match fs.lstat pr path.steps with
  | .error e => .error (.os e)
  | .ok e =>
    match e.kind with
    | .symlink _ => .error (.symlink path)
    | .other => .error (.notDirectory path)
    | .dir =>
      if e.attr.owner = pr.uid then .ok () else .error (.foreign path e.attr.owner pr.uid)

/-- `create_dir` and `set_permissions` -/
def createDir (path : Path) (fs : FileTree Name) : Except Error (FileTree Name) :=
  (do
    let fs ← fs.mkdir pr 0o777 path.steps
    fs.chmod pr 0o700 path.steps).mapError .os

/-- `secure_create_dir_all`, for the path with these components. -/
def secureCreateFrom (components : List (Component Name)) (plain : Bool) (tail : Tail)
    (fs : FileTree Name) : Except Error (FileTree Name) :=
  let path : Path := ⟨components, plain, tail⟩
  if pathExists pr path fs then
    if isTrustedRoot xdg path then .ok fs else (validateDir pr path fs).map fun _ => fs
  else
    match components with
    | [] => createDir pr path fs
    | _ :: up => do
      let fs ← secureCreateFrom up (plain || up.isEmpty) .none fs
      createDir pr path fs

/-- `secure_create_dir_all` -/
def secureCreateDirAll (path : Path) (fs : FileTree Name) : Except Error (FileTree Name) :=
  secureCreateFrom pr xdg path.components path.plain path.tail fs

/-- The code of the source. -/
theorem secureCreateDirAll_eq (path : Path) (fs : FileTree Name) :
    secureCreateDirAll pr xdg path fs =
      if pathExists pr path fs then
        if isTrustedRoot xdg path then .ok fs else (validateDir pr path fs).map fun _ => fs
      else
        (match path.parent with
          | some parent => secureCreateDirAll pr xdg parent fs
          | none => .ok fs) >>= createDir pr path := by
  obtain ⟨components, plain, tail⟩ := path
  cases components <;> rfl

end

/-! ### What it promises -/

section

variable (pr : Process Name) (xdg : Option Path)

/-- The path is a trusted root. -/
def isRoot (q : List (Component Name)) : Bool :=
  systemRoots.contains q || xdg.any fun x => decide (q = x.components)

/-- The paths to the components below the nearest trusted root, the longest one first. -/
def below (path : Path) : List (List (Component Name)) :=
  path.components.tails.takeWhile fun q => !isRoot xdg q

/-- A component that the current user or the superuser keeps. -/
def Kept (e : Entry Name) : Prop :=
  e.kind = .dir ∧ (e.attr.owner = pr.uid ∨ e.attr.owner = 0)

/-- The promise about the components of a path, between the tree before and the tree behind the
call. -/
structure Promise (path : Path) (fs fs' : FileTree Name) : Prop where
  existing : ∀ q ∈ below xdg path, ∀ e, fs.lstat pr q = .ok e → Kept pr e
  created : ∀ q, q <:+ path.components → (∀ e, fs.lstat pr q ≠ .ok e) →
    fs'.lstat pr q = .ok ⟨⟨pr.uid, 0o700⟩, .dir⟩
  unchanged : fs.Extends fs'

/-- The path goes on behind the component, and what follows exists. -/
def Passed (path : Path) (fs : FileTree Name) (q : List (Component Name)) : Prop :=
  ∃ x, x :: q <:+ path.steps ∧ ∃ e, fs.stat pr (x :: q) = .ok e

end

/-! ### When it keeps its promise -/

section

variable {pr : Process Name} {xdg : Option Path} {fs fs' fs'' : FileTree Name}
  {components q : List (Component Name)} {plain : Bool} {tail : Tail} {path : Path}
  {e : Entry Name}

open FileTree

theorem isRoot_of_isTrustedRoot (h : isTrustedRoot xdg path = true) :
    isRoot xdg path.components = true := by
  rw [isTrustedRoot, Bool.or_eq_true, Bool.and_eq_true] at h
  rw [isRoot, Bool.or_eq_true]
  exact h.imp_left And.right

theorem not_isRoot_of_mem_below (h : q ∈ below xdg path) : isRoot xdg q = false := by
  simpa using List.mem_takeWhile_imp h

theorem suffix_of_mem_below (h : q ∈ below xdg path) : q <:+ path.components :=
  (List.mem_tails _ _).1 ((List.takeWhile_sublist _).mem h)

theorem components_suffix_steps (path : Path) : path.components <:+ path.steps := by
  unfold Path.steps
  cases path.tail with
  | none => exact List.suffix_refl _
  | slash => exact List.suffix_cons _ _
  | dot => exact List.suffix_cons _ _

theorem cons_suffix_of_suffix {α : Type*} {q xs : List α} (h : q <:+ xs) (hne : q ≠ xs) :
    ∃ x, x :: q <:+ xs := by
  obtain ⟨ys, rfl⟩ := h
  cases ys using List.reverseRecOn with
  | nil => exact (hne rfl).elim
  | append_singleton ys x => exact ⟨x, ys, by simp⟩

theorem stat_of_suffix {q p : List (Component Name)} (h : q <:+ p)
    (hs : ∃ e, fs.stat pr p = .ok e) : ∃ e, fs.stat pr q = .ok e := by
  obtain ⟨ys, rfl⟩ := h
  induction ys with
  | nil => exact hs
  | cons y ys ih =>
    obtain ⟨e, he⟩ := hs
    obtain ⟨e', he', -⟩ := dir_of_stat_cons he
    exact ih ⟨e', he'⟩

theorem pathExists_iff : pathExists pr path fs = true ↔ ∃ e, fs.stat pr path.steps = .ok e := by
  unfold pathExists
  cases fs.stat pr path.steps with
  | error => simp [Except.isOk, Except.toBool]
  | ok e => simp [Except.isOk, Except.toBool]

/-- What `validate_dir` accepts. -/
theorem validateDir_eq_ok (h : validateDir pr path fs = .ok ()) :
    ∃ e, fs.lstat pr path.steps = .ok e ∧ e.kind = .dir ∧ e.attr.owner = pr.uid := by
  unfold validateDir at h
  cases hl : fs.lstat pr path.steps with
  | error =>
    rw [hl] at h
    cases h
  | ok e =>
    rw [hl] at h
    refine ⟨e, rfl, ?_⟩
    cases hk : e.kind with
    | dir =>
      simp only [hk] at h
      by_cases ho : e.attr.owner = pr.uid
      · exact ⟨rfl, ho⟩
      · rw [if_neg ho] at h
        cases h
    | _ =>
      simp only [hk] at h
      cases h

/-- What becomes of a component in a call that succeeds. -/
inductive Fate (pr : Process Name) (xdg : Option Path) (path : Path) (fs fs' : FileTree Name)
    (q : List (Component Name)) : Prop
  | created : (∀ e, fs.lstat pr q ≠ .ok e) → fs'.lstat pr q = .ok ⟨⟨pr.uid, 0o700⟩, .dir⟩ →
      Fate pr xdg path fs fs' q
  | trusted : isRoot xdg q = true → (∃ e, fs.stat pr q = .ok e) → Fate pr xdg path fs fs' q
  | validated {e : Entry Name} : fs.lstat pr q = .ok e → e.kind = .dir → e.attr.owner = pr.uid →
      Fate pr xdg path fs fs' q
  | passed : Passed pr path fs q → Fate pr xdg path fs fs' q

theorem fate_of_pathExists (hex : pathExists pr path fs = true)
    (h : isTrustedRoot xdg path = true ∨ validateDir pr path fs = .ok ())
    (hq : q <:+ path.components) : Fate pr xdg path fs fs' q := by
  have hstat := pathExists_iff.1 hex
  by_cases hne : q = path.components
  · subst hne
    rcases h with h | h
    · exact .trusted (isRoot_of_isTrustedRoot h)
        (stat_of_suffix (components_suffix_steps path) hstat)
    · obtain ⟨e, he, hk, ho⟩ := validateDir_eq_ok h
      unfold Path.steps at he hstat
      cases ht : path.tail with
      | none =>
        simp only [ht] at he
        exact .validated he hk ho
      | _ =>
        simp only [ht] at hstat
        refine .passed ⟨_, ?_, hstat⟩
        rw [Path.steps, ht]
  · obtain ⟨x, hx⟩ := cons_suffix_of_suffix hq hne
    have hx := hx.trans (components_suffix_steps path)
    exact .passed ⟨x, hx, stat_of_suffix hx hstat⟩

theorem createDir_eq_ok (h : createDir pr path fs = .ok fs') :
    fs.Extends fs' ∧ (∀ e, fs.lstat pr path.components ≠ .ok e) ∧
      fs'.lstat pr path.components = .ok ⟨⟨pr.uid, 0o700⟩, .dir⟩ := by
  have hc : (fs.mkdir pr 0o777 path.steps >>= fun fs => fs.chmod pr 0o700 path.steps) =
      .ok fs' := by
    unfold createDir at h
    revert h
    cases (fs.mkdir pr 0o777 path.steps >>= fun fs => fs.chmod pr 0o700 path.steps) with
    | error => exact nofun
    | ok => exact fun h => congrArg Except.ok (Except.ok.inj h)
  obtain ⟨fs₁, hm, hc⟩ := ok_of_bind hc
  obtain ⟨hext, hq⟩ := create hm hc
  refine ⟨hext, hq _ ?_⟩
  unfold Path.steps at hm ⊢
  cases ht : path.tail with
  | none => exact .inl rfl
  | slash => exact .inr rfl
  | dot =>
    -- no directory is created with the name `.`
    simp only [ht] at hm
    obtain ⟨n, up, c, a, hd, hs, -⟩ := mkdir_eq_ok hm
    cases hs

theorem ok_of_pathExists (hex : pathExists pr ⟨components, plain, tail⟩ fs = true)
    (h : secureCreateFrom pr xdg components plain tail fs = .ok fs') :
    fs' = fs ∧ (isTrustedRoot xdg ⟨components, plain, tail⟩ = true ∨
      validateDir pr ⟨components, plain, tail⟩ fs = .ok ()) := by
  unfold secureCreateFrom at h
  simp only [if_pos hex] at h
  by_cases ht : isTrustedRoot xdg ⟨components, plain, tail⟩ = true
  · rw [if_pos ht] at h
    exact ⟨(Except.ok.inj h).symm, .inl ht⟩
  · rw [if_neg ht] at h
    cases hv : validateDir pr ⟨components, plain, tail⟩ fs with
    | error =>
      rw [hv] at h
      cases h
    | ok =>
      rw [hv] at h
      exact ⟨(Except.ok.inj h).symm, .inr rfl⟩

/-- **Every component has a fate.** -/
theorem fate (h : secureCreateFrom pr xdg components plain tail fs = .ok fs') :
    fs.Extends fs' ∧ ∀ q, q <:+ components → Fate pr xdg ⟨components, plain, tail⟩ fs fs' q := by
  induction components generalizing plain tail fs' with
  | nil =>
    by_cases hex : pathExists pr ⟨[], plain, tail⟩ fs = true
    · obtain ⟨rfl, hok⟩ := ok_of_pathExists hex h
      exact ⟨.refl _, fun q hq => fate_of_pathExists hex hok hq⟩
    · rw [secureCreateFrom] at h
      simp only [if_neg hex] at h
      obtain ⟨hext, hnot, hnew⟩ := createDir_eq_ok h
      refine ⟨hext, fun q hq => ?_⟩
      obtain rfl := List.suffix_nil.1 hq
      exact .created hnot hnew
  | cons x up ih =>
    by_cases hex : pathExists pr ⟨x :: up, plain, tail⟩ fs = true
    · obtain ⟨rfl, hok⟩ := ok_of_pathExists hex h
      exact ⟨.refl _, fun q hq => fate_of_pathExists hex hok hq⟩
    · rw [secureCreateFrom] at h
      simp only [if_neg hex] at h
      obtain ⟨fs₁, hup, h⟩ := ok_of_bind h
      obtain ⟨hext₁, hfate⟩ := ih hup
      obtain ⟨hext₂, hnot, hnew⟩ := createDir_eq_ok h
      refine ⟨hext₁.trans hext₂, fun q hq => ?_⟩
      rcases List.suffix_cons_iff.1 hq with rfl | hq
      · exact .created (fun e he => hnot e (hext₁.lstat he)) hnew
      · cases hfate q hq with
        | created hnot hnew => exact .created hnot (hext₂.lstat hnew)
        | trusted hr hs => exact .trusted hr hs
        | validated he hk ho => exact .validated he hk ho
        | passed hp =>
          obtain ⟨y, hy, hs⟩ := hp
          have hy : y :: q <:+ x :: up := List.IsSuffix.trans hy (List.suffix_cons x up)
          exact .passed ⟨y, hy.trans (components_suffix_steps ⟨x :: up, plain, tail⟩), hs⟩

theorem dir_of_passed (hp : Passed pr path fs q) (he : fs.lstat pr q = .ok e)
    (hl : ∀ l, e.kind ≠ .symlink l) : e.kind = .dir := by
  obtain ⟨x, -, e', hs⟩ := hp
  obtain ⟨e₁, he₁, hk⟩ := dir_of_stat_cons hs
  obtain rfl := Except.ok.inj ((stat_of_lstat he hl).symm.trans he₁)
  exact hk

/-- **`secure_create_dir_all` keeps its promise exactly if the components that it passes keep it**:
a component below the nearest trusted root behind which the path goes on and exists must not be a
symbolic link and must belong to the current user or the superuser. -/
theorem promise_iff (h : secureCreateDirAll pr xdg path fs = .ok fs') :
    Promise pr xdg path fs fs' ↔
      ∀ q ∈ below xdg path, Passed pr path fs q → ∀ e, fs.lstat pr q = .ok e →
        (∀ l, e.kind ≠ .symlink l) ∧ (e.attr.owner = pr.uid ∨ e.attr.owner = 0) := by
  obtain ⟨hext, hfate⟩ := fate h
  constructor
  · intro hpr q hq _ e he
    obtain ⟨hk, ho⟩ := hpr.existing q hq e he
    exact ⟨fun l hl => by simp [hk] at hl, ho⟩
  · intro hpass
    refine ⟨fun q hq e he => ?_, fun q hq hnot => ?_, hext⟩
    · cases hfate q (suffix_of_mem_below hq) with
      | created hnot => exact absurd he (hnot e)
      | trusted hr => simp [not_isRoot_of_mem_below hq] at hr
      | validated he' hk ho =>
        obtain rfl := Except.ok.inj (he.symm.trans he')
        exact ⟨hk, .inl ho⟩
      | passed hp =>
        obtain ⟨hl, ho⟩ := hpass q hq hp e he
        exact ⟨dir_of_passed hp he hl, ho⟩
    · -- what is not created was there
      have hthere : ∀ e, fs.stat pr q ≠ .ok e := fun e hs => by
        obtain ⟨e', he'⟩ := lstat_of_stat hs
        exact hnot e' he'
      cases hfate q hq with
      | created _ hnew => exact hnew
      | trusted _ hs =>
        obtain ⟨e, hs⟩ := hs
        exact absurd hs (hthere e)
      | validated he => exact absurd he (hnot _)
      | passed hp =>
        obtain ⟨x, -, e, hs⟩ := hp
        obtain ⟨e', hs', -⟩ := dir_of_stat_cons hs
        exact absurd hs' (hthere e')

/-! ### A directory in a directory -/

/-- `/a/b`, where `/a` has an owner and `/a/b` belongs to the user 1000. -/
def nested (owner : Uid) : FileTree Name where
  entry
    | [] => some ⟨⟨0, 0o755⟩, .dir⟩
    | [n] => if n = [0x61] then some ⟨⟨owner, 0o777⟩, .dir⟩ else none
    | [n, m] => if m = [0x61] ∧ n = [0x62] then some ⟨⟨1000, 0o700⟩, .dir⟩ else none
    | _ => none
  root := ⟨_, rfl⟩
  parent n d h := by
    match d, h with
    | [], _ => exact ⟨_, rfl⟩
    | [m], h =>
      by_cases hm : m = [0x61]
      · exact ⟨_, if_pos hm⟩
      · simp [hm] at h
    | _ :: _ :: _, h => cases h

/-- The user 1000. -/
def user : Process Name where
  uid := 1000
  umask := 0o077
  search a := decide (a.owner = 1000) || a.mode.getLsbD 0
  create a _ := decide (a.owner = 1000)

/-- `/a/b/c` -/
def nestedPath : Path := ⟨[.normal [0x63], .normal [0x62], .normal [0x61]], true, .none⟩

/-- Below a directory of the superuser the promise is kept. -/
theorem promise_root : ∃ fs', secureCreateDirAll user none nestedPath (nested 0) = .ok fs' ∧
    Promise user none nestedPath (nested 0) fs' := by
  have hrun : (secureCreateDirAll user none nestedPath (nested 0)).isOk = true := by decide +kernel
  cases h : secureCreateDirAll user none nestedPath (nested 0) with
  | error =>
    rw [h] at hrun
    cases hrun
  | ok fs' =>
    refine ⟨fs', rfl, (promise_iff h).2 fun q hq _ e he => ?_⟩
    have hall : ∀ q ∈ below none nestedPath, ∀ e ∈ ((nested 0).lstat user q).toOption,
        e.kind = .dir ∧ (e.attr.owner = 1000 ∨ e.attr.owner = 0) := by
      decide +kernel
    obtain ⟨hk, ho⟩ := hall q hq e (by rw [he]; rfl)
    exact ⟨fun l hl => by simp [hk] at hl, ho⟩

/-- **A directory of somebody else is passed.** -/
theorem not_promise_foreign : ∃ pr xdg path fs fs',
    secureCreateDirAll pr xdg path fs = .ok fs' ∧ ¬ Promise pr xdg path fs fs' := by
  have hrun : (secureCreateDirAll user none nestedPath (nested 7)).isOk = true := by decide +kernel
  cases h : secureCreateDirAll user none nestedPath (nested 7) with
  | error =>
    rw [h] at hrun
    cases hrun
  | ok fs' =>
    refine ⟨user, none, nestedPath, nested 7, fs', h, fun hp => ?_⟩
    have hk := hp.existing [.normal [0x61]] (by decide) ⟨⟨7, 0o777⟩, .dir⟩ (by rfl)
    exact absurd hk.2 (by decide)

end

end Security

end Gritty
