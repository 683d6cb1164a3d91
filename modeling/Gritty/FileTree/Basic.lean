import Mathlib.Data.BitVec
import Mathlib.Data.List.Basic

/-!
# File trees

A tree of directories, symbolic links and other files, with owners and modes, and the system calls
of a process that walk it: `stat` and `lstat`, `mkdir`, `chmod`.

A path is the list of its components, **last one first**, so that the directory above it is its
tail.  `walk` follows symbolic links where it meets them, up to a number of them; the last component
of a path is followed by `stat` and `chmod` but not by `lstat` and `mkdir`.

What a process may search and where it may create is a parameter (`Process`).

## Main definitions

* `FileTree`, `Entry`, `Place` : the tree, what stands at a place of it, and the places.
* `enter` : one component from a directory.
* `walk` : the rest of a path and what the links on it add, with a bound on the number of links.
* `resolve` : the place that a path leads to.
* `stat`, `lstat`, `mkdir`, `chmod` : the system calls.
-/

namespace Gritty

/-- A user. -/
abbrev Uid := ℕ

/-- The permission bits of an entry. -/
abbrev Mode := BitVec 12

/-- Why a system call fails. -/
inductive Errno where
  | noEntry
  | notDir
  | loop
  | access
  | exist
  | notOwner
  deriving DecidableEq

/-- A component of a path. -/
inductive Component (α : Type*) where
  | normal (name : α)
  | parentDir
  | curDir
  /-- a slash behind the last name -/
  | slash
  deriving DecidableEq

/-- All but a slash is looked up in the directory. -/
def Component.looksUp {α : Type*} : Component α → Bool
  | .slash => false
  | .normal _ | .parentDir | .curDir => true

/-- The path in a symbolic link, its first component first. -/
structure Link (α : Type*) where
  absolute : Bool
  target : List (Component α)
  deriving DecidableEq

/-- What an entry is. -/
inductive Kind (α : Type*) where
  | dir
  | symlink (link : Link α)
  | other
  deriving DecidableEq

/-- Whose an entry is, and its permissions. -/
structure Attr where
  owner : Uid
  mode : Mode
  deriving DecidableEq

/-- An entry of a directory. -/
structure Entry (α : Type*) where
  attr : Attr
  kind : Kind α
  deriving DecidableEq

/-- Where an entry is: the names from the root to it, last one first. -/
abbrev Place (α : Type*) := List α

/-- A tree has a root and its entries are in directories. -/
structure FileTree (α : Type*) where
  entry : Place α → Option (Entry α)
  root : ∃ a, entry [] = some ⟨a, .dir⟩
  parent : ∀ n d, (entry (n :: d)).isSome → ∃ a, entry d = some ⟨a, .dir⟩

/-- The process that calls. -/
structure Process (α : Type*) where
  uid : Uid
  umask : Mode
  /-- it may look names up in a directory -/
  search : Attr → Bool
  /-- it can create an entry in a directory, at a place -/
  create : Attr → Place α → Bool

namespace FileTree

variable {α : Type*} (fs : FileTree α) (pr : Process α)

/-! ### Single entries -/

/-- The directory at a place. -/
def dir? (d : Place α) : Option Attr :=
  match fs.entry d with
  | some ⟨a, .dir⟩ => some a
  | _ => none

theorem dir?_eq_some {fs : FileTree α} {d : Place α} {a : Attr} :
    fs.dir? d = some a ↔ fs.entry d = some ⟨a, .dir⟩ := by
  unfold dir?
  cases he : fs.entry d with
  | none => simp
  | some e =>
    obtain ⟨b, k⟩ := e
    cases k <;> simp

/-- The symbolic link at a place. -/
def link? (p : Place α) : Option (Link α) :=
  match fs.entry p with
  | some ⟨_, .symlink link⟩ => some link
  | _ => none

/-- The entry at a place. -/
def look (p : Place α) : Except Errno (Entry α) :=
  match fs.entry p with
  | some e => .ok e
  | none => .error .noEntry

/-- A new directory. -/
def insertDir [DecidableEq α] (n : α) (d : Place α) (a : Attr)
    (h : ∃ a, fs.entry d = some ⟨a, .dir⟩) : FileTree α where
  entry p := if p = n :: d then some ⟨a, .dir⟩ else fs.entry p
  root := by simpa using fs.root
  parent m e hm := by
    by_cases he : e = n :: d
    · exact ⟨a, if_pos he⟩
    · rw [if_neg he]
      by_cases hme : m :: e = n :: d
      · obtain ⟨-, rfl⟩ := List.cons.inj hme
        exact h
      · rw [if_neg hme] at hm
        exact fs.parent m e hm

/-- Change the mode of the entry at a place. -/
def setMode [DecidableEq α] (p : Place α) (mode : Mode) : FileTree α where
  entry q := (fs.entry q).map fun e => if q = p then { e with attr.mode := mode } else e
  root := by
    obtain ⟨a, ha⟩ := fs.root
    rw [ha]
    by_cases hp : [] = p
    · exact ⟨_, congrArg some (if_pos hp)⟩
    · exact ⟨_, congrArg some (if_neg hp)⟩
  parent n d h := by
    obtain ⟨a, ha⟩ := fs.parent n d (by simpa using h)
    rw [ha]
    by_cases hp : d = p
    · exact ⟨_, congrArg some (if_pos hp)⟩
    · exact ⟨_, congrArg some (if_neg hp)⟩

/-! ### Walking -/

/-- Where a component leads from a directory. -/
def next (d : Place α) : Component α → Except Errno (Place α)
  | .normal n => if (fs.entry (n :: d)).isSome then .ok (n :: d) else .error .noEntry
  | .parentDir => .ok d.tail
  | .curDir | .slash => .ok d

theorem next_normal_eq_ok {fs : FileTree α} {n : α} {d p : Place α} :
    fs.next d (.normal n) = .ok p ↔ (∃ e, fs.entry (n :: d) = some e) ∧ p = n :: d := by
  rw [next]
  cases fs.entry (n :: d) with
  | none => simp
  | some e => simp [eq_comm (a := p)]

/-- One component, without following a symbolic link. -/
def enter (d : Place α) (x : Component α) : Except Errno (Place α) :=
  match fs.dir? d with
  | none => .error .notDir
  | some a => if x.looksUp && !pr.search a then .error .access else fs.next d x

/-- Where a walk is, and how many links it may still follow. -/
structure Cursor (α : Type*) where
  place : Place α
  links : ℕ

/-- One component, and the symbolic link that is found there. -/
def follow (jump : Cursor α → List (Component α) → Except Errno (Cursor α)) (c : Cursor α)
    (x : Component α) : Except Errno (Cursor α) := do
  let p ← fs.enter pr c.place x
  match fs.link? p with
  | none => .ok ⟨p, c.links⟩
  | some link =>
    if c.links = 0 then .error .loop
    else jump ⟨if link.absolute then [] else c.place, c.links - 1⟩ link.target

/-- Walk along the components; the first argument bounds how deep links in links nest. -/
def walk : ℕ → Cursor α → List (Component α) → Except Errno (Cursor α)
  | 0, c, xs => xs.foldlM (fs.follow pr fun _ _ => .error .loop) c
  | k + 1, c, xs => xs.foldlM (fs.follow pr (walk k)) c

/-- How many symbolic links a walk follows. -/
def maxLinks : ℕ := 40

/-- Walk from the root along a path. -/
def resolve (path : List (Component α)) : Except Errno (Cursor α) :=
  fs.walk pr maxLinks ⟨[], maxLinks⟩ path.reverse

/-! ### The system calls -/

/-- `stat(2)` : the entry that a path leads to, symbolic links followed. -/
def stat (path : List (Component α)) : Except Errno (Entry α) := do
  let c ← fs.resolve pr path
  fs.look c.place

/-- `lstat(2)` : the same, but the last component is not followed. -/
def lstat : List (Component α) → Except Errno (Entry α)
  | [] => fs.look []
  | x :: path => do
    let c ← fs.resolve pr path
    let p ← fs.enter pr c.place x
    fs.look p

/-- `mkdir(2)` : slashes at the end of the path are skipped. -/
def mkdir [DecidableEq α] (mode : Mode) : List (Component α) → Except Errno (FileTree α)
  | .slash :: path => mkdir mode path
  | .normal n :: path => do
    let c ← fs.resolve pr path
    match h : fs.dir? c.place with
    | none => .error .notDir
    | some a =>
      if !pr.search a then .error .access
      else if (fs.entry (n :: c.place)).isSome then .error .exist
      else if pr.create a (n :: c.place) then
        .ok (fs.insertDir n c.place ⟨pr.uid, mode &&& ~~~pr.umask⟩ ⟨a, dir?_eq_some.1 h⟩)
      else .error .access
  | path => do
    let _ ← fs.stat pr path
    .error .exist

/-- `chmod(2)`, which follows symbolic links and is for the owner. -/
def chmod [DecidableEq α] (mode : Mode) (path : List (Component α)) :
    Except Errno (FileTree α) := do
  let c ← fs.resolve pr path
  let e ← fs.look c.place
  if e.attr.owner = pr.uid ∨ pr.uid = 0 then .ok (fs.setMode c.place mode) else .error .notOwner

end FileTree

end Gritty
