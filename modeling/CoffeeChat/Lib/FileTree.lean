import Mathlib.Data.List.Basic
import Mathlib.Logic.Function.Basic

/-!
# Trees of directories and files

A file system as the set of its nodes. A location is the list of names from the root; a `Tree` says
what is at each location, and carries that the root is a directory and that every node lies in a
directory. `mkdir` makes a directory where the name is free and its parent is a directory, and
`createAll` is what a list of such calls makes of a tree, the failing ones included. Nothing is ever
removed, and no regular file is made: every tree that comes about so `Extends` the one before.

A `Route` is how a process names a location: from the root or from its current directory, through
steps that stay, go up or go down. Each step is taken from a directory (`Tree.walk`), so that a
route leads nowhere as long as a directory on it is missing. A `View` is a tree with the current
directory of a process.
-/

namespace Lib.FileTree

/-- What a node is. -/
inductive Kind where
  | directory
  | file
  deriving DecidableEq, Repr

/-- A step on the way through a tree. -/
inductive Step (κ : Type) where
  | stay
  | up
  | down (name : κ)
  deriving DecidableEq, Repr

variable {κ : Type}

/-- Where a step leads to from a location; the root is its own parent. -/
def Step.target (l : List κ) : Step κ → List κ
  | .stay => l
  | .up => l.dropLast
  | .down name => l ++ [name]

/-- A way through a tree, from the root or from the current directory. -/
structure Route (κ : Type) where
  absolute : Bool
  steps : List (Step κ)
  deriving DecidableEq, Repr

/-- The route without its last step. -/
def Route.front (r : Route κ) : Route κ := { r with steps := r.steps.dropLast }

/-- Where a route starts. -/
def Route.start (cwd : List κ) (r : Route κ) : List κ := if r.absolute then [] else cwd

/-- A route with a step behind it goes on from the route. -/
theorem Route.front_append (absolute : Bool) (steps : List (Step κ)) (step : Step κ) :
    (Route.mk absolute (steps ++ [step])).front = ⟨absolute, steps⟩ := by
  rw [Route.front, List.dropLast_concat]

/-- A file system of directories and regular files. -/
structure Tree (κ : Type) where
  /-- What is at a location, if anything. -/
  kind : List κ → Option Kind
  /-- The root is a directory. -/
  root : kind [] = some .directory
  /-- Every node lies in a directory. -/
  closed : ∀ l, (kind l).isSome = true → kind l.dropLast = some .directory

namespace Tree

/-- Nothing but the root. -/
def empty : Tree κ where
  kind l := if l.isEmpty then some .directory else none
  root := rfl
  closed l h := by
    cases l with
    | nil => rfl
    | cons name names => cases h

/-- Every node of the first tree is one of the second, which has no other regular files. -/
structure Extends (t t' : Tree κ) : Prop where
  kept : ∀ l k, t.kind l = some k → t'.kind l = some k
  files : ∀ l, t'.kind l = some .file → t.kind l = some .file

/-- Where steps from a location lead to. Each is taken from a directory; what the last one leads to
need not be there. -/
def walk (t : Tree κ) (l : List κ) : List (Step κ) → Option (List κ)
  | [] => some l
  | step :: steps =>
    if t.kind l = some .directory then t.walk (step.target l) steps else none

variable {t t' t'' : Tree κ} {l l' : List κ}

theorem Extends.refl (t : Tree κ) : Extends t t := ⟨fun _ _ h ↦ h, fun _ h ↦ h⟩

theorem Extends.trans (h : Extends t t') (h' : Extends t' t'') : Extends t t'' where
  kept l k hl := h'.kept l k (h.kept l k hl)
  files l hl := h.files l (h'.files l hl)

/-- In a tree that extends another, steps lead where they lead in the other. -/
theorem walk_extends (h : Extends t t') {steps : List (Step κ)}
    (hwalk : t.walk l steps = some l') : t'.walk l steps = some l' := by
  induction steps generalizing l with
  | nil => exact hwalk
  | cons step steps ih =>
      rw [walk] at hwalk ⊢
      split at hwalk
      · rename_i hdirectory
        rw [if_pos (h.kept l .directory hdirectory)]
        exact ih hwalk
      · cases hwalk

/-- Behind steps that lead to a directory, one more step can be taken. -/
theorem walk_concat {steps : List (Step κ)} (hwalk : t.walk l steps = some l')
    (hdirectory : t.kind l' = some .directory) (step : Step κ) :
    t.walk l (steps ++ [step]) = some (step.target l') := by
  induction steps generalizing l with
  | nil =>
      obtain rfl : l = l' := Option.some.inj hwalk
      exact if_pos hdirectory
  | cons first steps ih =>
      rw [walk] at hwalk
      split at hwalk
      · rename_i hfirst
        rw [List.cons_append, walk, if_pos hfirst]
        exact ih hwalk
      · cases hwalk

/-- A step from a directory leads to a node, or to a free name in that directory. -/
theorem target_closed (hdirectory : t.kind l = some .directory) (step : Step κ) :
    t.kind (step.target l) ≠ none ∨ t.kind (step.target l).dropLast = some .directory := by
  cases step with
  | stay =>
      refine Or.inl ?_
      show t.kind l ≠ none
      rw [hdirectory]
      exact Option.some_ne_none _
  | up =>
      refine Or.inl ?_
      show t.kind l.dropLast ≠ none
      rw [t.closed l (by rw [hdirectory]; rfl)]
      exact Option.some_ne_none _
  | down name =>
      refine Or.inr ?_
      show t.kind (l ++ [name]).dropLast = some .directory
      rw [List.dropLast_concat, hdirectory]

variable [DecidableEq κ]

/-- Make a directory; nothing if the name is taken or does not lie in a directory. -/
def mkdir (l : List κ) (t : Tree κ) : Option (Tree κ) :=
  if h : t.kind l = none ∧ t.kind l.dropLast = some .directory then
    some {
      kind := Function.update t.kind l (some .directory)
      root := by
        by_cases hl : [] = l
        · rw [hl, Function.update_self]
        · rw [Function.update_of_ne hl, t.root]
      closed := fun l' hl' ↦ by
        by_cases hparent : l'.dropLast = l
        · rw [hparent, Function.update_self]
        · rw [Function.update_of_ne hparent]
          by_cases hl : l' = l
          · rw [hl]
            exact h.2
          · rw [Function.update_of_ne hl] at hl'
            exact t.closed l' hl' }
  else none

/-- What a list of calls of `mkdir` makes of a tree. -/
def createAll (ls : List (List κ)) (t : Tree κ) : Tree κ :=
  ls.foldl (fun t l ↦ (t.mkdir l).getD t) t

/-- What `mkdir` has made is a directory. -/
theorem kind_mkdir (h : t.mkdir l = some t') : t'.kind l = some .directory := by
  rw [mkdir] at h
  split at h
  · cases h
    exact Function.update_self ..
  · cases h

/-- `mkdir` leaves what is there, and makes no regular file. -/
theorem mkdir_extends (h : t.mkdir l = some t') : Extends t t' := by
  rw [mkdir] at h
  split at h
  · rename_i hfree
    cases h
    refine ⟨fun l' k hl' ↦ ?_, fun l' hl' ↦ ?_⟩
    · have hne : l' ≠ l := by
        intro heq
        rw [heq, hfree.1] at hl'
        cases hl'
      show Function.update t.kind l (some .directory) l' = some k
      rw [Function.update_of_ne hne, hl']
    · have hfile : Function.update t.kind l (some .directory) l' = some .file := hl'
      have hne : l' ≠ l := by
        intro heq
        rw [heq, Function.update_self] at hfile
        cases hfile
      rw [Function.update_of_ne hne] at hfile
      exact hfile
  · cases h

/-- `mkdir` fails in a directory only where the name is taken. -/
theorem kind_of_mkdir_eq_none (h : t.mkdir l = none)
    (hparent : t.kind l ≠ none ∨ t.kind l.dropLast = some .directory) : t.kind l ≠ none := by
  intro hfree
  rw [mkdir, dif_pos ⟨hfree, hparent.resolve_left fun hne ↦ hne hfree⟩] at h
  cases h

/-- Calls of `mkdir` leave what is there. -/
theorem createAll_extends (ls : List (List κ)) (t : Tree κ) : Extends t (t.createAll ls) := by
  induction ls generalizing t with
  | nil => exact Extends.refl t
  | cons l ls ih =>
      have hstep : Extends t ((t.mkdir l).getD t) := by
        cases hmkdir : t.mkdir l with
        | none => exact Extends.refl t
        | some t' => exact mkdir_extends hmkdir
      exact hstep.trans (ih ((t.mkdir l).getD t))

end Tree

/-- A tree and the current directory of a process. -/
structure View (κ : Type) where
  tree : Tree κ
  cwd : List κ
  directory : tree.kind cwd = some .directory

namespace View

/-- The location a route leads to. -/
def find (v : View κ) (r : Route κ) : Option (List κ) := v.tree.walk (r.start v.cwd) r.steps

/-- What a route leads to, if anything. -/
def kind (v : View κ) (r : Route κ) : Option Kind := (v.find r).bind v.tree.kind

/-- The same process, with every node it had and no other regular files. -/
structure Extends (v v' : View κ) : Prop where
  tree : v.tree.Extends v'.tree
  cwd : v'.cwd = v.cwd

variable {v v' v'' : View κ} {r : Route κ}

theorem Extends.refl (v : View κ) : Extends v v := ⟨Tree.Extends.refl v.tree, rfl⟩

theorem Extends.trans (h : Extends v v') (h' : Extends v' v'') : Extends v v'' :=
  ⟨h.tree.trans h'.tree, h'.cwd.trans h.cwd⟩

theorem find_extends (h : Extends v v') {l : List κ} (hfind : v.find r = some l) :
    v'.find r = some l := by
  rw [find, h.cwd]
  exact Tree.walk_extends h.tree hfind

theorem kind_eq_some {k : Kind} :
    v.kind r = some k ↔ ∃ l, v.find r = some l ∧ v.tree.kind l = some k := by
  rw [kind, Option.bind_eq_some_iff]

/-- What a route leads to stays there. -/
theorem kind_extends (h : Extends v v') {k : Kind} (hkind : v.kind r = some k) :
    v'.kind r = some k := by
  obtain ⟨l, hfind, hl⟩ := kind_eq_some.mp hkind
  exact kind_eq_some.mpr ⟨l, find_extends h hfind, h.tree.kept l k hl⟩

/-- Where a route starts there is a directory. -/
theorem kind_start (v : View κ) (absolute : Bool) : v.kind ⟨absolute, []⟩ = some .directory := by
  cases absolute with
  | false => exact v.directory
  | true => exact v.tree.root

/-- If a route leads to a directory without its last step, with it it leads to a node or to a free
name in a directory. -/
theorem find_of_front (hfront : v.kind r.front = some .directory) :
    ∃ l, v.find r = some l ∧
      (v.tree.kind l ≠ none ∨ v.tree.kind l.dropLast = some .directory) := by
  obtain ⟨absolute, steps⟩ := r
  rcases List.eq_nil_or_concat steps with rfl | ⟨front, step, rfl⟩
  · obtain ⟨l, hfind, hl⟩ := kind_eq_some.mp hfront
    refine ⟨l, hfind, Or.inl ?_⟩
    rw [hl]
    exact Option.some_ne_none _
  · rw [List.concat_eq_append, Route.front_append] at hfront
    obtain ⟨l, hfind, hl⟩ := kind_eq_some.mp hfront
    refine ⟨step.target l, ?_, Tree.target_closed hl step⟩
    rw [List.concat_eq_append]
    exact Tree.walk_concat hfind hl step

variable [DecidableEq κ]

/-- Make a directory where a route leads to. -/
def mkdir (r : Route κ) (v : View κ) : Option (View κ) :=
  match v.find r with
  | none => none
  | some l =>
    match h : v.tree.mkdir l with
    | none => none
    | some tree => some ⟨tree, v.cwd, (Tree.mkdir_extends h).kept _ _ v.directory⟩

/-- The directories that others make. -/
def createAll (ls : List (List κ)) (v : View κ) : View κ :=
  ⟨v.tree.createAll ls, v.cwd, (Tree.createAll_extends ls v.tree).kept _ _ v.directory⟩

theorem createAll_extends (ls : List (List κ)) (v : View κ) : Extends v (v.createAll ls) :=
  ⟨Tree.createAll_extends ls v.tree, rfl⟩

theorem createAll_nil (v : View κ) : v.createAll [] = v := rfl

/-- `mkdir` makes the directory its route leads to, and leaves what is there. -/
theorem mkdir_eq_some (h : v.mkdir r = some v') :
    Extends v v' ∧ v'.kind r = some .directory := by
  rw [mkdir] at h
  split at h
  · cases h
  · rename_i l hfind
    split at h
    · cases h
    · rename_i tree hmkdir
      cases h
      have hextends : Extends v ⟨tree, v.cwd, (Tree.mkdir_extends hmkdir).kept _ _ v.directory⟩ :=
        ⟨Tree.mkdir_extends hmkdir, rfl⟩
      exact ⟨hextends, kind_eq_some.mpr ⟨l, find_extends hextends hfind, Tree.kind_mkdir hmkdir⟩⟩

/-- If the route leads to a directory without its last step, `mkdir` fails only where the name is
taken. -/
theorem mkdir_eq_none (h : v.mkdir r = none) (hfront : v.kind r.front = some .directory) :
    ∃ k, v.kind r = some k := by
  obtain ⟨l, hfind, hclosed⟩ := find_of_front hfront
  rw [mkdir, hfind] at h
  have hmkdir : v.tree.mkdir l = none := by
    dsimp only at h
    split at h
    · assumption
    · cases h
  obtain ⟨k, hk⟩ := Option.ne_none_iff_exists'.mp (Tree.kind_of_mkdir_eq_none hmkdir hclosed)
  exact ⟨k, kind_eq_some.mpr ⟨l, hfind, hk⟩⟩

end View

end Lib.FileTree
