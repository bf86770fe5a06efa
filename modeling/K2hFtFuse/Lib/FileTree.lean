import Mathlib.Data.List.Basic
import Mathlib.Data.List.Infix
import Mathlib.Tactic.Common

/-!
# FileTree — directories, files and walks through them

A tree of files without links: every entry lies in a directory.  This file defines:

* `FileTree`, the entries by the names that lead to them from the root;
* `walk`, which goes hop by hop and needs a directory for each hop;
* `mkdir` and `create`, which add a directory or a file where there is nothing.

A walk by names alone goes to the entry of these names, if there is one (`walk_into`).
-/

namespace FileTree

universe u

variable {α : Type u}

inductive Kind
  | dir
  | other
  deriving DecidableEq

/-- A part of a path: `.`, `..` or a name. -/
inductive Hop (α : Type u)
  | here
  | up
  | into (name : α)
  deriving DecidableEq

end FileTree

/-- The kinds of the entries. The root is a directory, and so is what an entry lies in. -/
structure FileTree (α : Type*) where
  kind : List α → Option FileTree.Kind
  root : kind [] = some .dir
  closed : ∀ (p : List α) (name : α), kind (p ++ [name]) ≠ none → kind p = some .dir

namespace FileTree

universe u

variable {α : Type u}

/-! ## Entries -/

/-- What an entry lies in, directly or not. -/
theorem kind_of_prefix (tree : FileTree α) {p q : List α} (hbegins : p <+: q)
    (hentry : tree.kind q ≠ none) : p = q ∨ tree.kind p = some .dir := by
  obtain ⟨rest, rfl⟩ := hbegins
  induction rest using List.reverseRecOn with
  | nil =>
      exact Or.inl (List.append_nil p).symm
  | append_singleton rest name ih =>
      rw [← List.append_assoc] at hentry
      have hdir := tree.closed _ _ hentry
      -- what the last entry lies in is there, so the shorter path applies
      rcases ih (by rw [hdir]; simp) with hsame | hp
      · right
        rwa [← hsame] at hdir
      · exact Or.inr hp

theorem kind_ne_none_of_prefix (tree : FileTree α) {p q : List α} (hbegins : p <+: q)
    (hentry : tree.kind q ≠ none) : tree.kind p ≠ none := by
  rcases tree.kind_of_prefix hbegins hentry with rfl | hdir
  · exact hentry
  · simp [hdir]

/-! ## Walks -/

variable (tree : FileTree α)

/-- Go hop by hop from an entry; there is no result when a hop does not start at a directory or
leads to nothing. -/
def walk : List α → List (Hop α) → Option (List α)
  | p, [] => some p
  | p, hop :: hops =>
      if tree.kind p = some .dir then
        match hop with
        | .here => walk p hops
        | .up => walk p.dropLast hops
        -- a name has to lead to an entry
        | .into name => if tree.kind (p ++ [name]) = none then none else walk (p ++ [name]) hops
      else
        none

theorem walk_append (p : List α) (hops hops' : List (Hop α)) :
    tree.walk p (hops ++ hops') = (tree.walk p hops).bind fun q => tree.walk q hops' := by
  induction hops generalizing p with
  | nil =>
      rfl
  | cons hop hops ih =>
      simp only [List.cons_append, walk]
      split
      · cases hop with
        | here => exact ih p
        | up => exact ih p.dropLast
        | into name =>
            simp only
            split
            · rfl
            · exact ih _
      · rfl

/-- What a longer walk goes through is a directory. -/
theorem kind_of_walk_append {p q : List α} {hops hops' : List (Hop α)} {r : List α}
    (hwalk : tree.walk p (hops ++ hops') = some r) (hq : tree.walk p hops = some q)
    (hne : hops' ≠ []) : tree.kind q = some .dir := by
  rw [walk_append, hq, Option.bind_some] at hwalk
  cases hops' with
  | nil =>
      exact absurd rfl hne
  | cons hop hops' =>
      by_contra hdir
      simp only [walk, if_neg hdir] at hwalk
      cases hwalk

/-- A walk from an entry leads to an entry. -/
theorem kind_of_walk {p q : List α} {hops : List (Hop α)} (hp : tree.kind p ≠ none)
    (hwalk : tree.walk p hops = some q) : tree.kind q ≠ none := by
  induction hops generalizing p with
  | nil =>
      obtain rfl : p = q := by simpa [walk] using hwalk
      exact hp
  | cons hop hops ih =>
      simp only [walk] at hwalk
      split at hwalk
      · cases hop with
        | here =>
            exact ih hp hwalk
        | up =>
            -- what an entry lies in is an entry
            exact ih (tree.kind_ne_none_of_prefix (List.dropLast_prefix p) hp) hwalk
        | into name =>
            simp only at hwalk
            split at hwalk
            · cases hwalk
            · rename_i hentry
              exact ih hentry hwalk
      · cases hwalk

/-- A walk ends at names that it went into. -/
theorem into_mem_of_walk {p q : List α} {hops : List (Hop α)} (hwalk : tree.walk p hops = some q)
    {name : α} (hname : name ∈ q) : name ∈ p ∨ Hop.into name ∈ hops := by
  induction hops generalizing p with
  | nil =>
      obtain rfl : p = q := by simpa [walk] using hwalk
      exact Or.inl hname
  | cons hop hops ih =>
      simp only [walk] at hwalk
      split at hwalk
      · cases hop with
        | here =>
            exact (ih hwalk).imp id (List.mem_cons_of_mem _)
        | up =>
            exact (ih hwalk).imp List.mem_of_mem_dropLast (List.mem_cons_of_mem _)
        | into next =>
            simp only at hwalk
            split at hwalk
            · cases hwalk
            · rcases ih hwalk with hmem | hmem
              · rcases List.mem_append.1 hmem with hp | hnext
                · exact Or.inl hp
                · right
                  rw [List.mem_singleton.1 hnext]
                  exact List.mem_cons_self
              · exact Or.inr (List.mem_cons_of_mem _ hmem)
      · cases hwalk

/-- By names alone, a walk goes to the entry of these names. -/
theorem walk_into {p : List α} (hp : tree.kind p ≠ none) (names : List α) :
    tree.walk p (names.map Hop.into) =
      if tree.kind (p ++ names) = none then none else some (p ++ names) := by
  induction names generalizing p with
  | nil =>
      simp [walk, hp]
  | cons name names ih =>
      have hassoc : p ++ name :: names = p ++ [name] ++ names := by
        simp
      simp only [List.map_cons, walk, hassoc]
      by_cases hentry : tree.kind (p ++ [name]) = none
      · -- nothing lies in what is not there
        have hnone : tree.kind (p ++ [name] ++ names) = none := by
          by_contra hsome
          exact tree.kind_ne_none_of_prefix (List.prefix_append _ _) hsome hentry
        rw [if_pos hentry, if_pos hnone, ite_self]
      · rw [if_pos (tree.closed p name hentry), if_neg hentry]
        exact ih hentry

/-- From the root. -/
theorem walk_names (names : List α) :
    tree.walk [] (names.map Hop.into) = if tree.kind names = none then none else some names := by
  have hroot : tree.kind [] ≠ none := by simp [tree.root]
  simpa using tree.walk_into hroot names

/-! ## New directories -/

/-- A new directory in a directory. -/
def mkdir [DecidableEq α] (p : List α) (name : α) (hp : tree.kind p = some .dir) : FileTree α where
  kind q := if q = p ++ [name] then some .dir else tree.kind q
  root := by simp [tree.root]
  closed q next hentry := by
    split
    · rfl
    · split at hentry
      · -- the new entry lies in `p`
        rename_i hnew
        obtain ⟨rfl, -⟩ := List.append_inj' hnew rfl
        exact hp
      · exact tree.closed q next hentry

@[simp] theorem kind_mkdir [DecidableEq α] (p q : List α) (name : α)
    (hp : tree.kind p = some .dir) :
    (tree.mkdir p name hp).kind q = if q = p ++ [name] then some .dir else tree.kind q := rfl

/-! ## New files -/

/-- A new file in a directory. -/
def create [DecidableEq α] (p : List α) (name : α) (hp : tree.kind p = some .dir)
    (hnew : tree.kind (p ++ [name]) = none) : FileTree α where
  kind q := if q = p ++ [name] then some .other else tree.kind q
  root := by simp [tree.root]
  closed q next hentry := by
    have hdir : tree.kind q = some .dir := by
      split at hentry
      · rename_i hlast
        obtain ⟨rfl, -⟩ := List.append_inj' hlast rfl
        exact hp
      · exact tree.closed q next hentry
    have hne : q ≠ p ++ [name] := by
      rintro rfl
      rw [hnew] at hdir
      cases hdir
    rw [if_neg hne, hdir]

@[simp] theorem kind_create [DecidableEq α] (p q : List α) (name : α)
    (hp : tree.kind p = some .dir) (hnew : tree.kind (p ++ [name]) = none) :
    (tree.create p name hp hnew).kind q = if q = p ++ [name] then some .other else tree.kind q := rfl

/-- Just the root. -/
def empty : FileTree α where
  kind q := if q = [] then some .dir else none
  root := rfl
  closed p name hentry := by simp at hentry

theorem kind_empty {p : List α} (hp : p ≠ []) : (empty : FileTree α).kind p = none := by
  simp [empty, hp]

end FileTree
