import Mathlib.Data.List.Basic
import Mathlib.Tactic.Common

/-!
# Descriptors — the table of open descriptors of a process

A table has one slot for each number. What is opened gets the lowest number that is free, `dup2` puts
an open descriptor on a given number, and `exec` closes what is marked so.

- the numbers below the one that is given next are all taken (`le_lowest_iff`);
- `find?` of each operation says what is behind a number after it.
-/

structure Descriptor (ω : Type*) where
  object : ω
  cloexec : Bool
  deriving DecidableEq

structure DescriptorTable (ω : Type*) where
  slots : List (Option (Descriptor ω))
  deriving DecidableEq

namespace DescriptorTable

variable {ω : Type*}

def empty : DescriptorTable ω := ⟨[]⟩

def find? (t : DescriptorTable ω) (fd : Nat) : Option (Descriptor ω) := t.slots[fd]?.join

/-- The lowest number that is free. -/
def lowest (t : DescriptorTable ω) : Nat := t.slots.findIdx Option.isNone

/-- The slot of a number is written, and the table grows up to it. -/
def put (t : DescriptorTable ω) (fd : Nat) (d : Option (Descriptor ω)) : DescriptorTable ω :=
  ⟨(t.slots ++ List.replicate (fd + 1 - t.slots.length) none).set fd d⟩

/-- A descriptor is opened on the lowest number. -/
def acquire (t : DescriptorTable ω) (d : Descriptor ω) : DescriptorTable ω := t.put t.lowest (some d)

def close (t : DescriptorTable ω) (fd : Nat) : DescriptorTable ω := t.put fd none

/-- `dup2`: the copy stays open at `exec`, and a descriptor put on itself is left as it is. -/
def dup2 (t : DescriptorTable ω) (old new : Nat) : Option (DescriptorTable ω) :=
  (t.find? old).map fun d =>
    if old = new then t
    else
      t.put new (some
        { d with
          cloexec := false })

def exec (t : DescriptorTable ω) : DescriptorTable ω :=
  ⟨t.slots.map fun slot => slot.filter fun d => !d.cloexec⟩

@[simp] theorem find?_empty (fd : Nat) : (empty : DescriptorTable ω).find? fd = none := by
  simp [empty, find?]

@[simp] theorem find?_put (t : DescriptorTable ω) (fd : Nat) (d : Option (Descriptor ω)) (n : Nat) :
    (t.put fd d).find? n = if n = fd then d else t.find? n := by
  unfold put find?
  by_cases hn : n = fd
  · have hlt : fd < (t.slots ++ List.replicate (fd + 1 - t.slots.length) none).length := by
      simp only [List.length_append, List.length_replicate]
      omega
    simp [hn, List.getElem?_set_self hlt]
  · rw [List.getElem?_set_ne (Ne.symm hn), if_neg hn]
    by_cases hlt : n < t.slots.length
    · rw [List.getElem?_append_left hlt]
    · -- the slots that were added are free
      rw [List.getElem?_append_right (Nat.le_of_not_lt hlt), List.getElem?_replicate,
        List.getElem?_eq_none (Nat.le_of_not_lt hlt)]
      split
      · rfl
      · rfl

@[simp] theorem find?_close (t : DescriptorTable ω) (fd n : Nat) :
    (t.close fd).find? n = if n = fd then none else t.find? n :=
  find?_put t fd none n

@[simp] theorem find?_acquire (t : DescriptorTable ω) (d : Descriptor ω) (n : Nat) :
    (t.acquire d).find? n = if n = t.lowest then some d else t.find? n :=
  find?_put t t.lowest (some d) n

@[simp] theorem find?_exec (t : DescriptorTable ω) (fd : Nat) :
    t.exec.find? fd = (t.find? fd).filter fun d => !d.cloexec := by
  simp only [exec, find?, List.getElem?_map]
  rcases t.slots[fd]? with _ | _ | d
  · rfl
  · rfl
  · rfl

theorem find?_eq_getElem (t : DescriptorTable ω) {fd : Nat} (h : fd < t.slots.length) :
    t.find? fd = t.slots[fd] := by
  rw [find?, List.getElem?_eq_getElem h]
  rfl

/-- A number is at most the lowest free one exactly if all below it are taken. -/
theorem le_lowest_iff (t : DescriptorTable ω) (n : Nat) :
    n ≤ t.lowest ↔ ∀ m < n, (t.find? m).isSome := by
  constructor
  · intro hle m hm
    have hlt : m < t.slots.findIdx Option.isNone := Nat.lt_of_lt_of_le hm hle
    have hlen : m < t.slots.length := Nat.lt_of_lt_of_le hlt List.findIdx_le_length
    have htaken := List.not_of_lt_findIdx hlt
    rw [find?_eq_getElem t hlen]
    simpa using htaken
  · intro h
    by_contra hlt
    have hsome := h t.lowest (Nat.lt_of_not_le hlt)
    rcases Nat.lt_or_ge t.lowest t.slots.length with hlen | hlen
    · -- the slot that the search has stopped at is free
      have hfree : t.slots[t.lowest].isNone := List.findIdx_getElem (w := hlen)
      rw [find?_eq_getElem t hlen, Option.isSome_iff_ne_none] at hsome
      exact hsome (Option.isNone_iff_eq_none.1 hfree)
    · rw [find?, List.getElem?_eq_none hlen] at hsome
      exact absurd hsome (by simp)

@[simp] theorem find?_lowest (t : DescriptorTable ω) : t.find? t.lowest = none := by
  have hnot : ¬ t.lowest + 1 ≤ t.lowest := Nat.not_succ_le_self _
  rw [le_lowest_iff] at hnot
  by_contra hsome
  apply hnot
  intro m hm
  rcases Nat.lt_or_eq_of_le (Nat.le_of_lt_succ hm) with hm | rfl
  · exact (le_lowest_iff t t.lowest).1 (Nat.le_refl _) m hm
  · exact Option.isSome_iff_ne_none.2 hsome

theorem find?_dup2 {t t' : DescriptorTable ω} {old new : Nat} (h : t.dup2 old new = some t') :
    ∃ d, t.find? old = some d ∧ ∀ n, t'.find? n =
      if old ≠ new ∧ n = new then
        some
          { d with
            cloexec := false }
      else t.find? n := by
  rcases Option.map_eq_some_iff.1 h with ⟨d, hfind, ht'⟩
  refine ⟨d, hfind, ?_⟩
  intro n
  rw [← ht']
  by_cases heq : old = new
  · simp [heq]
  · simp [heq]

end DescriptorTable
