import K2hFtFuse.Lib.ByteSeq

/-!
# Block — memory blocks that are filled by stores

A block that `malloc` returns holds what was in the memory before.  This file defines:

* `malloc fresh size`, the block with the contents `fresh`;
* `store`, which has no result when it would leave the block, and `strcpy`;

and one lemma for a store into a block that is cut at the place of the store.
-/

namespace ByteSeq

/-! ## Fresh blocks -/

def malloc (fresh : Nat → UInt8) (size : Nat) : Bytes := (List.range size).map fresh

@[simp] theorem length_malloc (fresh : Nat → UInt8) (size : Nat) :
    (malloc fresh size).length = size := by
  simp [malloc]

/-- A fresh block in two parts. -/
theorem malloc_add (fresh : Nat → UInt8) (a b : Nat) :
    malloc fresh (a + b) = malloc fresh a ++ malloc (fun i => fresh (a + i)) b := by
  simp [malloc, List.range_add, Function.comp_def]

/-! ## Stores -/

/-- `memcpy` of `data` to the offset `off`. -/
def store (block : Bytes) (off : Nat) (data : Bytes) : Option Bytes :=
  if off + data.length ≤ block.length then
    some (block.take off ++ (data ++ block.drop (off + data.length)))
  else
    none

/-- A store puts its data in the place of as many bytes. -/
theorem store_append {pre old post : Bytes} {off : Nat} {data : Bytes} (hoff : off = pre.length)
    (hold : old.length = data.length) :
    store (pre ++ (old ++ post)) off data = some (pre ++ (data ++ post)) := by
  subst hoff
  have hdrop : (pre ++ (old ++ post)).drop (pre.length + data.length) = post := by
    rw [← hold, List.drop_append, List.drop_append]
    simp
  have hfit : pre.length + data.length ≤ (pre ++ (old ++ post)).length := by
    simp only [List.length_append]
    omega
  rw [store, if_pos hfit, hdrop, List.take_left]

/-- The same for a block that is cut in another way. -/
theorem store_of_eq {block pre old post : Bytes} {off : Nat} {data : Bytes}
    (hblock : block = pre ++ (old ++ post)) (hoff : off = pre.length)
    (hold : old.length = data.length) :
    store block off data = some (pre ++ (data ++ post)) := by
  rw [hblock]
  exact store_append hoff hold

/-- A store into a part of a block that was not written yet. -/
theorem store_malloc {pre post : Bytes} {fresh : Nat → UInt8} {off size : Nat} {data : Bytes}
    (hoff : off = pre.length) (hsize : data.length ≤ size) :
    store (pre ++ (malloc fresh size ++ post)) off data =
      some (pre ++ (data ++
        (malloc (fun i => fresh (data.length + i)) (size - data.length) ++ post))) := by
  obtain ⟨left, rfl⟩ := Nat.exists_eq_add_of_le hsize
  rw [malloc_add, List.append_assoc, store_append hoff (length_malloc fresh data.length),
    Nat.add_sub_cancel_left]

/-- `strcpy`, and `sprintf` of the text `s`. -/
def strcpy (block : Bytes) (off : Nat) (s : Bytes) : Option Bytes := store block off (s ++ [0])

/-- A string that is copied to the end of what was written. -/
theorem strcpy_malloc {pre s : Bytes} {fresh : Nat → UInt8} {off size : Nat}
    (hoff : off = pre.length) (hsize : s.length + 1 ≤ size) :
    strcpy (pre ++ malloc fresh size) off s =
      some (pre ++ (s ++ [0]) ++
        malloc (fun i => fresh (s.length + 1 + i)) (size - (s.length + 1))) := by
  have hstore := @store_malloc pre [] fresh off size (s ++ [0]) hoff (by simpa using hsize)
  rw [List.append_nil, List.append_nil, List.length_append, List.length_singleton] at hstore
  rw [strcpy, hstore, ← List.append_assoc]

end ByteSeq
