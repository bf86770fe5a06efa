import Mathlib.Data.List.Basic
import Mathlib.Tactic.Common

/-!
# Segmenter — cutting a stream behind its terminators

A reader that collects bytes until a terminator arrives keeps one unfinished segment. `cut carry xs`
feeds `xs` to such a reader whose unfinished segment is `carry`: the finished segments, each with
its terminator, and the new unfinished one.

- feeding in two portions is feeding the whole (`cut_append`);
- no element is lost or invented (`flatten_cut`);
- a finished segment has its only terminator at its end (`segment_of_mem_cut`).

A reader that finishes a segment at a size instead is `cutAt n carry xs`, with the same laws.
-/

namespace Segmenter

variable {α : Type*} (isEnd : α → Bool)

def cut : List α → List α → List (List α) × List α
  | carry, [] => ([], carry)
  | carry, x :: xs =>
      if isEnd x then ((carry ++ [x]) :: (cut [] xs).1, (cut [] xs).2)
      else cut (carry ++ [x]) xs

@[simp] theorem cut_nil (carry : List α) : cut isEnd carry [] = ([], carry) := rfl

theorem cut_cons_end (carry xs : List α) {x : α} (h : isEnd x = true) :
    cut isEnd carry (x :: xs) = ((carry ++ [x]) :: (cut isEnd [] xs).1, (cut isEnd [] xs).2) := by
  simp [cut, h]

theorem cut_cons_notEnd (carry xs : List α) {x : α} (h : isEnd x = false) :
    cut isEnd carry (x :: xs) = cut isEnd (carry ++ [x]) xs := by
  simp [cut, h]

theorem cut_append (carry xs ys : List α) :
    cut isEnd carry (xs ++ ys) =
      ((cut isEnd carry xs).1 ++ (cut isEnd (cut isEnd carry xs).2 ys).1,
        (cut isEnd (cut isEnd carry xs).2 ys).2) := by
  induction xs generalizing carry with
  | nil =>
      simp
  | cons x xs ih =>
      rcases hx : isEnd x with _ | _
      · rw [List.cons_append, cut_cons_notEnd isEnd _ _ hx, cut_cons_notEnd isEnd _ _ hx, ih]
      · rw [List.cons_append, cut_cons_end isEnd _ _ hx, cut_cons_end isEnd _ _ hx, ih]
        rfl

theorem flatten_cut (carry xs : List α) :
    (cut isEnd carry xs).1.flatten ++ (cut isEnd carry xs).2 = carry ++ xs := by
  induction xs generalizing carry with
  | nil =>
      simp
  | cons x xs ih =>
      rcases hx : isEnd x with _ | _
      · rw [cut_cons_notEnd isEnd _ _ hx, ih]
        simp
      · rw [cut_cons_end isEnd _ _ hx]
        simp only [List.flatten_cons, List.append_assoc]
        rw [ih []]
        simp

/-- The unfinished segment holds no terminator. -/
theorem notEnd_of_mem_rest (carry : List α) (hcarry : ∀ y ∈ carry, isEnd y = false)
    (xs : List α) : ∀ y ∈ (cut isEnd carry xs).2, isEnd y = false := by
  induction xs generalizing carry with
  | nil =>
      simpa using hcarry
  | cons x xs ih =>
      rcases hx : isEnd x with _ | _
      · rw [cut_cons_notEnd isEnd _ _ hx]
        refine ih _ ?_
        intro y hy
        rcases List.mem_append.1 hy with hy | hy
        · exact hcarry y hy
        · simpa [List.mem_singleton.1 hy] using hx
      · rw [cut_cons_end isEnd _ _ hx]
        exact ih [] (by simp)

/-- A segment as the reader finishes it: a terminator behind elements that are none. -/
def IsSegment (s : List α) : Prop :=
  ∃ t x, s = t ++ [x] ∧ isEnd x = true ∧ ∀ y ∈ t, isEnd y = false

theorem segment_of_mem_cut {carry : List α} (hcarry : ∀ y ∈ carry, isEnd y = false)
    (xs : List α) : ∀ s ∈ (cut isEnd carry xs).1, IsSegment isEnd s := by
  induction xs generalizing carry with
  | nil =>
      simp
  | cons x xs ih =>
      rcases hx : isEnd x with _ | _
      · rw [cut_cons_notEnd isEnd _ _ hx]
        refine ih ?_
        intro y hy
        rcases List.mem_append.1 hy with hy | hy
        · exact hcarry y hy
        · simpa [List.mem_singleton.1 hy] using hx
      · rw [cut_cons_end isEnd _ _ hx]
        intro s hs
        rcases List.mem_cons.1 hs with rfl | hs
        · exact ⟨carry, x, rfl, hx, hcarry⟩
        · exact ih (by simp) s hs

/-! ## Cutting at a size -/

/-- Every `n` elements make a segment. -/
def cutAt (n : Nat) : List α → List α → List (List α) × List α
  | carry, [] => ([], carry)
  | carry, x :: xs =>
      if n ≤ carry.length + 1 then ((carry ++ [x]) :: (cutAt n [] xs).1, (cutAt n [] xs).2)
      else cutAt n (carry ++ [x]) xs

variable {n : Nat}

@[simp] theorem cutAt_nil (carry : List α) : cutAt n carry [] = ([], carry) := rfl

theorem cutAt_cons_full {carry : List α} (h : n ≤ carry.length + 1) (x : α) (xs : List α) :
    cutAt n carry (x :: xs) =
      ((carry ++ [x]) :: (cutAt n [] xs).1, (cutAt n [] xs).2) := by
  simp [cutAt, h]

theorem cutAt_cons_room {carry : List α} (h : carry.length + 1 < n) (x : α) (xs : List α) :
    cutAt n carry (x :: xs) = cutAt n (carry ++ [x]) xs := by
  simp [cutAt, Nat.not_le.2 h]

theorem cutAt_append (carry xs ys : List α) :
    cutAt n carry (xs ++ ys) =
      ((cutAt n carry xs).1 ++ (cutAt n (cutAt n carry xs).2 ys).1,
        (cutAt n (cutAt n carry xs).2 ys).2) := by
  induction xs generalizing carry with
  | nil =>
      simp
  | cons x xs ih =>
      rcases Nat.lt_or_ge (carry.length + 1) n with h | h
      · rw [List.cons_append, cutAt_cons_room h, cutAt_cons_room h, ih]
      · rw [List.cons_append, cutAt_cons_full h, cutAt_cons_full h, ih]
        rfl

theorem flatten_cutAt (carry xs : List α) :
    (cutAt n carry xs).1.flatten ++ (cutAt n carry xs).2 = carry ++ xs := by
  induction xs generalizing carry with
  | nil =>
      simp
  | cons x xs ih =>
      rcases Nat.lt_or_ge (carry.length + 1) n with h | h
      · rw [cutAt_cons_room h, ih]
        simp
      · rw [cutAt_cons_full h]
        simp only [List.flatten_cons, List.append_assoc]
        rw [ih []]
        simp

/-- What fits joins the unfinished segment. -/
theorem cutAt_of_room {carry ys : List α} (h : carry.length + ys.length < n) :
    cutAt n carry ys = ([], carry ++ ys) := by
  induction ys generalizing carry with
  | nil =>
      simp
  | cons y ys ih =>
      simp only [List.length_cons] at h
      have hroom : carry.length + 1 < n := by omega
      have hrest : (carry ++ [y]).length + ys.length < n := by
        rw [List.length_append, List.length_singleton]
        omega
      rw [cutAt_cons_room hroom, ih hrest, List.append_assoc]
      rfl

/-- What fits exactly finishes the segment. -/
theorem cutAt_of_fill {carry ys : List α} (hne : ys ≠ []) (h : carry.length + ys.length = n) :
    cutAt n carry ys = ([carry ++ ys], []) := by
  rcases List.eq_nil_or_concat ys with rfl | ⟨front, y, rfl⟩
  · exact absurd rfl hne
  · simp only [List.concat_eq_append, List.length_append, List.length_singleton] at h ⊢
    have hroom : carry.length + front.length < n := by omega
    have hfull : n ≤ (carry ++ front).length + 1 := by
      rw [List.length_append]
      omega
    rw [cutAt_append, cutAt_of_room hroom]
    simp [cutAt_cons_full hfull]

/-- Finished segments have the size, and the unfinished one is shorter. -/
theorem length_cutAt {carry : List α} (hcarry : carry.length < n) (xs : List α) :
    (∀ s ∈ (cutAt n carry xs).1, s.length = n) ∧ (cutAt n carry xs).2.length < n := by
  induction xs generalizing carry with
  | nil =>
      simpa using hcarry
  | cons x xs ih =>
      rcases Nat.lt_or_ge (carry.length + 1) n with h | h
      · rw [cutAt_cons_room h]
        exact ih (by simpa using h)
      · have hempty : ([] : List α).length < n := by
          rw [List.length_nil]
          omega
        rw [cutAt_cons_full h]
        refine ⟨?_, (ih hempty).2⟩
        intro s hs
        rcases List.mem_cons.1 hs with rfl | hs
        · rw [List.length_append, List.length_singleton]
          omega
        · exact (ih hempty).1 s hs

end Segmenter
