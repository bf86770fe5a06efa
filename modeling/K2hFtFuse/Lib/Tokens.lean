import Mathlib.Data.List.Basic
import Mathlib.Tactic.Common

/-!
# Tokens — the words between separators

`tokens` reads a text with the unfinished word as carry, and gives the words in their order. `Spaced`
says the same without reading: the text is a gap, a word, and a text that goes on with a separator.

- each text has the words that `Spaced` tells, and no others (`tokens_eq_iff`);
- a word is never empty and holds no separator (`isWord_of_mem_tokens`).
-/

namespace Tokens

variable {α : Type*} (isSep : α → Bool)

def tokens : List α → List α → List (List α)
  | word, [] => if word.isEmpty then [] else [word]
  | word, x :: xs =>
      if isSep x then
        if word.isEmpty then tokens [] xs else word :: tokens [] xs
      else
        tokens (word ++ [x]) xs

def IsWord (word : List α) : Prop := word ≠ [] ∧ ∀ x ∈ word, isSep x = false

inductive Spaced : List α → List (List α) → Prop
  | blank (gap : List α) (hgap : ∀ x ∈ gap, isSep x = true) : Spaced gap []
  | word (gap word rest : List α) (words : List (List α)) (hgap : ∀ x ∈ gap, isSep x = true)
      (hword : IsWord isSep word) (hstop : ∀ x ∈ rest.head?, isSep x = true)
      (hrest : Spaced rest words) : Spaced (gap ++ word ++ rest) (word :: words)

variable {isSep}

/-- A longer gap. -/
theorem Spaced.gap {x : α} {s : List α} {words : List (List α)} (hx : isSep x = true)
    (h : Spaced isSep s words) : Spaced isSep (x :: s) words := by
  have hlonger : ∀ {gap : List α}, (∀ y ∈ gap, isSep y = true) →
      ∀ y ∈ x :: gap, isSep y = true := by
    intro gap hgap y hy
    rcases List.mem_cons.1 hy with rfl | hy
    · exact hx
    · exact hgap y hy
  cases h with
  | blank gap hgap => exact .blank _ (hlonger hgap)
  | word gap word rest words hgap hword hstop hrest =>
      exact .word (x :: gap) word rest words (hlonger hgap) hword hstop hrest

theorem tokens_cons_sep (word : List α) {x : α} (hx : isSep x = true) (xs : List α) :
    tokens isSep word (x :: xs) = (if word.isEmpty then [] else [word]) ++ tokens isSep [] xs := by
  rw [tokens, if_pos hx]
  split
  · rfl
  · rfl

theorem tokens_gap {gap : List α} (hgap : ∀ x ∈ gap, isSep x = true) (s : List α) :
    tokens isSep [] (gap ++ s) = tokens isSep [] s := by
  induction gap with
  | nil => rfl
  | cons x gap ih =>
      rw [List.cons_append, tokens_cons_sep [] (hgap x List.mem_cons_self)]
      exact ih fun y hy => hgap y (List.mem_cons_of_mem _ hy)

theorem tokens_word {word : List α} (hword : ∀ x ∈ word, isSep x = false) (carry s : List α) :
    tokens isSep carry (word ++ s) = tokens isSep (carry ++ word) s := by
  induction word generalizing carry with
  | nil => simp
  | cons x word ih =>
      have hx : isSep x = false := hword x List.mem_cons_self
      rw [List.cons_append, tokens, hx, if_neg Bool.false_ne_true,
        ih fun y hy => hword y (List.mem_cons_of_mem _ hy)]
      simp

/-- The carry is the word that the text begins with. -/
theorem spaced_tokens {carry : List α} (hcarry : ∀ x ∈ carry, isSep x = false) (s : List α) :
    Spaced isSep (carry ++ s) (tokens isSep carry s) := by
  induction s generalizing carry with
  | nil =>
      cases carry with
      | nil => exact .blank [] (by simp)
      | cons x word =>
          exact .word [] (x :: word) [] [] (by simp) ⟨by simp, hcarry⟩ (by simp) (.blank [] (by simp))
  | cons x xs ih =>
      cases hx : isSep x with
      | true =>
          have hempty : Spaced isSep xs (tokens isSep [] xs) := @ih [] (by simp)
          have hrest : Spaced isSep (x :: xs) (tokens isSep [] xs) := hempty.gap hx
          rw [tokens_cons_sep carry hx]
          cases carry with
          | nil => exact hrest
          | cons y word =>
              exact .word [] (y :: word) (x :: xs) _ (by simp) ⟨by simp, hcarry⟩ (by simpa using hx)
                hrest
      | false =>
          have hlonger : ∀ y ∈ carry ++ [x], isSep y = false := by
            intro y hy
            rcases List.mem_append.1 hy with hy | hy
            · exact hcarry y hy
            · rwa [List.mem_singleton.1 hy]
          have hstep : tokens isSep carry (x :: xs) = tokens isSep (carry ++ [x]) xs := by
            rw [tokens, hx, if_neg Bool.false_ne_true]
          rw [hstep]
          simpa using ih hlonger

theorem tokens_of_spaced {s : List α} {words : List (List α)} (h : Spaced isSep s words) :
    tokens isSep [] s = words := by
  induction h with
  | blank gap hgap =>
      have hall := tokens_gap hgap []
      rwa [List.append_nil] at hall
  | word gap word rest words hgap hword hstop _ ih =>
      rw [List.append_assoc, tokens_gap hgap, tokens_word hword.2, List.nil_append]
      have hempty : word.isEmpty = false := by simpa using hword.1
      cases rest with
      | nil =>
          rw [← ih, tokens, hempty]
          rfl
      | cons x rest =>
          have hx : isSep x = true := hstop x rfl
          rw [tokens_cons_sep word hx, hempty, ← ih, tokens_cons_sep [] hx]
          rfl

/-- The words of a text are the ones that it is spaced into. -/
theorem tokens_eq_iff {s : List α} {words : List (List α)} :
    tokens isSep [] s = words ↔ Spaced isSep s words := by
  constructor
  · rintro rfl
    have hempty : ∀ x ∈ ([] : List α), isSep x = false := by simp
    exact spaced_tokens hempty s
  · exact tokens_of_spaced

theorem Spaced.isWord {s : List α} {words : List (List α)} (h : Spaced isSep s words) :
    ∀ word ∈ words, IsWord isSep word := by
  induction h with
  | blank gap hgap => simp
  | word gap word rest words hgap hword hstop _ ih =>
      intro w hw
      rcases List.mem_cons.1 hw with rfl | hw
      · exact hword
      · exact ih w hw

theorem isWord_of_mem_tokens {s : List α} :
    ∀ word ∈ tokens isSep [] s, IsWord isSep word :=
  (tokens_eq_iff.1 rfl).isWord

end Tokens
