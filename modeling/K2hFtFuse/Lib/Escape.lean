import Mathlib.Algebra.Ring.Parity
import Mathlib.Data.List.DropRight
import Mathlib.Tactic.Common

/-!
# Escape — texts with an escape symbol, read in units and searched as text

In a text over any alphabet `esc esc` stands for the escape symbol and `esc key` for a value.  This
file defines:

* `readUnits`, which reads the text from left to right, with `esc esc` as one unit;
* `fill`, which puts a value in the place of each unit `esc key`;
* `replaceAll`, which puts it in the place of every `esc key` of the text, as a search does.

The two differ exactly where `key` follows a run of escape symbols of even length
(`replaceAll_eq_fill_iff`).
-/

namespace Escape

universe u

variable {α : Type u}

/-! ## Units -/

inductive TextUnit (α : Type u)
  | escaped
  | value
  | plain (c : α)
  deriving DecidableEq

/-- How a unit is written. -/
def TextUnit.text (esc key : α) : TextUnit α → List α
  | .escaped => [esc, esc]
  | .value => [esc, key]
  | .plain c => [c]

/-- A unit with the value in its place. -/
def TextUnit.filled (esc : α) (v : List α) : TextUnit α → List α
  | .escaped => [esc, esc]
  | .value => v
  | .plain c => [c]

/-! ## Two texts of which one is a search's -/

/-- The outcome of a search beside the reading: the same text, or a longer one. -/
def Compared (aligned : Bool) (filled replaced : List α) : Prop :=
  if aligned then replaced = filled else filled.length < replaced.length

namespace Compared

variable {aligned : Bool} {filled replaced : List α}

theorem length_le (h : Compared aligned filled replaced) : filled.length ≤ replaced.length := by
  cases aligned with
  | false =>
      exact Nat.le_of_lt h
  | true =>
      exact (congrArg List.length h).ge

theorem append_left (h : Compared aligned filled replaced) (pre : List α) :
    Compared aligned (pre ++ filled) (pre ++ replaced) := by
  cases aligned with
  | false =>
      have hlt : filled.length < replaced.length := h
      simpa [Compared] using hlt
  | true =>
      exact congrArg (pre ++ ·) h

theorem eq_iff (h : Compared aligned filled replaced) : replaced = filled ↔ aligned = true := by
  cases aligned with
  | false =>
      have hlt : filled.length < replaced.length := h
      simp only [Bool.false_eq_true, iff_false]
      rintro rfl
      exact Nat.lt_irrefl _ hlt
  | true =>
      exact iff_of_true h rfl

end Compared

/-! ## Reading and searching -/

section Texts

variable [DecidableEq α] (esc key : α)

/-- Reading from left to right. -/
def readUnits : List α → List (TextUnit α)
  | [] => []
  | [c] => [.plain c]
  | c :: d :: rest =>
      if c = esc then
        if d = esc then .escaped :: readUnits rest
        else if d = key then .value :: readUnits rest
        else .plain c :: readUnits (d :: rest)
      else
        .plain c :: readUnits (d :: rest)

def fill (v s : List α) : List α := (readUnits esc key s).flatMap (TextUnit.filled esc v)

/-- The replacement of every `esc key`. -/
def replaceAll (v : List α) : List α → List α
  | [] => []
  | [c] => [c]
  | c :: d :: rest =>
      if c = esc ∧ d = key then v ++ replaceAll v rest
      else c :: replaceAll v (d :: rest)

/-- The length of the run of escape symbols at the end of a text. -/
def runLength (s : List α) : Nat := (s.rtakeWhile fun c => c = esc).length

/-- Behind a run of this length a key is not cut off from its escape symbol. -/
def Open (run : Nat) : Prop := run = 0 ∨ Odd run

instance instDecidableOpen (run : Nat) : Decidable (Open run) :=
  inferInstanceAs (Decidable (run = 0 ∨ Odd run))

/-- Directly before each key stand no escape symbols or an odd number of them. -/
def Aligned (s : List α) : Prop :=
  ∀ pre post, s = pre ++ key :: post → Open (runLength esc pre)

/-- The units spell the text. -/
theorem flatMap_text_readUnits (s : List α) :
    (readUnits esc key s).flatMap (TextUnit.text esc key) = s := by
  induction s using readUnits.induct esc key with
  | case1 =>
      rfl
  | case2 c =>
      rfl
  | case3 rest ih =>
      simp [readUnits, TextUnit.text, ih]
  | case4 rest hkey ih =>
      simp [readUnits, TextUnit.text, hkey, ih]
  | case5 d rest hesc hkey ih =>
      simp [readUnits, TextUnit.text, hesc, hkey, ih]
  | case6 c d rest hc ih =>
      simp [readUnits, TextUnit.text, hc, ih]

/-! ## Runs of the escape symbol -/

theorem runLength_concat (s : List α) (c : α) :
    runLength esc (s ++ [c]) = if c = esc then runLength esc s + 1 else 0 := by
  unfold runLength
  rw [List.rtakeWhile_concat]
  by_cases hc : c = esc
  · simp [hc]
  · simp [hc]

/-- `Aligned`, decided from left to right; `run` is the length of the run before the text. -/
def alignedFrom : Nat → List α → Bool
  | _, [] => true
  | run, c :: rest =>
      if c = esc then alignedFrom (run + 1) rest
      else if c = key then decide (Open run) && alignedFrom 0 rest
      else alignedFrom 0 rest

variable {esc key}

@[simp] theorem alignedFrom_esc (run : Nat) (rest : List α) :
    alignedFrom esc key run (esc :: rest) = alignedFrom esc key (run + 1) rest := by
  simp [alignedFrom]

theorem alignedFrom_key (hne : key ≠ esc) (run : Nat) (rest : List α) :
    alignedFrom esc key run (key :: rest) = (decide (Open run) && alignedFrom esc key 0 rest) := by
  simp [alignedFrom, hne]

theorem alignedFrom_plain {c : α} (hesc : c ≠ esc) (hkey : c ≠ key) (run : Nat) (rest : List α) :
    alignedFrom esc key run (c :: rest) = alignedFrom esc key 0 rest := by
  simp [alignedFrom, hesc, hkey]

/-- From a run of length zero, a symbol other than `esc` makes no difference. -/
theorem alignedFrom_zero {c : α} (hesc : c ≠ esc) (rest : List α) :
    alignedFrom esc key 0 (c :: rest) = alignedFrom esc key 0 rest := by
  by_cases hkey : c = key
  · subst hkey
    simp [alignedFrom_key hesc, Open]
  · exact alignedFrom_plain hesc hkey 0 rest

theorem alignedFrom_iff (hne : key ≠ esc) (w s : List α) :
    alignedFrom esc key (runLength esc w) s = true ↔
      ∀ pre post, s = pre ++ key :: post → Open (runLength esc (w ++ pre)) := by
  induction s generalizing w with
  | nil =>
      simp [alignedFrom]
  | cons c rest ih =>
      -- a key of the text is its first symbol, or one of the rest
      have hsplit : (∀ pre post, c :: rest = pre ++ key :: post → Open (runLength esc (w ++ pre))) ↔
          (c = key → Open (runLength esc w)) ∧
            ∀ pre post, rest = pre ++ key :: post → Open (runLength esc (w ++ [c] ++ pre)) := by
        constructor
        · intro h
          refine ⟨?_, ?_⟩
          · rintro rfl
            simpa using h [] rest rfl
          · rintro pre post rfl
            simpa using h (c :: pre) post rfl
        · rintro ⟨hfirst, hrest⟩ pre post heq
          cases pre with
          | nil =>
              simpa using hfirst (List.cons.inj heq).1
          | cons d pre =>
              obtain ⟨rfl, hpost⟩ := List.cons.inj heq
              simpa using hrest pre post hpost
      rw [hsplit, ← ih, runLength_concat]
      by_cases hesc : c = esc
      · subst hesc
        have hfirst : c ≠ key := hne.symm
        simp [hfirst]
      · rw [if_neg hesc]
        by_cases hkey : c = key
        · subst hkey
          simp [alignedFrom_key hesc]
        · simp [alignedFrom_plain hesc hkey, hkey]

theorem aligned_iff (hne : key ≠ esc) (s : List α) :
    Aligned esc key s ↔ alignedFrom esc key 0 s = true :=
  (alignedFrom_iff hne [] s).symm

theorem open_add_two {run : Nat} (hrun : 0 < run) : Open (run + 2) ↔ Open run := by
  have hrun' : run ≠ 0 := hrun.ne'
  simp [Open, hrun', Nat.odd_add]

/-- Two more escape symbols make no difference behind a run. -/
theorem alignedFrom_add_two {run : Nat} (hrun : 0 < run) (s : List α) :
    alignedFrom esc key (run + 2) s = alignedFrom esc key run s := by
  induction s generalizing run with
  | nil =>
      rfl
  | cons c rest ih =>
      by_cases hesc : c = esc
      · subst hesc
        rw [alignedFrom_esc, alignedFrom_esc]
        exact ih run.succ_pos
      · by_cases hkey : c = key
        · subst hkey
          simp only [alignedFrom_key hesc, open_add_two hrun]
        · simp only [alignedFrom_plain hesc hkey]

/-! ## Filling and replacing -/

theorem fill_escaped (v rest : List α) :
    fill esc key v (esc :: esc :: rest) = esc :: esc :: fill esc key v rest := by
  simp [fill, readUnits, TextUnit.filled]

theorem fill_value (hne : key ≠ esc) (v rest : List α) :
    fill esc key v (esc :: key :: rest) = v ++ fill esc key v rest := by
  simp [fill, readUnits, TextUnit.filled, hne]

theorem fill_plain {c : α} (hesc : c ≠ esc) (v rest : List α) :
    fill esc key v (c :: rest) = c :: fill esc key v rest := by
  cases rest with
  | nil =>
      rfl
  | cons d rest =>
      simp [fill, readUnits, TextUnit.filled, hesc]

theorem fill_esc_plain {d : α} (hesc : d ≠ esc) (hkey : d ≠ key) (v rest : List α) :
    fill esc key v (esc :: d :: rest) = esc :: fill esc key v (d :: rest) := by
  simp [fill, readUnits, TextUnit.filled, hesc, hkey]

theorem replaceAll_value (v rest : List α) :
    replaceAll esc key v (esc :: key :: rest) = v ++ replaceAll esc key v rest := by
  simp [replaceAll]

theorem replaceAll_cons_cons {c d : α} (h : ¬ (c = esc ∧ d = key)) (v rest : List α) :
    replaceAll esc key v (c :: d :: rest) = c :: replaceAll esc key v (d :: rest) := by
  simp only [replaceAll, if_neg h]

theorem replaceAll_plain {c : α} (hesc : c ≠ esc) (v rest : List α) :
    replaceAll esc key v (c :: rest) = c :: replaceAll esc key v rest := by
  cases rest with
  | nil =>
      rfl
  | cons d rest =>
      exact replaceAll_cons_cons (fun h => hesc h.1) v rest

theorem mem_or_mem_of_mem_replaceAll {v s : List α} {c : α} (hc : c ∈ replaceAll esc key v s) :
    c ∈ v ∨ c ∈ s := by
  induction s using replaceAll.induct esc key with
  | case1 =>
      exact Or.inr hc
  | case2 d =>
      exact Or.inr hc
  | case3 d e rest h ih =>
      rw [h.1, h.2, replaceAll_value, List.mem_append] at hc
      rcases hc with hv | hrest
      · exact Or.inl hv
      · exact (ih hrest).imp_right fun hmem => by simp [hmem]
  | case4 d e rest h ih =>
      rw [replaceAll_cons_cons h, List.mem_cons] at hc
      rcases hc with rfl | hrest
      · simp
      · exact (ih hrest).imp_right (List.mem_cons_of_mem d)

/-- Behind an escaped unit a search still has the second symbol of the unit before it. -/
theorem compared_escaped (hne : key ≠ esc) {v : List α} (hv : 2 < v.length) {rest : List α}
    (h : Compared (alignedFrom esc key 0 rest) (fill esc key v rest) (replaceAll esc key v rest)) :
    Compared (alignedFrom esc key 2 rest) (esc :: fill esc key v rest)
      (replaceAll esc key v (esc :: rest)) := by
  cases rest with
  | nil =>
      rfl
  | cons c rest =>
      by_cases hkey : c = key
      · -- the search takes that symbol and the key for a value
        subst hkey
        have hopen : ¬ Open 2 := by decide
        have hle := h.length_le
        rw [fill_plain hne, replaceAll_plain hne] at hle
        rw [fill_plain hne, replaceAll_value, alignedFrom_key hne, decide_eq_false hopen]
        change (esc :: c :: fill esc c v rest).length < (v ++ replaceAll esc c v rest).length
        simp only [List.length_cons, List.length_append] at hle ⊢
        omega
      · have haligned : alignedFrom esc key 2 (c :: rest) = alignedFrom esc key 0 (c :: rest) := by
          by_cases hesc : c = esc
          · subst hesc
            rw [alignedFrom_esc, alignedFrom_esc]
            exact alignedFrom_add_two (Nat.succ_pos 0) rest
          · rw [alignedFrom_plain hesc hkey, alignedFrom_plain hesc hkey]
        rw [haligned, replaceAll_cons_cons (fun heq => hkey heq.2)]
        exact h.append_left [esc]

theorem compared_readUnits (hne : key ≠ esc) {v : List α} (hv : 2 < v.length) (s : List α) :
    Compared (alignedFrom esc key 0 s) (fill esc key v s) (replaceAll esc key v s) := by
  induction s using readUnits.induct esc key with
  | case1 =>
      rfl
  | case2 c =>
      have haligned : alignedFrom esc key 0 [c] = true := by
        by_cases hesc : c = esc
        · simp [alignedFrom, hesc]
        · rw [alignedFrom_zero hesc]
          rfl
      rw [haligned]
      rfl
  | case3 rest ih =>
      rw [fill_escaped, replaceAll_cons_cons (fun h => hne h.2.symm), alignedFrom_esc,
        alignedFrom_esc]
      exact (compared_escaped hne hv ih).append_left [esc]
  | case4 rest _ ih =>
      have haligned : alignedFrom esc key 0 (esc :: key :: rest) = alignedFrom esc key 0 rest := by
        have hopen : Open 1 := by decide
        rw [alignedFrom_esc, alignedFrom_key hne, decide_eq_true hopen, Bool.true_and]
      rw [haligned, fill_value hne, replaceAll_value]
      exact ih.append_left v
  | case5 d rest hesc hkey ih =>
      -- a lone escape symbol is a symbol like others
      have haligned : alignedFrom esc key 0 (esc :: d :: rest) =
          alignedFrom esc key 0 (d :: rest) := by
        rw [alignedFrom_esc, alignedFrom_plain hesc hkey, alignedFrom_plain hesc hkey]
      rw [haligned, fill_esc_plain hesc hkey, replaceAll_cons_cons (fun h => hkey h.2)]
      exact ih.append_left [esc]
  | case6 c d rest hesc ih =>
      rw [alignedFrom_zero hesc, fill_plain hesc, replaceAll_plain hesc]
      exact ih.append_left [c]

/-- For a value of more than two symbols, a search does what the reading does exactly for the texts
whose keys are aligned. -/
theorem replaceAll_eq_fill_iff (hne : key ≠ esc) {v : List α} (hv : 2 < v.length) (s : List α) :
    replaceAll esc key v s = fill esc key v s ↔ Aligned esc key s := by
  rw [aligned_iff hne]
  exact (compared_readUnits hne hv s).eq_iff

end Texts

end Escape
