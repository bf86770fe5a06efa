import Mathlib.Algebra.BigOperators.Group.Finset.Basic
import Mathlib.Algebra.Order.BigOperators.Group.Finset
import Mathlib.Data.Nat.Count
import Mathlib.Tactic.Common

/-!
# ShortWrite — loops of writes that may be cut short or fail

A call writes a part of what it is asked to write, or fails.  This file defines:

* `writeAll`, the loop that goes on behind the part that was accepted until all is written;
* `retryAll`, the loop that starts `writeAll` again when it fails;

and tells from the answers alone when either comes to its end (`Completes`, `Served`) and when all
that was accepted is the data once (`ServedOnce`).
-/

namespace ShortWrite

universe u v

variable {α : Type u} {ε : Type v}

/-! ## Answers -/

/-- The answer to one call. -/
inductive Answer (ε : Type v)
  | accepts (n : Nat)
  | fails (e : ε)

namespace Answer

/-- A call that succeeds accepts one element at least. -/
def size : Answer ε → Nat
  | accepts n => max 1 n
  | fails _ => 0

def failed : Answer ε → Bool
  | accepts _ => false
  | fails _ => true

end Answer

/-- The answers from the `s`-th on. -/
def shift (s : Nat) (answers : Nat → Answer ε) : Nat → Answer ε := fun i => answers (s + i)

@[simp] theorem shift_zero (answers : Nat → Answer ε) : shift 0 answers = answers := by
  funext i
  simp [shift]

@[simp] theorem shift_shift (s s' : Nat) (answers : Nat → Answer ε) :
    shift s' (shift s answers) = shift (s + s') answers := by
  funext i
  simp [shift, Nat.add_assoc]

/-! ## The loops -/

/-- What a loop did: whether it came to its end, the last error, what was accepted and the answers
that it left. -/
structure Run (α : Type u) (ε : Type v) where
  done : Bool
  error : Option ε
  accepted : List α
  rest : Nat → Answer ε

/-- Write until all is written. An answer counts for no more than what was requested. -/
def writeAll (answers : Nat → Answer ε) (data : List α) : Run α ε :=
  if _h : data = [] then
    { done := true
      error := none
      accepted := []
      rest := answers }
  else
    match answers 0 with
    | .fails e =>
        { done := false
          error := some e
          accepted := []
          rest := shift 1 answers }
    | .accepts n =>
        let run := writeAll (shift 1 answers) (data.drop (max 1 n))
        { run with accepted := data.take (max 1 n) ++ run.accepted }
termination_by data.length
decreasing_by
  have := List.length_pos_iff.2 _h
  rw [List.length_drop]
  omega

/-- Write all of the data again until it succeeds, at most so many times. -/
def retryAll : Nat → (Nat → Answer ε) → List α → Run α ε
  | 0, answers, _ =>
      { done := false
        error := none
        accepted := []
        rest := answers }
  | tries + 1, answers, data =>
      let run := writeAll answers data
      if run.done then
        run
      else
        let again := retryAll tries run.rest data
        { again with accepted := run.accepted ++ again.accepted }

/-! ## One attempt -/

/-- The first answers accept so many elements before one fails. -/
def Completes (answers : Nat → Answer ε) (len : Nat) : Prop :=
  ∃ k, (∀ i < k, (answers i).failed = false) ∧ len ≤ ∑ i ∈ Finset.range k, (answers i).size

theorem completes_zero (answers : Nat → Answer ε) : Completes answers 0 :=
  ⟨0, fun i hi => absurd hi (Nat.not_lt_zero i), Nat.zero_le _⟩

theorem not_completes_of_fails {answers : Nat → Answer ε} {e : ε} {len : Nat}
    (hfail : answers 0 = .fails e) (hlen : 0 < len) : ¬ Completes answers len := by
  rintro ⟨k, hok, hsum⟩
  cases k with
  -- no call accepts nothing
  | zero =>
      simp at hsum
      omega
  | succ k =>
      have hfirst := hok 0 (Nat.succ_pos k)
      rw [hfail] at hfirst
      cases hfirst

theorem completes_of_accepts {answers : Nat → Answer ε} {n len : Nat}
    (haccept : answers 0 = .accepts n) :
    Completes answers len ↔ Completes (shift 1 answers) (len - max 1 n) := by
  have hsum : ∀ k, ∑ i ∈ Finset.range (k + 1), (answers i).size =
      (∑ i ∈ Finset.range k, (shift 1 answers i).size) + max 1 n := by
    intro k
    rw [Finset.sum_range_succ', haccept]
    simp [shift, Answer.size, Nat.add_comm 1]
  constructor
  · rintro ⟨k, hok, hlen⟩
    cases k with
    -- the first call is not even needed
    | zero =>
        simp only [Finset.range_zero, Finset.sum_empty, Nat.le_zero] at hlen
        rw [hlen, Nat.zero_sub]
        exact completes_zero _
    | succ k =>
        refine ⟨k, fun i hi => ?_, ?_⟩
        · rw [shift, Nat.add_comm]
          exact hok (i + 1) (by omega)
        · have := hsum k
          omega
  · rintro ⟨k, hok, hlen⟩
    refine ⟨k + 1, fun i hi => ?_, ?_⟩
    · cases i with
      | zero =>
          rw [haccept]
          rfl
      | succ i =>
          have hi' := hok i (by omega)
          rwa [shift, Nat.add_comm] at hi'
    · have := hsum k
      omega

theorem writeAll_nil (answers : Nat → Answer ε) :
    writeAll answers ([] : List α) =
      { done := true
        error := none
        accepted := []
        rest := answers } := by
  rw [writeAll]
  rfl

theorem writeAll_of_fails {answers : Nat → Answer ε} {e : ε} {data : List α} (hdata : data ≠ [])
    (hfail : answers 0 = .fails e) :
    writeAll answers data =
      { done := false
        error := some e
        accepted := []
        rest := shift 1 answers } := by
  rw [writeAll, dif_neg hdata, hfail]

theorem writeAll_of_accepts {answers : Nat → Answer ε} {n : Nat} {data : List α}
    (hdata : data ≠ []) (haccept : answers 0 = .accepts n) :
    writeAll answers data =
      let run := writeAll (shift 1 answers) (data.drop (max 1 n))
      { run with accepted := data.take (max 1 n) ++ run.accepted } := by
  rw [writeAll, dif_neg hdata, haccept]

/-- An attempt that comes to its end has written the data. -/
theorem writeAll_of_completes {answers : Nat → Answer ε} {data : List α}
    (h : Completes answers data.length) :
    (writeAll answers data).done = true ∧ (writeAll answers data).accepted = data := by
  induction hlen : data.length using Nat.strong_induction_on generalizing answers data with
  | _ len ih =>
      subst hlen
      -- the induction is on the length: every call that succeeds takes something away
      by_cases hdata : data = []
      · subst hdata
        rw [writeAll_nil]
        exact ⟨rfl, rfl⟩
      · have hpos := List.length_pos_iff.2 hdata
        cases hfirst : answers 0 with
        | fails e =>
            exact absurd h (not_completes_of_fails hfirst hpos)
        | accepts n =>
            have hrest : Completes (shift 1 answers) (data.drop (max 1 n)).length := by
              rw [List.length_drop]
              exact (completes_of_accepts hfirst).1 h
            have hless : (data.drop (max 1 n)).length < data.length := by
              rw [List.length_drop]
              omega
            obtain ⟨hdone, haccepted⟩ := ih _ hless hrest rfl
            rw [writeAll_of_accepts hdata hfirst]
            refine ⟨hdone, ?_⟩
            simp only [haccepted, List.take_append_drop]

/-- An attempt that fails does so at the first answer that fails; nothing was written before only
when that is the first answer of all. -/
theorem writeAll_of_not_completes {answers : Nat → Answer ε} {data : List α}
    (h : ¬ Completes answers data.length) :
    ∃ k, (answers k).failed = true ∧ (∀ i < k, (answers i).failed = false) ∧
      (writeAll answers data).done = false ∧
      (writeAll answers data).rest = shift (k + 1) answers ∧
      ((writeAll answers data).accepted = [] ↔ k = 0) := by
  induction hlen : data.length using Nat.strong_induction_on generalizing answers data with
  | _ len ih =>
      subst hlen
      have hdata : data ≠ [] := by
        rintro rfl
        exact h (completes_zero answers)
      have hpos := List.length_pos_iff.2 hdata
      cases hfirst : answers 0 with
      | fails e =>
          rw [writeAll_of_fails hdata hfirst]
          exact ⟨0, by rw [hfirst]; rfl, fun i hi => absurd hi (Nat.not_lt_zero i), rfl, rfl, by simp⟩
      | accepts n =>
          have hrest : ¬ Completes (shift 1 answers) (data.drop (max 1 n)).length := by
            rw [List.length_drop]
            exact fun hc => h ((completes_of_accepts hfirst).2 hc)
          have hless : (data.drop (max 1 n)).length < data.length := by
            rw [List.length_drop]
            omega
          obtain ⟨k, hfail, hok, hdone, hleft, -⟩ := ih _ hless hrest rfl
          -- the call that was accepted stands before the `k` calls of the rest
          refine ⟨k + 1, ?_, ?_, ?_, ?_, ?_⟩
          · rwa [shift, Nat.add_comm] at hfail
          · intro i hi
            cases i with
            | zero =>
                rw [hfirst]
                rfl
            | succ i =>
                have hi' := hok i (by omega)
                rwa [shift, Nat.add_comm] at hi'
          · rw [writeAll_of_accepts hdata hfirst]
            exact hdone
          · rw [writeAll_of_accepts hdata hfirst]
            calc (writeAll (shift 1 answers) (data.drop (max 1 n))).rest
                = shift (k + 1) (shift 1 answers) := hleft
              _ = shift (k + 1 + 1) answers := by
                rw [shift_shift, Nat.add_comm 1]
          · -- what the first call accepted is not empty, and `k + 1` is not zero
            rw [writeAll_of_accepts hdata hfirst]
            have htake : data.take (max 1 n) ≠ [] := by
              rw [← List.length_pos_iff, List.length_take]
              omega
            simp [htake]

theorem writeAll_done_iff {answers : Nat → Answer ε} {data : List α} :
    (writeAll answers data).done = true ↔ Completes answers data.length := by
  constructor
  · intro hdone
    by_contra hnot
    obtain ⟨k, -, -, hfalse, -⟩ := writeAll_of_not_completes hnot
    rw [hdone] at hfalse
    cases hfalse
  · exact fun h => (writeAll_of_completes h).1

/-! ## All attempts -/

/-- How many of the first `s` answers fail. -/
def failures (answers : Nat → Answer ε) (s : Nat) : Nat := Nat.count (fun i => (answers i).failed) s

/-- One of the first attempts comes to its end. -/
def Served (tries : Nat) (answers : Nat → Answer ε) (len : Nat) : Prop :=
  ∃ s, Completes (shift s answers) len ∧ failures answers s < tries

/-- The first calls of the first attempts fail until an attempt comes to its end. -/
def ServedOnce (tries : Nat) (answers : Nat → Answer ε) (len : Nat) : Prop :=
  ∃ s < tries, (∀ i < s, (answers i).failed = true) ∧ Completes (shift s answers) len

section Attempt

variable {answers : Nat → Answer ε} {len k : Nat}

/-- An attempt that fails at its `k`-th call hides no window that would complete. -/
theorem not_completes_shift (hnot : ¬ Completes answers len)
    (hfail : (answers k).failed = true) (hok : ∀ i < k, (answers i).failed = false) {s : Nat}
    (hs : s ≤ k) : ¬ Completes (shift s answers) len := by
  rintro ⟨m, hwindow, hsum⟩
  have hend : s + m ≤ k := by
    by_contra hover
    have hk := hwindow (k - s) (by omega)
    rw [shift, Nat.add_sub_cancel' hs, hfail] at hk
    cases hk
  -- the window from the start on is longer, and as free of failures
  refine hnot ⟨s + m, fun i hi => hok i (by omega), ?_⟩
  rw [Finset.sum_range_add]
  exact hsum.trans (Nat.le_add_left _ _)

theorem failures_shift (hfail : (answers k).failed = true)
    (hok : ∀ i < k, (answers i).failed = false) (s : Nat) :
    failures answers (k + 1 + s) = failures (shift (k + 1) answers) s + 1 := by
  -- the attempt has one failure, at its end
  have hnone : Nat.count (fun i => (answers i).failed = true) k = 0 :=
    Nat.count_of_forall_not fun i hi => by simp [hok i hi]
  unfold failures
  rw [Nat.count_add, Nat.count_succ, hnone, if_pos hfail, Nat.zero_add, Nat.add_comm]
  rfl

/-- After an attempt that failed, one try less is left. -/
theorem served_succ_iff (hnot : ¬ Completes answers len) (hfail : (answers k).failed = true)
    (hok : ∀ i < k, (answers i).failed = false) {tries : Nat} :
    Served (tries + 1) answers len ↔ Served tries (shift (k + 1) answers) len := by
  constructor
  · rintro ⟨s, hcompletes, hless⟩
    -- the window lies behind the attempt, which leaves one failure less to spend
    have hover : ¬ s ≤ k := fun hs => not_completes_shift hnot hfail hok hs hcompletes
    obtain ⟨s', rfl⟩ := Nat.exists_eq_add_of_le (show k + 1 ≤ s by omega)
    rw [failures_shift hfail hok] at hless
    exact ⟨s', by rwa [shift_shift], by omega⟩
  · rintro ⟨s, hcompletes, hless⟩
    rw [shift_shift] at hcompletes
    exact ⟨k + 1 + s, hcompletes, by rw [failures_shift hfail hok]; omega⟩

theorem servedOnce_succ_iff (hnot : ¬ Completes answers len) (hfail : (answers k).failed = true)
    (hok : ∀ i < k, (answers i).failed = false) {tries : Nat} :
    ServedOnce (tries + 1) answers len ↔
      k = 0 ∧ ServedOnce tries (shift (k + 1) answers) len := by
  constructor
  · rintro ⟨s, hless, hfails, hcompletes⟩
    have hover : ¬ s ≤ k := fun hs => not_completes_shift hnot hfail hok hs hcompletes
    -- each attempt before the window fails at its first call
    have hzero : k = 0 := by
      by_contra hk
      have hfirst := hok 0 (by omega)
      rw [hfails 0 (by omega)] at hfirst
      cases hfirst
    subst hzero
    obtain ⟨s', rfl⟩ := Nat.exists_eq_add_of_le (show 0 + 1 ≤ s by omega)
    exact ⟨rfl, s', by omega, fun i hi => hfails _ (by omega), by rwa [shift_shift]⟩
  · rintro ⟨rfl, s, hless, hfails, hcompletes⟩
    rw [shift_shift] at hcompletes
    refine ⟨0 + 1 + s, by omega, fun i hi => ?_, hcompletes⟩
    cases i with
    | zero =>
        exact hfail
    | succ i =>
        have hi' := hfails i (by omega)
        rwa [shift, Nat.zero_add, Nat.add_comm] at hi'

end Attempt

/-- An attempt that comes to its end ends the loop. -/
theorem retryAll_of_completes {tries : Nat} {answers : Nat → Answer ε} {data : List α}
    (h : Completes answers data.length) :
    retryAll (tries + 1) answers data = writeAll answers data := by
  simp [retryAll, (writeAll_of_completes h).1]

theorem retryAll_of_not_completes {tries : Nat} {answers : Nat → Answer ε} {data : List α}
    (h : ¬ Completes answers data.length) :
    retryAll (tries + 1) answers data =
      let again := retryAll tries (writeAll answers data).rest data
      { again with accepted := (writeAll answers data).accepted ++ again.accepted } := by
  have hdone : (writeAll answers data).done = false := by
    simpa using fun hd => h (writeAll_done_iff.1 hd)
  simp [retryAll, hdone]

theorem retryAll_done_iff {tries : Nat} {answers : Nat → Answer ε} {data : List α} :
    (retryAll tries answers data).done = true ↔ Served tries answers data.length := by
  induction tries generalizing answers with
  | zero =>
      simp [retryAll, Served]
  | succ tries ih =>
      by_cases hcompletes : Completes answers data.length
      · rw [retryAll_of_completes hcompletes]
        -- the first window completes, and no answer before it fails
        refine iff_of_true (writeAll_of_completes hcompletes).1 ⟨0, ?_, ?_⟩
        · rwa [shift_zero]
        · simp [failures]
      · obtain ⟨k, hfail, hok, -, hrest, -⟩ := writeAll_of_not_completes hcompletes
        rw [retryAll_of_not_completes hcompletes, served_succ_iff hcompletes hfail hok, hrest]
        exact ih

/-- Whatever was written before, the last attempt has written the data once more. -/
theorem length_le_retryAll_accepted {tries : Nat} {answers : Nat → Answer ε} {data : List α}
    (h : (retryAll tries answers data).done = true) :
    data.length ≤ (retryAll tries answers data).accepted.length := by
  induction tries generalizing answers with
  | zero =>
      cases h
  | succ tries ih =>
      by_cases hcompletes : Completes answers data.length
      · rw [retryAll_of_completes hcompletes, (writeAll_of_completes hcompletes).2]
      · rw [retryAll_of_not_completes hcompletes] at h ⊢
        have hagain := ih h
        simp only [List.length_append]
        omega

/-- All that was accepted is the data once, exactly when a single attempt has accepted it. -/
theorem retryAll_once_iff {tries : Nat} {answers : Nat → Answer ε} {data : List α} :
    ((retryAll tries answers data).done = true → (retryAll tries answers data).accepted = data) ↔
      (Served tries answers data.length → ServedOnce tries answers data.length) := by
  induction tries generalizing answers with
  | zero =>
      simp [retryAll, Served]
  | succ tries ih =>
      by_cases hcompletes : Completes answers data.length
      · -- the first attempt goes through
        rw [retryAll_of_completes hcompletes]
        refine iff_of_true (fun _ => (writeAll_of_completes hcompletes).2) fun _ => ?_
        exact ⟨0, Nat.succ_pos tries, fun i hi => absurd hi (Nat.not_lt_zero i), by rwa [shift_zero]⟩
      · obtain ⟨k, hfail, hok, -, hrest, hempty⟩ := writeAll_of_not_completes hcompletes
        rw [retryAll_of_not_completes hcompletes, served_succ_iff hcompletes hfail hok,
          servedOnce_succ_iff hcompletes hfail hok, hrest]
        by_cases hk : k = 0
        · -- it failed before anything was written
          simpa [hempty.2 hk, hk] using @ih (shift (k + 1) answers)
        · -- it left something behind, so that the data never stands alone
          have hleft : (writeAll answers data).accepted ≠ [] := fun h => hk (hempty.1 h)
          have hnever : (retryAll tries (shift (k + 1) answers) data).done = true →
              (writeAll answers data).accepted ++
                (retryAll tries (shift (k + 1) answers) data).accepted ≠ data := by
            intro hdone hsame
            have hlength := congrArg List.length hsame
            have hfull := length_le_retryAll_accepted hdone
            have hpos := List.length_pos_iff.2 hleft
            rw [List.length_append] at hlength
            omega
          -- so neither side holds when a later attempt goes through
          rw [← retryAll_done_iff]
          simp only [hk, false_and]
          exact ⟨fun h hdone => hnever hdone (h hdone), fun h hdone => (h hdone).elim⟩

end ShortWrite
