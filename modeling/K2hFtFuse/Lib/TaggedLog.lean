import Mathlib.Data.List.Basic
import Mathlib.Data.List.Nodup
import Mathlib.Tactic.Common

/-!
# TaggedLog — a log whose pieces come from several writers

Each piece of the log has the writer as its tag. This file defines:
* `share`: what a writer has put into the log,
* `InOrder`: the pieces of every writer stand together, the writers in a given order,

and shows that the log is then the shares one after another (`InOrder.contents`), and that it stays so
when the last writer, or one that has no piece yet, puts another piece to the end.
-/

namespace TaggedLog

variable {ι α : Type*} [DecidableEq ι]

def contents (log : List (ι × List α)) : List α := log.flatMap Prod.snd

/-- The pieces of a writer. -/
def pieces (log : List (ι × List α)) (c : ι) : List (ι × List α) := log.filter fun p => p.1 = c

def share (log : List (ι × List α)) (c : ι) : List α := contents (pieces log c)

def InOrder (log : List (ι × List α)) (order : List ι) : Prop :=
  order.Nodup ∧ log = order.flatMap (pieces log)

theorem pieces_append_self (log : List (ι × List α)) (c : ι) (b : List α) :
    pieces (log ++ [(c, b)]) c = pieces log c ++ [(c, b)] := by
  simp [pieces]

theorem pieces_append_ne (log : List (ι × List α)) {c c' : ι} (b : List α) (hne : c' ≠ c) :
    pieces (log ++ [(c, b)]) c' = pieces log c' := by
  simp [pieces, hne.symm]

theorem share_append_self (log : List (ι × List α)) (c : ι) (b : List α) :
    share (log ++ [(c, b)]) c = share log c ++ b := by
  simp [share, pieces_append_self, contents]

theorem share_append_ne (log : List (ι × List α)) {c c' : ι} (b : List α) (hne : c' ≠ c) :
    share (log ++ [(c, b)]) c' = share log c' := by
  rw [share, pieces_append_ne log b hne, share]

theorem share_eq_nil {log : List (ι × List α)} {c : ι} (h : ∀ p ∈ log, p.1 ≠ c) :
    share log c = [] := by
  have hpieces : pieces log c = [] := by
    rw [pieces, List.filter_eq_nil_iff]
    intro p hp
    simpa using h p hp
  rw [share, hpieces, contents, List.flatMap_nil]

namespace InOrder

variable {log : List (ι × List α)} {order : List ι}

theorem nil : InOrder ([] : List (ι × List α)) [] := ⟨List.nodup_nil, rfl⟩

/-- The log is the shares, one after another. -/
theorem contents (h : InOrder log order) : TaggedLog.contents log = order.flatMap (share log) := by
  calc TaggedLog.contents log
      = TaggedLog.contents (order.flatMap (pieces log)) := by rw [← h.2]
    _ = order.flatMap (share log) := by
        rw [TaggedLog.contents, List.flatMap_assoc]
        rfl

/-- A writer without a piece puts one to the end. -/
theorem append_new (h : InOrder log order) {c : ι} (hlog : ∀ p ∈ log, p.1 ≠ c) (horder : c ∉ order)
    (b : List α) : InOrder (log ++ [(c, b)]) (order ++ [c]) := by
  have hnone : pieces log c = [] := by
    rw [pieces, List.filter_eq_nil_iff]
    intro p hp
    simpa using hlog p hp
  have hold : ∀ c' ∈ order, pieces (log ++ [(c, b)]) c' = pieces log c' := by
    intro c' hc'
    refine pieces_append_ne log b ?_
    rintro rfl
    exact horder hc'
  refine ⟨?_, ?_⟩
  · rw [List.nodup_append]
    refine ⟨h.1, List.nodup_singleton c, ?_⟩
    intro c' hc' c'' hc''
    rw [List.mem_singleton.1 hc'']
    rintro rfl
    exact horder hc'
  · rw [List.flatMap_append, List.flatMap_singleton, List.flatMap_congr hold, ← h.2,
      pieces_append_self, hnone, List.nil_append]

/-- The last writer puts another piece to the end. -/
theorem append_last (h : InOrder log order) {c : ι} (hlast : order.getLast? = some c) (b : List α) :
    InOrder (log ++ [(c, b)]) order := by
  rcases List.getLast?_eq_some_iff.1 hlast with ⟨before, rfl⟩
  have hnot : c ∉ before := by
    intro hmem
    have hnodup := h.1
    rw [List.nodup_append] at hnodup
    exact hnodup.2.2 c hmem c (by simp) rfl
  have hold : ∀ c' ∈ before, pieces (log ++ [(c, b)]) c' = pieces log c' := by
    intro c' hc'
    refine pieces_append_ne log b ?_
    rintro rfl
    exact hnot hc'
  refine ⟨h.1, ?_⟩
  calc log ++ [(c, b)]
      = (before ++ [c]).flatMap (pieces log) ++ [(c, b)] := by rw [← h.2]
    _ = (before ++ [c]).flatMap (pieces (log ++ [(c, b)])) := by
        rw [List.flatMap_append, List.flatMap_append, List.flatMap_congr hold, List.flatMap_singleton,
          List.flatMap_singleton, pieces_append_self, List.append_assoc]

end InOrder

end TaggedLog
