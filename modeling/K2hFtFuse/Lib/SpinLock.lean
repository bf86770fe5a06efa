import Mathlib.Tactic.Common

/-!
# SpinLock — operations under locks that are not reentrant

An operation on a state with locks returns a value and the new state, or it stops for good:

- `spin`: it waits for a lock that is already held, with nobody to release it;
- `fault`: its behaviour is undefined, or an exception leaves it.

`Settles` is the discipline of one call: it leaves the locks as it found them, and where it found them
free it does not spin. It is closed under sequencing, and a sequence of calls that all settle settles
(`runAll_settles`).
-/

namespace SpinLock

universe u v

inductive Stop
  | spin
  | fault
  deriving DecidableEq

/-- An operation on states `σ` with a result. -/
abbrev Op (σ α : Type*) := σ → Except Stop (α × σ)

/-! ## The discipline of one call -/

section Settles

variable {β : Type v} {γ δ : Type u} {held : γ → β} {held' : δ → β} {free b : β}

/-- The outcome of a call that found the locks in the state `b`. -/
def Settles (held : γ → β) (free b : β) : Except Stop γ → Prop
  | .ok a => held a = b
  | .error e => b = free → e ≠ .spin

theorem settles_ok {a : γ} (h : held a = b) : Settles held free b (.ok a) := h

theorem settles_fault : Settles held free b (.error .fault) := fun _ => by decide

/-- Whoever finds a lock held may spin. -/
theorem settles_of_held {e : Stop} (h : b ≠ free) : Settles held free b (.error e) :=
  fun hb => absurd hb h

theorem Settles.held_eq {x : Except Stop γ} {a : γ} (h : Settles held free b x) (hx : x = .ok a) :
    held a = b := by
  rw [hx] at h
  exact h

theorem Settles.ne_spin {x : Except Stop γ} (h : Settles held free b x) (hb : b = free) :
    x ≠ .error .spin := by
  rintro rfl
  exact h hb rfl

/-- One call after another. -/
theorem Settles.bind {x : Except Stop γ} {f : γ → Except Stop δ} (hx : Settles held free b x)
    (hf : ∀ a, x = .ok a → held a = b → Settles held' free b (f a)) :
    Settles held' free b (x >>= f) := by
  rcases x with e | a
  · exact hx
  · exact hf a rfl hx

/-- A call after a computation that does not touch the locks. -/
theorem settles_bind_of_ne_spin {x : Except Stop γ} {f : γ → Except Stop δ}
    (hspin : x ≠ .error .spin) (hf : ∀ a, x = .ok a → Settles held' free b (f a)) :
    Settles held' free b (x >>= f) := by
  rcases x with e | a
  · intro _ he
    exact hspin (by rw [he])
  · exact hf a rfl

end Settles

/-! ## Sequences of calls -/

section Run

variable {β : Type v} {σ α : Type u} (held : σ → β) (free : β)

/-- The operation settles when it is called in the state `s`. -/
def SettlesAt (op : Op σ α) (s : σ) : Prop :=
  Settles (fun r : α × σ => held r.2) free (held s) (op s)

/-- Operations one after the other, with what each of them returns thrown away. -/
def runAll : List (Op σ α) → σ → Except Stop σ
  | [], s => .ok s
  | op :: ops, s =>
      match op s with
      | .error e => .error e
      | .ok (_, s') => runAll ops s'

/-- Every operation of the sequence settles in the state in which it is called. -/
def AllSettle : List (Op σ α) → σ → Prop
  | [], _ => True
  | op :: ops, s => SettlesAt held free op s ∧ ∀ a s', op s = .ok (a, s') → AllSettle ops s'

variable {held free}

theorem runAll_settles {ops : List (Op σ α)} {s : σ} (h : AllSettle held free ops s) :
    Settles held free (held s) (runAll ops s) := by
  induction ops generalizing s with
  | nil =>
      exact settles_ok rfl
  | cons op ops ih =>
      rcases h with ⟨hop, hrest⟩
      unfold SettlesAt at hop
      rcases hs : op s with e | ⟨a, s'⟩
      · rw [hs] at hop
        simp only [runAll, hs]
        exact hop
      · have hheld : held s' = held s := hop.held_eq hs
        rw [← hheld]
        simpa only [runAll, hs] using ih (hrest a s' hs)

end Run

end SpinLock
