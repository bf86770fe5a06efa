import Mathlib.Tactic.Common

/-!
# Outcome — runs of fallible operations

A sequence of operations returns when each of them does: `bind_eq_ok` takes it apart, one operation
after the other. Two operations agree when both fail with the same error or both return related values.
A proof that a program treats related inputs alike goes through its steps with `Related.bind`.
-/

namespace Outcome

universe u v w

variable {ε : Type w} {α α' : Type u} {β β' : Type v}

/-- A sequence of two operations that returned. -/
theorem bind_eq_ok {x : Except ε α} {f : α → Except ε α'} {b : α'} :
    x >>= f = .ok b ↔ ∃ a, x = .ok a ∧ f a = .ok b := by
  cases x with
  | error e =>
      constructor
      · intro h
        cases h
      · rintro ⟨a, h, -⟩
        cases h
  | ok a =>
      constructor
      · exact fun h => ⟨a, rfl, h⟩
      · rintro ⟨a', h, hf⟩
        cases h
        exact hf

/-- Both fail with the same error, or both return related values. -/
inductive Related (R : α → β → Prop) : Except ε α → Except ε β → Prop
  | error (e : ε) : Related R (.error e) (.error e)
  | ok {a : α} {b : β} (h : R a b) : Related R (.ok a) (.ok b)

variable {R : α → β → Prop} {S : α' → β' → Prop}

theorem Related.bind {x : Except ε α} {y : Except ε β} {f : α → Except ε α'} {g : β → Except ε β'}
    (h : Related R x y) (hfg : ∀ a b, R a b → Related S (f a) (g b)) :
    Related S (x >>= f) (y >>= g) := by
  cases h with
  | error e => exact .error e
  | ok hab => exact hfg _ _ hab

/-- One operation agrees with itself. -/
theorem Related.same (x : Except ε α) : Related Eq x x := by
  cases x with
  | error e => exact .error e
  | ok a => exact .ok rfl

theorem Related.ite {c : Prop} [Decidable c] {x x' : Except ε α} {y y' : Except ε β}
    (h : Related R x y) (h' : Related R x' y') :
    Related R (if c then x else x') (if c then y else y') := by
  split
  · exact h
  · exact h'

theorem Related.of_ok {a : α} {y : Except ε β} (h : Related R (.ok a) y) :
    ∃ b, y = .ok b ∧ R a b := by
  cases h with
  | ok hab => exact ⟨_, rfl, hab⟩

end Outcome
