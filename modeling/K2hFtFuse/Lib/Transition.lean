import Mathlib.Data.List.Basic
import Mathlib.Tactic.Common

/-!
# Transition — runs of a labelled step function

A system is a partial step function on states. `run` follows a list of labels; a label that cannot
be taken ends the run without a state. The induction over runs is done here:
* `invariant_run_of_guarded`: what every step that meets a condition preserves holds after every run
  of such steps,
* `invariant_run`: what every step preserves holds after every run,
* `exists_step_of_run`: what holds at the end of a run and not at its beginning, some step has brought
  about,
* `exists_run_of_guarded`: where the condition lets every step be taken, the run has an end,
* `guarded_of_throughout`: a condition that every step of a run tells of is met in the run,
* `throughout_iff_guarded`: a property is there throughout exactly if the steps meet the condition that
  keeps it,
* `run_iff_guarded`: a property that cannot come back is kept exactly by steps that meet a condition,
* `damaged_of_not_guarded`: damage that no step repairs remains to the end of the run.
-/

namespace Transition

variable {σ ι : Type*} (step : σ → ι → Option σ)

def run : σ → List ι → Option σ
  | s, [] => some s
  | s, l :: ls => (step s l).bind fun s' => run s' ls

@[simp] theorem run_nil (s : σ) : run step s [] = some s := rfl

theorem run_cons (s : σ) (l : ι) (ls : List ι) :
    run step s (l :: ls) = (step s l).bind fun s' => run step s' ls := rfl

/-- Every step of the run meets the condition, in the state in which it is taken. -/
def Guarded (ok : σ → ι → Prop) : σ → List ι → Prop
  | _, [] => True
  | s, l :: ls => ok s l ∧ ∀ s', step s l = some s' → Guarded ok s' ls

/-- Whether a given run meets a decidable condition is decided by running it. -/
instance instDecidableGuarded (ok : σ → ι → Prop) [∀ s l, Decidable (ok s l)] :
    ∀ s ls, Decidable (Guarded step ok s ls)
  | _, [] => .isTrue trivial
  | s, l :: ls =>
      match hstep : step s l with
      | none => decidable_of_iff (ok s l) (by simp [Guarded, hstep])
      | some t =>
          have := instDecidableGuarded ok t ls
          decidable_of_iff (ok s l ∧ Guarded step ok t ls) (by simp [Guarded, hstep])

/-- A condition on labels alone. -/
theorem guarded_of_forall_mem {ok : ι → Prop} (s : σ) {ls : List ι} (h : ∀ l ∈ ls, ok l) :
    Guarded step (fun _ l => ok l) s ls := by
  induction ls generalizing s with
  | nil =>
      trivial
  | cons l ls ih =>
      refine ⟨h l (by simp), ?_⟩
      intro s' _
      exact ih s' fun l' hl' => h l' (by simp [hl'])

/-- A predicate holds in every state of the run, and a relation at every step of it. -/
def Throughout (P : σ → Prop) (R : σ → ι → σ → Prop) : σ → List ι → Prop
  | s, [] => P s
  | s, l :: ls => P s ∧ ∀ s', step s l = some s' → R s l s' ∧ Throughout P R s' ls

variable {step}

theorem Guarded.and {ok ok' : σ → ι → Prop} {s : σ} {ls : List ι} (h : Guarded step ok s ls)
    (h' : Guarded step ok' s ls) : Guarded step (fun s l => ok s l ∧ ok' s l) s ls := by
  induction ls generalizing s with
  | nil =>
      trivial
  | cons l ls ih =>
      exact ⟨⟨h.1, h'.1⟩, fun t hstep => ih (h.2 t hstep) (h'.2 t hstep)⟩

theorem throughout_of_guarded {ok : σ → ι → Prop} {Inv P : σ → Prop} {R : σ → ι → σ → Prop}
    (hpres : ∀ s l s', Inv s → ok s l → step s l = some s' → Inv s' ∧ R s l s')
    (hP : ∀ s, Inv s → P s) {s : σ} {ls : List ι} (hguard : Guarded step ok s ls) (hinv : Inv s) :
    Throughout step P R s ls := by
  induction ls generalizing s with
  | nil =>
      exact hP s hinv
  | cons l ls ih =>
      refine ⟨hP s hinv, ?_⟩
      intro s' hstep
      rcases hpres s l s' hinv hguard.1 hstep with ⟨hinv', hR⟩
      exact ⟨hR, ih (hguard.2 s' hstep) hinv'⟩

/-- A run that can be taken meets every condition that the relation of its steps implies. -/
theorem guarded_of_throughout {ok : σ → ι → Prop} {P : σ → Prop} {R : σ → ι → σ → Prop}
    (hok : ∀ s l s', step s l = some s' → R s l s' → ok s l) {s : σ} {ls : List ι}
    (hrun : (run step s ls).isSome) (h : Throughout step P R s ls) : Guarded step ok s ls := by
  induction ls generalizing s with
  | nil =>
      trivial
  | cons l ls ih =>
      rcases Option.isSome_iff_exists.1 hrun with ⟨s', hsome⟩
      rcases Option.bind_eq_some_iff.1 hsome with ⟨t, hstep, hrest⟩
      refine ⟨hok s l t hstep (h.2 t hstep).1, ?_⟩
      intro t' hstep'
      obtain rfl : t = t' := Option.some.inj (hstep.symm.trans hstep')
      exact ih (Option.isSome_of_eq_some hrest) (h.2 t hstep).2

/-- Where a step keeps a property exactly if it meets the condition, a run has it throughout exactly if
all its steps meet the condition. -/
theorem throughout_iff_guarded {ok : σ → ι → Prop} {Inv P : σ → Prop}
    (hpres : ∀ s l s', Inv s → step s l = some s' → Inv s')
    (hstep : ∀ s l s', Inv s → P s → step s l = some s' → (P s' ↔ ok s l)) {s : σ} {ls : List ι}
    (hinv : Inv s) (hrun : (run step s ls).isSome) (hP : P s) :
    Throughout step P (fun _ _ _ => True) s ls ↔ Guarded step ok s ls := by
  induction ls generalizing s with
  | nil =>
      exact ⟨fun _ => trivial, fun _ => hP⟩
  | cons l ls ih =>
      rcases Option.isSome_iff_exists.1 hrun with ⟨s', hsome⟩
      rcases Option.bind_eq_some_iff.1 hsome with ⟨t, ht, hrest⟩
      have hrest : (run step t ls).isSome := Option.isSome_of_eq_some hrest
      have hinv' := hpres s l t hinv ht
      constructor
      · intro h
        have hlater := (h.2 t ht).2
        have hPt : P t := by
          cases ls with
          | nil => exact hlater
          | cons l' ls => exact hlater.1
        refine ⟨(hstep s l t hinv hP ht).1 hPt, ?_⟩
        intro t' ht'
        obtain rfl : t = t' := Option.some.inj (ht.symm.trans ht')
        exact (ih hinv' hrest hPt).1 hlater
      · intro h
        refine ⟨hP, ?_⟩
        intro t' ht'
        obtain rfl : t = t' := Option.some.inj (ht.symm.trans ht')
        have hPt : P t := (hstep s l t hinv hP ht).2 h.1
        exact ⟨trivial, (ih hinv' hrest hPt).2 (h.2 t ht)⟩

/-- What holds throughout a run holds where it ends. -/
theorem Throughout.last {P : σ → Prop} {R : σ → ι → σ → Prop} {s s' : σ} {ls : List ι}
    (h : Throughout step P R s ls) (hrun : run step s ls = some s') : P s' := by
  induction ls generalizing s with
  | nil =>
      rwa [← Option.some.inj hrun]
  | cons l ls ih =>
      rcases Option.bind_eq_some_iff.1 hrun with ⟨t, hstep, hrest⟩
      exact ih (h.2 t hstep).2 hrest

theorem invariant_run_of_guarded {ok : σ → ι → Prop} {Inv : σ → Prop}
    (hpres : ∀ s l s', Inv s → ok s l → step s l = some s' → Inv s') {s s' : σ} {ls : List ι}
    (hguard : Guarded step ok s ls) (hrun : run step s ls = some s') (hinv : Inv s) : Inv s' := by
  induction ls generalizing s with
  | nil =>
      simpa [← Option.some.inj hrun] using hinv
  | cons l ls ih =>
      rcases hstep : step s l with _ | t
      · simp [run_cons, hstep] at hrun
      · have hnext : Inv t := hpres s l t hinv hguard.1 hstep
        refine ih (hguard.2 t hstep) ?_ hnext
        simpa [run_cons, hstep] using hrun

/-- Where the condition lets every step be taken, a run of such steps has an end, with the invariant
on the way. -/
theorem exists_run_of_guarded {ok : σ → ι → Prop} {Inv P : σ → Prop} {R : σ → ι → σ → Prop}
    (hstep : ∀ s l, Inv s → ok s l → ∃ s', step s l = some s' ∧ Inv s' ∧ R s l s')
    (hP : ∀ s, Inv s → P s) {s : σ} {ls : List ι} (hguard : Guarded step ok s ls) (hinv : Inv s) :
    ∃ s', run step s ls = some s' ∧ Inv s' ∧ Throughout step P R s ls := by
  induction ls generalizing s with
  | nil =>
      exact ⟨s, rfl, hinv, hP s hinv⟩
  | cons l ls ih =>
      rcases hstep s l hinv hguard.1 with ⟨t, ht, hinv', hR⟩
      rcases ih (hguard.2 t ht) hinv' with ⟨s', hrun, hend, hrest⟩
      refine ⟨s', ?_, hend, hP s hinv, ?_⟩
      · rw [run_cons, ht, Option.bind_some, hrun]
      · intro t' ht'
        obtain rfl : t = t' := Option.some.inj (ht.symm.trans ht')
        exact ⟨hR, hrest⟩

theorem invariant_run {Inv : σ → Prop}
    (hpres : ∀ s l s', Inv s → step s l = some s' → Inv s') {s s' : σ} {ls : List ι}
    (hrun : run step s ls = some s') (hinv : Inv s) : Inv s' := by
  have hguard : Guarded step (fun _ _ => True) s ls :=
    guarded_of_forall_mem step s fun _ _ => trivial
  exact invariant_run_of_guarded (fun s l s' h _ => hpres s l s' h) hguard hrun hinv

/-- What holds at the end and not at the beginning, some step has brought about. -/
theorem exists_step_of_run {Inv P : σ → Prop} {Q : σ → ι → Prop}
    (hpres : ∀ s l s', Inv s → step s l = some s' → Inv s')
    (hstep : ∀ s l s', Inv s → step s l = some s' → P s' → P s ∨ Q s l) {s s' : σ} {ls : List ι}
    (hinv : Inv s) (hrun : run step s ls = some s') (hbefore : ¬ P s) (h : P s') :
    ∃ before l after t, ls = before ++ l :: after ∧ run step s before = some t ∧ Q t l := by
  induction ls generalizing s with
  | nil =>
      rw [run_nil] at hrun
      exact absurd (Option.some.inj hrun ▸ h) hbefore
  | cons l ls ih =>
      rcases Option.bind_eq_some_iff.1 hrun with ⟨t, ht, hrest⟩
      by_cases hP : P t
      · rcases hstep s l t hinv ht hP with hP | hQ
        · exact absurd hP hbefore
        · exact ⟨[], l, ls, s, rfl, rfl, hQ⟩
      · rcases ih (hpres s l t hinv ht) hrest hP with ⟨before, l', after, u, rfl, hu, hQ⟩
        exact ⟨l :: before, l', after, u, rfl, by rw [run_cons, ht, Option.bind_some, hu], hQ⟩

/-- Where a step keeps a property exactly if it meets the condition and the property cannot come
back, a run keeps it exactly if all its steps meet the condition. -/
theorem run_iff_guarded {ok : σ → ι → Prop} {Inv P : σ → Prop}
    (hpres : ∀ s l s', Inv s → step s l = some s' → Inv s')
    (hstep : ∀ s l s', Inv s → step s l = some s' → (P s' ↔ P s ∧ ok s l)) {s t : σ} {ls : List ι}
    (hinv : Inv s) (hrun : run step s ls = some t) : P t ↔ P s ∧ Guarded step ok s ls := by
  induction ls generalizing s with
  | nil =>
      obtain rfl := Option.some.inj hrun
      simp [Guarded]
  | cons l ls ih =>
      rcases Option.bind_eq_some_iff.1 hrun with ⟨u, hu, hrest⟩
      rw [ih (hpres s l u hinv hu) hrest, hstep s l u hinv hu]
      simp [Guarded, hu, and_assoc]

/-- Where every step that fails the condition does damage, and no step repairs it, a run with such
a step ends damaged. -/
theorem damaged_of_not_guarded {ok : σ → ι → Prop} {Inv Damaged : σ → Prop}
    (hpres : ∀ s l s', Inv s → step s l = some s' → Inv s')
    (hfails : ∀ s l s', Inv s → ¬ ok s l → step s l = some s' → Damaged s')
    (hstays : ∀ s l s', Inv s → Damaged s → step s l = some s' → Damaged s')
    {s s' : σ} {ls : List ι} (hinv : Inv s) (hnot : ¬ Guarded step ok s ls)
    (hrun : run step s ls = some s') : Damaged s' := by
  induction ls generalizing s with
  | nil =>
      exact absurd trivial hnot
  | cons l ls ih =>
      rcases Option.bind_eq_some_iff.1 hrun with ⟨t, hstep, hrest⟩
      have hinv' := hpres s l t hinv hstep
      by_cases hok : ok s l
      · -- the step meets the condition, so a later one fails it
        refine ih hinv' (fun hguard => hnot ⟨hok, ?_⟩) hrest
        intro t' hstep'
        rw [hstep] at hstep'
        rwa [← Option.some.inj hstep']
      · have hpres' : ∀ s l s', Inv s ∧ Damaged s → step s l = some s' → Inv s' ∧ Damaged s' :=
          fun s l s' h hs => ⟨hpres s l s' h.1 hs, hstays s l s' h.1 h.2 hs⟩
        exact (invariant_run hpres' hrest ⟨hinv', hfails s l t hinv hok hstep⟩).2

end Transition
