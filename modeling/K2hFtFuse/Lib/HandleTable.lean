import K2hFtFuse.Lib.OrdMap
import K2hFtFuse.Lib.Transition
import Mathlib.Logic.Function.Basic

/-!
# HandleTable — owners that keep one open handle each

Every owner has a slot for one handle, and a map holds the handles that are open, with the owner for
whom each was opened. An owner may forget its handle without closing it.

This file defines:
* `HandleAct`, `HandleTable.step`: forgetting, acquiring and closing a handle,
* `Matched`: the open handles are those that the owners hold,
* `Leaked`: a handle is open that its owner does not hold.

From a table that is matched, a run ends in a matched one if no owner forgets a handle
(`matched_run`), and in a leaked one if some owner does (`leaked_of_not_guarded`): a handle that was
leaked stays open for good (`leaked_run`).

`release` also closes handles whoever holds them. Nothing is leaked by that (`not_leaked_release`), but
who holds such a handle keeps what is not open for it any more (`sound_release_iff`).
-/

/-- What happens to the handle of an owner. -/
inductive HandleAct (ω δ : Type*)
  | forget (w : ω)
  | acquire (w : ω) (d : δ)
  | close (w : ω)
  deriving DecidableEq

structure HandleTable (ω δ : Type*) [LinearOrder δ] where
  held : ω → Option δ
  opened : OrdMap δ ω

namespace HandleTable

variable {ω δ : Type*}

/-! ## What the owners hold -/

section Slots

variable [DecidableEq ω]

/-- The slots of the owners after an act. -/
def hold (held : ω → Option δ) : HandleAct ω δ → ω → Option δ
  | .forget w => Function.update held w none
  | .acquire w d => Function.update held w (some d)
  | .close w => Function.update held w none

theorem hold_forget_ne (held : ω → Option δ) {w w' : ω} (h : w' ≠ w) :
    hold held (.forget w) w' = held w' := by
  simp [hold, h]

theorem hold_acquire_ne (held : ω → Option δ) {w w' : ω} (d : δ) (h : w' ≠ w) :
    hold held (.acquire w d) w' = held w' := by
  simp [hold, h]

theorem hold_close_ne (held : ω → Option δ) {w w' : ω} (h : w' ≠ w) :
    hold held (.close w) w' = held w' := by
  simp [hold, h]

@[simp] theorem hold_forget_self (held : ω → Option δ) (w : ω) : hold held (.forget w) w = none := by
  simp [hold]

@[simp] theorem hold_acquire_self (held : ω → Option δ) (w : ω) (d : δ) :
    hold held (.acquire w d) w = some d := by
  simp [hold]

@[simp] theorem hold_close_self (held : ω → Option δ) (w : ω) : hold held (.close w) w = none := by
  simp [hold]

/-- An owner that acquires nothing keeps an empty slot. -/
theorem foldl_hold_eq_none {acts : List (HandleAct ω δ)} {w : ω}
    (hacts : ∀ d, .acquire w d ∉ acts) {held : ω → Option δ} (hnone : held w = none) :
    acts.foldl hold held w = none := by
  induction acts generalizing held with
  | nil =>
      exact hnone
  | cons act acts ih =>
      refine ih (fun d hd => hacts d (List.mem_cons_of_mem act hd)) ?_
      cases act with
      | acquire w' d =>
          have hne : w ≠ w' := by
            rintro rfl
            exact hacts d List.mem_cons_self
          rw [hold_acquire_ne held d hne, hnone]
      | _ w' =>
          simp [hold, Function.update_apply, hnone]

/-- An owner that closes its handle and acquires no other ends with an empty slot. -/
theorem foldl_hold_of_close {acts : List (HandleAct ω δ)} {w : ω} (hclose : .close w ∈ acts)
    (hacts : ∀ d, .acquire w d ∉ acts) (held : ω → Option δ) : acts.foldl hold held w = none := by
  obtain ⟨before, after, rfl⟩ := List.append_of_mem hclose
  rw [List.foldl_append, List.foldl_cons]
  exact foldl_hold_eq_none (fun d hd => hacts d (by simp [hd])) (hold_close_self _ w)

end Slots

/-! ## Steps -/

variable [LinearOrder δ]

/-- The open handles after an owner closes what it holds. -/
def closeHeld (t : HandleTable ω δ) (w : ω) : OrdMap δ ω :=
  match t.held w with
  | none => t.opened
  | some d => t.opened.erase d

section Steps

variable [DecidableEq ω]

/-- An owner acquires only what is not open, and only into an empty slot. -/
def step (t : HandleTable ω δ) : HandleAct ω δ → Option (HandleTable ω δ)
  | .forget w =>
      some { t with held := hold t.held (.forget w) }
  | .acquire w d =>
      if t.held w = none ∧ t.opened.find? d = none then
        some
          { held := hold t.held (.acquire w d)
            opened := t.opened.insert d w }
      else
        none
  | .close w =>
      some
        { held := hold t.held (.close w)
          opened := t.closeHeld w }

/-- The act takes no handle out of a slot without closing it. -/
def Keeps (t : HandleTable ω δ) : HandleAct ω δ → Prop
  | .forget w => t.held w = none
  | .acquire _ _ => True
  | .close _ => True

instance instDecidableKeeps [DecidableEq δ] (t : HandleTable ω δ) :
    ∀ act, Decidable (t.Keeps act)
  | .forget w => inferInstanceAs (Decidable (t.held w = none))
  | .acquire _ _ => .isTrue trivial
  | .close _ => .isTrue trivial

theorem held_step {t t' : HandleTable ω δ} {act : HandleAct ω δ} (h : t.step act = some t') :
    t'.held = hold t.held act := by
  cases act with
  | forget w =>
      rw [← Option.some.inj h]
  | acquire w d =>
      simp only [step, Option.ite_none_right_eq_some, Option.some.injEq] at h
      rw [← h.2]
  | close w =>
      rw [← Option.some.inj h]

theorem held_run {t t' : HandleTable ω δ} {acts : List (HandleAct ω δ)}
    (h : Transition.run step t acts = some t') : t'.held = acts.foldl hold t.held := by
  induction acts generalizing t with
  | nil =>
      rw [← Option.some.inj h]
      rfl
  | cons act acts ih =>
      rcases Option.bind_eq_some_iff.1 h with ⟨t₁, hstep, hrun⟩
      rw [ih hrun, held_step hstep]
      rfl

end Steps

/-! ## What is open -/

/-- What an owner holds is open for it. -/
def Sound (t : HandleTable ω δ) : Prop := ∀ w d, t.held w = some d → t.opened.find? d = some w

/-- The open handles are those that the owners hold. -/
def Matched (t : HandleTable ω δ) : Prop := ∀ d w, t.opened.find? d = some w ↔ t.held w = some d

/-- A handle is open that its owner does not hold. -/
def Leaked (t : HandleTable ω δ) : Prop := ∃ d w, t.opened.find? d = some w ∧ t.held w ≠ some d

theorem Matched.sound {t : HandleTable ω δ} (h : t.Matched) : t.Sound :=
  fun w d hheld => (h d w).2 hheld

theorem Sound.not_leaked_iff {t : HandleTable ω δ} (h : t.Sound) : ¬ t.Leaked ↔ t.Matched := by
  constructor
  · intro hnot d w
    refine ⟨fun hopen => ?_, h w d⟩
    by_contra hheld
    exact hnot ⟨d, w, hopen, hheld⟩
  · rintro hmatched ⟨d, w, hopen, hheld⟩
    exact hheld ((hmatched d w).1 hopen)

theorem closeHeld_iff (t : HandleTable ω δ) {d : δ} {w w' : ω} :
    (t.closeHeld w).find? d = some w' ↔ t.opened.find? d = some w' ∧ t.held w ≠ some d := by
  unfold closeHeld
  cases hheld : t.held w with
  | none =>
      simp
  | some d' =>
      simp only [OrdMap.find?_erase]
      by_cases hd : d = d'
      · simp [hd]
      · have hne : d' ≠ d := fun heq => hd heq.symm
        simp [hd, hne]

variable [DecidableEq ω]

theorem sound_step {t t' : HandleTable ω δ} {act : HandleAct ω δ} (h : t.Sound)
    (hstep : t.step act = some t') : t'.Sound := by
  cases act with
  | forget w =>
      rw [← Option.some.inj hstep]
      intro w' d hheld
      change hold t.held (.forget w) w' = some d at hheld
      by_cases hw : w' = w
      · simp [hw] at hheld
      · rw [hold_forget_ne _ hw] at hheld
        exact h w' d hheld
  | acquire w d =>
      simp only [step, Option.ite_none_right_eq_some, Option.some.injEq] at hstep
      rcases hstep with ⟨⟨-, hfresh⟩, rfl⟩
      intro w' d' hheld
      change hold t.held (.acquire w d) w' = some d' at hheld
      by_cases hw : w' = w
      · rw [hw, hold_acquire_self] at hheld
        rw [hw, ← Option.some.inj hheld, OrdMap.find?_insert_self]
      · -- the other owners hold what was open before, and the new handle was not
        rw [hold_acquire_ne _ d hw] at hheld
        have hopen := h w' d' hheld
        have hne : d' ≠ d := by
          rintro rfl
          simp [hfresh] at hopen
        rw [OrdMap.find?_insert_ne _ _ hne, hopen]
  | close w =>
      rw [← Option.some.inj hstep]
      intro w' d hheld
      change hold t.held (.close w) w' = some d at hheld
      by_cases hw : w' = w
      · simp [hw] at hheld
      · rw [hold_close_ne _ hw] at hheld
        refine (closeHeld_iff t).2 ⟨h w' d hheld, fun hheld' => hw ?_⟩
        have hopen := h w' d hheld
        rw [h w d hheld'] at hopen
        exact (Option.some.inj hopen).symm

/-- A leaked handle is never closed: no slot has it any more. -/
theorem leaked_step {t t' : HandleTable ω δ} {act : HandleAct ω δ} (hsound : t.Sound)
    (h : t.Leaked) (hstep : t.step act = some t') : t'.Leaked := by
  rcases h with ⟨d, w, hopen, hheld⟩
  cases act with
  | forget w' =>
      rw [← Option.some.inj hstep]
      refine ⟨d, w, hopen, ?_⟩
      simp only [hold, Function.update_apply]
      split
      · simp
      · exact hheld
  | acquire w' d' =>
      simp only [step, Option.ite_none_right_eq_some, Option.some.injEq] at hstep
      rcases hstep with ⟨⟨-, hfresh⟩, rfl⟩
      have hne : d ≠ d' := by
        rintro rfl
        simp [hfresh] at hopen
      refine ⟨d, w, (OrdMap.find?_insert_ne _ _ hne).trans hopen, ?_⟩
      simp only [hold, Function.update_apply]
      split
      · simpa using hne.symm
      · exact hheld
  | close w' =>
      rw [← Option.some.inj hstep]
      refine ⟨d, w, (closeHeld_iff t).2 ⟨hopen, fun hheld' => hheld ?_⟩, ?_⟩
      · -- whoever holds the handle is the owner for whom it was opened
        have hopen' := hsound w' d hheld'
        rw [hopen] at hopen'
        rw [Option.some.inj hopen', hheld']
      · simp only [hold, Function.update_apply]
        split
        · simp
        · exact hheld

theorem leaked_of_not_keeps {t t' : HandleTable ω δ} {act : HandleAct ω δ} (hsound : t.Sound)
    (hnot : ¬ t.Keeps act) (hstep : t.step act = some t') : t'.Leaked := by
  cases act with
  | forget w =>
      rcases Option.ne_none_iff_exists'.1 hnot with ⟨d, hheld⟩
      rw [← Option.some.inj hstep]
      exact ⟨d, w, hsound w d hheld, by simp [hold]⟩
  | acquire w d =>
      exact absurd trivial hnot
  | close w =>
      exact absurd trivial hnot

theorem matched_step {t t' : HandleTable ω δ} {act : HandleAct ω δ} (h : t.Matched)
    (hkeeps : t.Keeps act) (hstep : t.step act = some t') : t'.Matched := by
  refine (sound_step h.sound hstep).not_leaked_iff.1 ?_
  cases act with
  | forget w =>
      rw [← Option.some.inj hstep]
      rintro ⟨d, w', hopen, hheld⟩
      refine hheld ?_
      have hheld' := (h d w').1 hopen
      have hne : w' ≠ w := by
        rintro rfl
        rw [show t.held w' = none from hkeeps] at hheld'
        cases hheld'
      exact (hold_forget_ne _ hne).trans hheld'
  | acquire w d =>
      simp only [step, Option.ite_none_right_eq_some, Option.some.injEq] at hstep
      rcases hstep with ⟨⟨hnone, -⟩, rfl⟩
      rintro ⟨d', w', hopen, hheld⟩
      refine hheld ?_
      rw [OrdMap.find?_insert] at hopen
      split at hopen
      · rename_i heq
        rw [← Option.some.inj hopen, heq]
        exact hold_acquire_self _ w d
      · have hheld' := (h d' w').1 hopen
        have hne : w' ≠ w := by
          rintro rfl
          rw [hnone] at hheld'
          cases hheld'
        exact (hold_acquire_ne _ d hne).trans hheld'
  | close w =>
      rw [← Option.some.inj hstep]
      rintro ⟨d, w', hopen, hheld⟩
      rcases (closeHeld_iff t).1 hopen with ⟨hopen, hother⟩
      refine hheld ?_
      have hheld' := (h d w').1 hopen
      have hne : w' ≠ w := by
        rintro rfl
        exact hother hheld'
      exact (hold_close_ne _ hne).trans hheld'

/-! ## Runs -/

theorem sound_run {t t' : HandleTable ω δ} {acts : List (HandleAct ω δ)} (h : t.Sound)
    (hrun : Transition.run step t acts = some t') : t'.Sound := by
  refine Transition.invariant_run ?_ hrun h
  intro s act s' hsound hstep
  exact sound_step hsound hstep

/-- One handle that was leaked stays open to the end of the run. -/
theorem leaked_run {t t' : HandleTable ω δ} {acts : List (HandleAct ω δ)} (hsound : t.Sound)
    (h : t.Leaked) (hrun : Transition.run step t acts = some t') : t'.Leaked := by
  have hpres : ∀ (s : HandleTable ω δ) act s', s.Sound ∧ s.Leaked → s.step act = some s' →
      s'.Sound ∧ s'.Leaked := by
    intro s act s' hs hstep
    exact ⟨sound_step hs.1 hstep, leaked_step hs.1 hs.2 hstep⟩
  exact (Transition.invariant_run hpres hrun ⟨hsound, h⟩).2

theorem matched_run {t t' : HandleTable ω δ} {acts : List (HandleAct ω δ)} (h : t.Matched)
    (hkeeps : Transition.Guarded step Keeps t acts) (hrun : Transition.run step t acts = some t') :
    t'.Matched := by
  refine Transition.invariant_run_of_guarded ?_ hkeeps hrun h
  intro s act s' hmatched hok hstep
  exact matched_step hmatched hok hstep

theorem leaked_of_not_guarded {t t' : HandleTable ω δ} {acts : List (HandleAct ω δ)}
    (hsound : t.Sound) (hnot : ¬ Transition.Guarded step Keeps t acts)
    (hrun : Transition.run step t acts = some t') : t'.Leaked := by
  refine Transition.damaged_of_not_guarded ?_ ?_ ?_ hsound hnot hrun
  · intro s act s' h hstep
    exact sound_step h hstep
  · intro s act s' h hforgets hstep
    exact leaked_of_not_keeps h hforgets hstep
  · intro s act s' h hleaked hstep
    exact leaked_step h hleaked hstep

/-! ## Releasing -/

/-- Some owners close what they hold, and some more handles are closed without a look at who holds
them. -/
def release (t : HandleTable ω δ) (ws : List ω) (ds : List δ) : HandleTable ω δ :=
  { held := fun w => if w ∈ ws then none else t.held w
    opened := (ws.filterMap t.held ++ ds).foldl OrdMap.erase t.opened }

omit [DecidableEq ω] in
theorem find?_foldl_erase (ds : List δ) (opened : OrdMap δ ω) (d : δ) :
    (ds.foldl OrdMap.erase opened).find? d = if d ∈ ds then none else opened.find? d := by
  induction ds generalizing opened with
  | nil =>
      simp
  | cons d' ds ih =>
      rw [List.foldl_cons, ih, OrdMap.find?_erase]
      by_cases hmem : d ∈ ds
      · simp [hmem]
      · simp [hmem]

theorem opened_release (t : HandleTable ω δ) (ws : List ω) (ds : List δ) (d : δ) :
    (t.release ws ds).opened.find? d =
      if (∃ w ∈ ws, t.held w = some d) ∨ d ∈ ds then none else t.opened.find? d := by
  rw [release, find?_foldl_erase]
  refine if_congr ?_ rfl rfl
  simp [List.mem_filterMap]

/-- Who has released what it holds has an empty slot. -/
theorem held_release_of_mem (t : HandleTable ω δ) {ws : List ω} {w : ω} (h : w ∈ ws) (ds : List δ) :
    (t.release ws ds).held w = none :=
  if_pos h

theorem held_release_of_not_mem (t : HandleTable ω δ) {ws : List ω} {w : ω} (h : w ∉ ws)
    (ds : List δ) : (t.release ws ds).held w = t.held w :=
  if_neg h

omit [DecidableEq ω] in
/-- Two tables with the same slots and the same open handles. -/
theorem ext_find? {t t' : HandleTable ω δ} (hheld : ∀ w, t.held w = t'.held w)
    (hopened : ∀ d, t.opened.find? d = t'.opened.find? d) : t = t' := by
  cases t
  cases t'
  rw [mk.injEq]
  exact ⟨funext hheld, OrdMap.ext_find? hopened⟩

theorem release_release (t : HandleTable ω δ) (ws ws' : List ω) (ds ds' : List δ) :
    (t.release ws ds).release ws' ds' = t.release (ws ++ ws') (ds ++ ds') := by
  refine ext_find? ?_ ?_
  · intro w
    by_cases hw : w ∈ ws <;> by_cases hw' : w ∈ ws' <;> simp [release, hw, hw']
  · intro d
    simp only [opened_release]
    by_cases hd : (∃ w ∈ ws, t.held w = some d) ∨ d ∈ ds
    · rw [if_pos hd, ite_self, if_pos]
      rcases hd with ⟨w, hw, hheld⟩ | hd
      · exact .inl ⟨w, List.mem_append_left _ hw, hheld⟩
      · exact .inr (List.mem_append_left _ hd)
    · -- the owners of the second release hold what they held before the first
      rw [if_neg hd]
      refine if_congr ?_ rfl rfl
      constructor
      · rintro (⟨w, hw, hheld⟩ | hd')
        · by_cases hmem : w ∈ ws
          · rw [held_release_of_mem t hmem] at hheld
            cases hheld
          · rw [held_release_of_not_mem t hmem] at hheld
            exact .inl ⟨w, List.mem_append_right _ hw, hheld⟩
        · exact .inr (List.mem_append_right _ hd')
      · rintro (⟨w, hw, hheld⟩ | hd')
        · have hmem : w ∉ ws := fun hmem => hd (.inl ⟨w, hmem, hheld⟩)
          refine .inl ⟨w, (List.mem_append.1 hw).resolve_left hmem, ?_⟩
          rw [held_release_of_not_mem t hmem, hheld]
        · exact .inr ((List.mem_append.1 hd').resolve_left fun hmem => hd (.inr hmem))

/-- The slots are as good as before exactly if nobody else holds what was closed. -/
theorem sound_release_iff {t : HandleTable ω δ} (h : t.Sound) (ws : List ω) (ds : List δ) :
    (t.release ws ds).Sound ↔ ∀ d ∈ ds, ∀ w, w ∉ ws → t.held w ≠ some d := by
  constructor
  · intro hsound d hd w hw hheld
    have hopen := hsound w d ((held_release_of_not_mem t hw ds).trans hheld)
    rw [opened_release, if_pos (.inr hd)] at hopen
    cases hopen
  · intro hfree w d hheld
    by_cases hw : w ∈ ws
    · rw [held_release_of_mem t hw] at hheld
      cases hheld
    · rw [held_release_of_not_mem t hw] at hheld
      rw [opened_release, if_neg, h w d hheld]
      rintro (⟨w', hw', hheld'⟩ | hd)
      · -- two owners of one handle
        have hopen := h w d hheld
        rw [h w' d hheld'] at hopen
        exact hw (Option.some.inj hopen ▸ hw')
      · exact hfree d hd w hw hheld

theorem not_leaked_release {t : HandleTable ω δ} (h : ¬ t.Leaked) (ws : List ω) (ds : List δ) :
    ¬ (t.release ws ds).Leaked := by
  rintro ⟨d, w, hopen, hheld⟩
  rw [opened_release] at hopen
  split at hopen
  · cases hopen
  · rename_i hnot
    have hsome : t.held w = some d := by
      by_contra hne
      exact h ⟨d, w, hopen, hne⟩
    have hw : w ∉ ws := fun hw => hnot (.inl ⟨w, hw, hsome⟩)
    exact hheld ((held_release_of_not_mem t hw ds).trans hsome)

/-- Nothing is leaked by owners that forget no handle, even where some of them hold what is not
open for them. -/
theorem not_leaked_step {t t' : HandleTable ω δ} {act : HandleAct ω δ} (h : ¬ t.Leaked)
    (hkeeps : t.Keeps act) (hstep : t.step act = some t') : ¬ t'.Leaked := by
  have hheld : ∀ d w, t.opened.find? d = some w → t.held w = some d := by
    intro d w hopen
    by_contra hne
    exact h ⟨d, w, hopen, hne⟩
  cases act with
  | forget w =>
      rw [← Option.some.inj hstep]
      rintro ⟨d, w', hopen, hne⟩
      refine hne ?_
      by_cases hw : w' = w
      · -- the slot was empty, so nothing was open for its owner
        have hsome := hheld d w' hopen
        rw [hw, show t.held w = none from hkeeps] at hsome
        cases hsome
      · exact (hold_forget_ne _ hw).trans (hheld d w' hopen)
  | acquire w d =>
      simp only [step, Option.ite_none_right_eq_some, Option.some.injEq] at hstep
      rcases hstep with ⟨⟨hnone, -⟩, rfl⟩
      rintro ⟨d', w', hopen, hne⟩
      refine hne ?_
      rw [OrdMap.find?_insert] at hopen
      split at hopen
      · rename_i heq
        rw [← Option.some.inj hopen, heq]
        exact hold_acquire_self _ w d
      · have hsome := hheld d' w' hopen
        have hw : w' ≠ w := by
          rintro rfl
          rw [hnone] at hsome
          cases hsome
        exact (hold_acquire_ne _ d hw).trans hsome
  | close w =>
      rw [← Option.some.inj hstep]
      rintro ⟨d, w', hopen, hne⟩
      rcases (closeHeld_iff t).1 hopen with ⟨hopen, hother⟩
      refine hne ?_
      have hsome := hheld d w' hopen
      have hw : w' ≠ w := by
        rintro rfl
        exact hother hsome
      exact (hold_close_ne _ hw).trans hsome

/-! ## Counting -/

/-- One open handle for each owner that holds one, and none for the others. -/
theorem Sound.matched_iff_count {t : HandleTable ω δ} (h : t.Sound) :
    t.Matched ↔ ∀ w, t.opened.values.count w = if t.held w = none then 0 else 1 := by
  constructor
  · intro hmatched w
    cases hheld : t.held w with
    | none =>
        rw [if_pos rfl, List.count_eq_zero]
        intro hmem
        rcases OrdMap.mem_values_iff.1 hmem with ⟨d, hopen⟩
        rw [(hmatched d w).1 hopen] at hheld
        cases hheld
    | some d =>
        -- without the handle that it holds, the owner has none
        have hrest : w ∉ (t.opened.erase d).values := by
          intro hmem
          rcases OrdMap.mem_values_iff.1 hmem with ⟨d', hopen⟩
          rw [OrdMap.find?_erase] at hopen
          split at hopen
          · cases hopen
          · rename_i hne
            rw [(hmatched d' w).1 hopen] at hheld
            exact hne (Option.some.inj hheld)
        rw [if_neg (by simp), (OrdMap.values_perm_of_find? (h w d hheld)).count_eq,
          List.count_cons_self, List.count_eq_zero.2 hrest]
  · intro hcount
    refine h.not_leaked_iff.1 ?_
    rintro ⟨d, w, hopen, hheld⟩
    have hw := hcount w
    cases hheld' : t.held w with
    | none =>
        rw [hheld', if_pos rfl, List.count_eq_zero] at hw
        exact hw (OrdMap.mem_values_iff.2 ⟨d, hopen⟩)
    | some d' =>
        have hne : d ≠ d' := by
          rintro rfl
          exact hheld hheld'
        have hmem : w ∈ (t.opened.erase d').values :=
          OrdMap.mem_values_iff.2 ⟨d, (OrdMap.find?_erase_ne _ hne).trans hopen⟩
        rw [hheld', if_neg (by simp), (OrdMap.values_perm_of_find? (h w d' hheld')).count_eq,
          List.count_cons_self] at hw
        have hpos := List.count_pos_iff.2 hmem
        omega

end HandleTable
