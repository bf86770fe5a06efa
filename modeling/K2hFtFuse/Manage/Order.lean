import K2hFtFuse.Manage.HandOver

/-!
# Manage.Order — the order in which records reach `Processing`

A record leaves its stack in the order in which it was appended, but a popped value is processed in
a later step, and two values of a handle may be in flight at once. `overtaken` is a run in which the
worker holds a value while a caller delivers the next one.

- `logStep_of_step` says what one step can do to the histories;
- `Ordered` is kept by the steps that do not pop a handle while a value of it is in flight;
- `processed_in_order` is the run.
-/

namespace K2hFtFuse

open ByteSeq

namespace Manage

/-! ## What a step does to the histories -/

/-- The handle whose stack a step pops. -/
def pops (s : Manage) : Label → Option UInt64
  | .call c (.next _ _) =>
      match s.phaseOf c with
      | .pop filehandle => some filehandle
      | _ => none
  | .worker _ =>
      match s.worker with
      | .popping filehandle _ => some filehandle
      | _ => none
  | _ => none

inductive LogStep (s : Manage) (l : Label) (s' : Manage) : Prop
  | quiet (hpopped : s'.popped = s.popped) (hprocessed : s'.processed = s.processed)
  | pop (filehandle : UInt64) (value : Value) (hpops : pops s l = some filehandle)
      (hpopped : s'.popped = s.popped ++ [(filehandle, value)])
      (hprocessed : s'.processed = s.processed)
  | process (filehandle : UInt64) (value : Value) (hheld : (filehandle, value) ∈ s.inFlight)
      (hpopped : s'.popped = s.popped)
      (hprocessed : s'.processed = s.processed ++ [(filehandle, value)])

theorem mem_inFlight_of_phaseOf {s : Manage} {c : Nat} {filehandle : UInt64} {value : Value}
    (h : s.phaseOf c = .process filehandle value) : (filehandle, value) ∈ s.inFlight := by
  rcases hfind : s.clients.find? c with _ | p
  · simp [phaseOf, hfind] at h
  · have hp : p = .process filehandle value := by simpa [phaseOf, hfind] using h
    rw [inFlight, OrdMap.collect_of_find? _ hfind, hp]
    simp [heldBy]

theorem mem_inFlight_of_valmap {s : Manage} {filehandle : UInt64} {value : Value}
    (h : s.valmap.find? filehandle = some value) : (filehandle, value) ∈ s.inFlight := by
  rw [inFlight, OrdMap.collect_of_find? (fun (filehandle : UInt64) (value : Value) =>
    ({(filehandle, value)} : Multiset (UInt64 × Value))) h]
  simp

/-- A step that pops: the value is NULL, or it is the last of the history. -/
theorem logStep_popStack {s s' : Manage} {l : Label} {filehandle : UInt64}
    (hpops : pops s l = some filehandle) (hpopped : s'.popped = (s.popStack filehandle).2.popped)
    (hprocessed : s'.processed = (s.popStack filehandle).2.processed) : LogStep s l s' := by
  have hframe := (s.popStack_frame filehandle).2.2.2.1
  rw [popStack_popped] at hpopped
  by_cases hnil : (s.popStack filehandle).1 = []
  · -- nothing was on the stack
    rw [if_pos hnil, List.append_nil] at hpopped
    exact .quiet hpopped (hprocessed.trans hframe)
  · rw [if_neg hnil] at hpopped
    exact .pop filehandle _ hpops hpopped (hprocessed.trans hframe)

theorem logStep_callNext {conf : ManageConf} {env : PushEnv} {now : Int64} {s s' : Manage} {c : Nat}
    (hstep : callNext conf env now s c (s.phaseOf c) = some s') :
    LogStep s (.call c (.next env now)) s' := by
  rcases hphase : s.phaseOf c with _ | ⟨fh, data, pid, isForce⟩ | ⟨fh, blocks, after⟩ | fh | fh | fh |
    ⟨fh, value⟩
  · rw [hphase] at hstep
    cases hstep
  · rw [hphase] at hstep
    simp only [callNext, fillInput, Option.bind_eq_bind, Option.bind_eq_some_iff] at hstep
    rcases hstep with ⟨w, -, r, -, hs⟩
    rw [← Option.some.inj hs]
    exact .quiet rfl rfl
  · rw [hphase] at hstep
    rcases blocks with _ | ⟨⟨pid, block⟩, rest⟩
    · cases after <;>
        (rw [← Option.some.inj hstep]
         exact .quiet rfl rfl)
    · rcases stackBlock_frame conf (env.line 0) s fh pid block with ⟨-, -, -, hpopped, hprocessed⟩
      rw [← Option.some.inj hstep]
      exact .quiet hpopped hprocessed
  · rw [hphase] at hstep
    simp only [callNext] at hstep
    split at hstep <;>
      (rw [← Option.some.inj hstep]
       exact .quiet rfl rfl)
  · rw [hphase] at hstep
    simp only [callNext] at hstep
    split at hstep <;>
      (rw [← Option.some.inj hstep]
       exact .quiet rfl rfl)
  · -- the step of a call that pops
    have hpops : pops s (.call c (.next env now)) = some fh := by simp [pops, hphase]
    rw [hphase] at hstep
    simp only [callNext] at hstep
    split at hstep <;>
      (rw [← Option.some.inj hstep]
       exact logStep_popStack hpops rfl rfl)
  · rw [hphase] at hstep
    rw [← Option.some.inj hstep]
    exact .process fh value (mem_inFlight_of_phaseOf hphase) rfl rfl

theorem logStep_workerStep {conf : ManageConf} {now : Int64} {s s' : Manage}
    (hstep : workerStep conf now s s.worker = some s') : LogStep s (.worker now) s' := by
  rcases hworker : s.worker with _ | rest | ⟨fh, rest⟩ | ⟨fh, rest⟩ | _ | _
  · rw [hworker] at hstep
    rw [← Option.some.inj hstep]
    exact .quiet rfl rfl
  · rw [hworker] at hstep
    rcases rest with _ | ⟨fh, rest⟩
    · rw [← Option.some.inj hstep]
      exact .quiet rfl rfl
    · simp only [workerStep] at hstep
      split at hstep
      · split at hstep <;>
          (rw [← Option.some.inj hstep]
           exact .quiet rfl rfl)
      · rw [← Option.some.inj hstep]
        exact .quiet rfl rfl
  · rw [hworker] at hstep
    simp only [workerStep] at hstep
    split at hstep <;>
      (rw [← Option.some.inj hstep]
       exact .quiet rfl rfl)
  · -- the step of the worker that pops
    have hpops : pops s (.worker now) = some fh := by simp [pops, hworker]
    rw [hworker] at hstep
    simp only [workerStep] at hstep
    split at hstep <;>
      (rw [← Option.some.inj hstep]
       exact logStep_popStack hpops rfl rfl)
  · rw [hworker] at hstep
    rcases hentries : s.valmap.entries with _ | ⟨⟨fh, pValue⟩, tail⟩
    · simp only [workerStep, hentries, Option.some.injEq] at hstep
      rw [← hstep]
      exact .quiet rfl rfl
    · simp only [workerStep, hentries, Option.some.injEq] at hstep
      have hfind : s.valmap.find? fh = some pValue :=
        OrdMap.mem_entries_iff.1 (by simp [hentries])
      rw [← hstep]
      exact .process fh pValue (mem_inFlight_of_valmap hfind) rfl rfl
  · rw [hworker] at hstep
    cases hstep

theorem logStep_of_step {conf : ManageConf} {s s' : Manage} {l : Label}
    (hstep : step conf s l = some s') : LogStep s l s' := by
  cases l with
  | call c e =>
      cases e with
      | push filehandle data pid =>
          simp only [step, callStep] at hstep
          split at hstep
          · rcases hfind : s.wbstackmap.find? filehandle with _ | w <;>
              (rw [hfind] at hstep
               rw [← Option.some.inj hstep]
               exact .quiet rfl rfl)
          · cases hstep
      | close filehandle pid =>
          simp only [step, callStep] at hstep
          split at hstep
          · rcases hfind : s.wbstackmap.find? filehandle with _ | w <;>
              (rw [hfind] at hstep
               rw [← Option.some.inj hstep]
               exact .quiet rfl rfl)
          · cases hstep
      | next env now =>
          exact logStep_callNext hstep
  | worker now =>
      exact logStep_workerStep hstep
  | stopThread =>
      rw [← Option.some.inj hstep]
      exact .quiet rfl rfl

/-! ## One value in flight -/

/-- The step does not pop the handle while a value of it is in flight. -/
def NoOverlap (filehandle : UInt64) (s : Manage) (l : Label) : Prop :=
  pops s l = some filehandle → ∀ held ∈ s.inFlight, held.1 ≠ filehandle

instance instDecidableNoOverlap (filehandle : UInt64) (s : Manage) (l : Label) :
    Decidable (NoOverlap filehandle s l) :=
  inferInstanceAs (Decidable (_ → _))

/-- What was popped is what was processed, in this order, and at most one more value. -/
def Ordered (filehandle : UInt64) (s : Manage) : Prop :=
  ∃ rest : List Value, rest.length ≤ 1 ∧
    forHandle filehandle s.popped = forHandle filehandle s.processed ++ rest

/-- The popped values of a handle are its processed values and those in flight. -/
theorem Flight.forHandle_perm {s : Manage} (h : s.Flight 0) (filehandle : UInt64) :
    ∃ held : List Value,
      (forHandle filehandle s.popped).Perm (forHandle filehandle s.processed ++ held) ∧
      ∀ value, value ∈ held ↔ (filehandle, value) ∈ s.inFlight := by
  -- the values in flight in any order
  rcases Quot.exists_rep s.inFlight with ⟨held, hheld⟩
  have hcoe : (held : Multiset (UInt64 × Value)) = s.inFlight := hheld
  have hflight : (s.popped : Multiset (UInt64 × Value)) = s.processed + s.inFlight + 0 := h
  rw [add_zero, ← hcoe, Multiset.coe_add] at hflight
  refine ⟨forHandle filehandle held, ?_, ?_⟩
  · rw [← forHandle_append]
    exact (Multiset.coe_eq_coe.1 hflight).filterMap _
  · intro value
    rw [mem_forHandle, ← hcoe, Multiset.mem_coe]

/-- With the processed values first, the others are the values in flight. -/
theorem Flight.mem_inFlight_iff {s : Manage} (h : s.Flight 0) {filehandle : UInt64}
    {rest : List Value}
    (hrest : forHandle filehandle s.popped = forHandle filehandle s.processed ++ rest)
    (value : Value) : (filehandle, value) ∈ s.inFlight ↔ value ∈ rest := by
  rcases h.forHandle_perm filehandle with ⟨held, hperm, hmem⟩
  rw [hrest] at hperm
  have hsame : rest.Perm held := (List.perm_append_left_iff _).1 hperm
  rw [hsame.mem_iff, hmem]

theorem ordered_step {filehandle : UInt64} {s s' : Manage} {l : Label} (hflight : s.Flight 0)
    (h : Ordered filehandle s) (hguard : NoOverlap filehandle s l) (hlog : LogStep s l s') :
    Ordered filehandle s' := by
  rcases h with ⟨rest, hlen, hrest⟩
  cases hlog with
  | quiet hpopped hprocessed =>
      exact ⟨rest, hlen, by rw [hpopped, hprocessed, hrest]⟩
  | pop fh value hpops hpopped hprocessed =>
      by_cases hfh : fh = filehandle
      · -- nothing of the handle is in flight, so the new value is the only one
        subst hfh
        have hnone : rest = [] := by
          refine List.eq_nil_iff_forall_not_mem.2 ?_
          intro v hv
          exact hguard hpops _ ((hflight.mem_inFlight_iff hrest v).2 hv) rfl
        refine ⟨[value], le_rfl, ?_⟩
        rw [hpopped, hprocessed, forHandle_append, forHandle_self, hrest, hnone, List.append_nil]
      · refine ⟨rest, hlen, ?_⟩
        rw [hpopped, hprocessed, forHandle_append, forHandle_other hfh, hrest, List.append_nil]
  | process fh value hheld hpopped hprocessed =>
      by_cases hfh : fh = filehandle
      · -- the value in flight is the oldest one
        subst hfh
        have hmem : value ∈ rest := (hflight.mem_inFlight_iff hrest value).1 hheld
        have hone : rest = [value] := by
          rcases rest with _ | ⟨v, _ | ⟨v', rest⟩⟩
          · cases hmem
          · rw [List.mem_singleton.1 hmem]
          · simp at hlen
        refine ⟨[], Nat.zero_le 1, ?_⟩
        rw [hpopped, hprocessed, forHandle_append, forHandle_self, hrest, hone, List.append_nil]
      · refine ⟨rest, hlen, ?_⟩
        rw [hpopped, hprocessed, forHandle_append, forHandle_other hfh, hrest, List.append_nil]

def OrderedInv (filehandle : UInt64) (s : Manage) : Prop :=
  s.Inv False ∧ Ordered filehandle s

/-- The records of a handle reached `Processing` in the order in which they were appended. -/
def InOrder (filehandle : UInt64) (s : Manage) : Prop :=
  (forHandle filehandle s.processed).flatten <+: forHandle filehandle s.appended

theorem History.inOrder {alloc : Prop} {s : Manage} (h : s.History alloc) {filehandle : UInt64}
    (hordered : Ordered filehandle s) : InOrder filehandle s := by
  rcases hordered with ⟨rest, -, hrest⟩
  refine ⟨rest.flatten ++ s.stackOf filehandle, ?_⟩
  calc (forHandle filehandle s.processed).flatten ++ (rest.flatten ++ s.stackOf filehandle)
      = (forHandle filehandle s.popped).flatten ++ s.stackOf filehandle := by
        rw [hrest, List.flatten_append, List.append_assoc]
    _ = forHandle filehandle s.appended := (h.order filehandle).symm

/-- In every run, the records of a handle leave its stack in the order in which they were appended,
and what reaches `Processing` are such values, whole and none twice. In a run that does not pop the
handle while a value of it is in flight, the records also reach `Processing` in this order. -/
theorem processed_in_order (conf : ManageConf) (filehandle : UInt64) (ls : List Label) (s : Manage)
    (hrun : Transition.run (step conf) (start conf) ls = some s) :
    forHandle filehandle s.appended =
        (forHandle filehandle s.popped).flatten ++ s.stackOf filehandle ∧
      (forHandle filehandle s.processed).Subperm (forHandle filehandle s.popped) ∧
      (Transition.Guarded (step conf) (NoOverlap filehandle) (start conf) ls →
        InOrder filehandle s) := by
  have hinv : s.Inv False := inv_run False.elim hrun
  rcases hinv.flight.forHandle_perm filehandle with ⟨held, hperm, -⟩
  refine ⟨hinv.history.order filehandle,
    (List.sublist_append_left _ held).subperm.trans hperm.symm.subperm, ?_⟩
  intro hguard
  have hstart : OrderedInv filehandle (start conf) :=
    ⟨inv_start False conf, [], Nat.zero_le 1, rfl⟩
  have hrunInv : OrderedInv filehandle s := by
    refine Transition.invariant_run_of_guarded ?_ hguard hrun hstart
    intro s l s' h hok hstep
    exact ⟨inv_step h.1 False.elim hstep,
      ordered_step h.1.flight h.2 hok (logStep_of_step hstep)⟩
  exact hinv.history.inOrder hrunInv.2

/-- Two lines of a handle: the worker takes and delivers the first, then the caller the second. -/
def takingTurns : List Label :=
  .call 0 (.push 1 (ascii "a\n") 5) :: List.replicate 3 (.call 0 (.next .zeroed 0)) ++
    List.replicate 5 (.worker 0) ++ List.replicate 2 (.call 0 (.next .zeroed 0)) ++
    .call 0 (.push 1 (ascii "b\n") 5) :: List.replicate 6 (.call 0 (.next .zeroed 0))

theorem processed_in_order_taking_turns :
    ∃ s, Transition.run (step plainConf) (start plainConf) takingTurns = some s ∧
      (forHandle 1 s.processed).flatten.map StackedLine.serial = [0, 1] ∧ InOrder 1 s := by
  have hends : ((Transition.run (step plainConf) (start plainConf) takingTurns).map fun s =>
      (forHandle 1 s.processed).flatten.map StackedLine.serial) = some [0, 1] := by
    decide +kernel
  rcases Option.map_eq_some_iff.1 hends with ⟨s, hrun, hprocessed⟩
  exact ⟨s, hrun, hprocessed,
    (processed_in_order plainConf 1 takingTurns s hrun).2.2 (by decide +kernel)⟩

/-- A line on the stack is popped by the worker, the caller delivers the next line of the same
handle, then the worker delivers what it holds. -/
def overtaking : List Label :=
  .call 0 (.push 1 (ascii "a\n") 5) :: List.replicate 3 (.call 0 (.next .zeroed 0)) ++
    List.replicate 4 (.worker 0) ++ List.replicate 2 (.call 0 (.next .zeroed 0)) ++
    .call 0 (.push 1 (ascii "b\n") 5) :: List.replicate 6 (.call 0 (.next .zeroed 0)) ++
    [.worker 0]

theorem worker_overtaken :
    ∃ s, Transition.run (step plainConf) (start plainConf) overtaking = some s ∧
      (forHandle 1 s.appended).map StackedLine.serial = [0, 1] ∧
      (forHandle 1 s.processed).flatten.map StackedLine.serial = [1, 0] ∧
      ¬ InOrder 1 s := by
  have hends : ((Transition.run (step plainConf) (start plainConf) overtaking).map fun s =>
      ((forHandle 1 s.appended).map StackedLine.serial,
        (forHandle 1 s.processed).flatten.map StackedLine.serial)) = some ([0, 1], [1, 0]) := by
    decide +kernel
  rcases Option.map_eq_some_iff.1 hends with ⟨s, hrun, hs⟩
  rcases Prod.mk.inj hs with ⟨happended, hprocessed⟩
  refine ⟨s, hrun, happended, hprocessed, ?_⟩
  intro hinOrder
  have hprefix := List.IsPrefix.map StackedLine.serial hinOrder
  rw [happended, hprocessed] at hprefix
  exact absurd hprefix (by decide)

end Manage

end K2hFtFuse
