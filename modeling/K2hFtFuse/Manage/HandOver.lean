import Mathlib.Tactic.Abel
import K2hFtFuse.Manage.Concurrent

/-!
# Manage.HandOver — no record is lost or doubled on its way

The histories of a run agree:

- what was appended to the stack of a handle is what was popped from it followed by what is still
  stacked (`History`);
- what was popped is what was processed and what a caller or the worker still holds (`Flight`).

Both hold in every state of a run (`inv_run`).
-/

namespace K2hFtFuse

open ByteSeq

namespace Manage

/-! ## Histories of one handle -/

/-- The part of a history that belongs to a handle. -/
def forHandle {α : Type} (filehandle : UInt64) (log : List (UInt64 × α)) : List α :=
  log.filterMap fun e => if e.1 = filehandle then some e.2 else none

theorem forHandle_append {α : Type} (filehandle : UInt64) (xs ys : List (UInt64 × α)) :
    forHandle filehandle (xs ++ ys) = forHandle filehandle xs ++ forHandle filehandle ys := by
  simp [forHandle]

theorem forHandle_self {α : Type} (filehandle : UInt64) (x : α) :
    forHandle filehandle [(filehandle, x)] = [x] := by
  simp [forHandle]

theorem forHandle_other {α : Type} {filehandle other : UInt64} (h : other ≠ filehandle) (x : α) :
    forHandle filehandle [(other, x)] = [] := by
  simp [forHandle, h]

theorem mem_forHandle {α : Type} {filehandle : UInt64} {x : α} {log : List (UInt64 × α)} :
    x ∈ forHandle filehandle log ↔ (filehandle, x) ∈ log := by
  simp only [forHandle, List.mem_filterMap, Option.ite_none_right_eq_some, Option.some.injEq]
  constructor
  · rintro ⟨⟨fh, y⟩, hmem, rfl, rfl⟩
    exact hmem
  · intro hmem
    exact ⟨(filehandle, x), hmem, rfl, rfl⟩

variable {alloc : Prop}

/-- The stacks are what is left of the appended lines, and the lines are numbered in the order in
which they were appended. The buffers are sound as long as the requests for memory succeed. -/
structure History (alloc : Prop) (s : Manage) : Prop where
  sound : alloc → ∀ filehandle w, s.wbstackmap.find? filehandle = some w → SoundBuffs w.InputBuffMap
  order : ∀ filehandle, forHandle filehandle s.appended =
    (forHandle filehandle s.popped).flatten ++ s.stackOf filehandle
  serials : s.appended.map (fun e => e.2.serial) = List.range s.appended.length

theorem stackOf_of_find? {s : Manage} {filehandle : UInt64} {w : HandleBuff}
    (h : s.wbstackmap.find? filehandle = some w) : s.stackOf filehandle = w.Stack := by
  simp [stackOf, h]

theorem stackOf_setBuff (s : Manage) (filehandle fh : UInt64) (w : HandleBuff) :
    (s.setBuff filehandle w).stackOf fh = if fh = filehandle then w.Stack else s.stackOf fh := by
  unfold stackOf setBuff
  rw [OrdMap.find?_insert]
  split <;> rfl

/-- New buffers with the stack that the handle has. -/
theorem History.setBuff {s : Manage} (h : s.History alloc) {filehandle : UInt64} {w : HandleBuff}
    (hsound : alloc → SoundBuffs w.InputBuffMap) (hstack : w.Stack = s.stackOf filehandle) :
    (s.setBuff filehandle w).History alloc := by
  refine ⟨?_, ?_, h.serials⟩
  · intro hok fh w' hw'
    simp only [Manage.setBuff, OrdMap.find?_insert] at hw'
    split at hw'
    · rw [← Option.some.inj hw']
      exact hsound hok
    · exact h.sound hok fh w' hw'
  · intro fh
    have hsame : (s.setBuff filehandle w).stackOf fh = s.stackOf fh := by
      rw [stackOf_setBuff]
      split
      · rename_i hfh
        rw [hfh, hstack]
      · rfl
    rw [hsame]
    exact h.order fh

/-- A handle whose stack is empty can go. -/
theorem History.dropBuff {s : Manage} (h : s.History alloc) {filehandle : UInt64}
    (hempty : s.stackOf filehandle = []) :
    (s.dropBuff filehandle).History alloc := by
  refine ⟨?_, ?_, h.serials⟩
  · intro hok fh w' hw'
    simp only [Manage.dropBuff, OrdMap.find?_erase] at hw'
    split at hw'
    · simp at hw'
    · exact h.sound hok fh w' hw'
  · intro fh
    have hsame : (s.dropBuff filehandle).stackOf fh = s.stackOf fh := by
      unfold Manage.dropBuff stackOf
      by_cases hfh : fh = filehandle
      · subst hfh
        simpa [stackOf] using hempty.symm
      · simp [OrdMap.find?_erase_ne _ hfh]
    rw [hsame]
    exact h.order fh

theorem History.stackBlock {s : Manage} (h : s.History alloc) (conf : ManageConf) (env : StackEnv)
    (filehandle : UInt64) (pid : Pid) (block : Bytes) :
    (s.stackBlock conf env filehandle pid block).History alloc := by
  unfold Manage.stackBlock
  rcases hfind : s.wbstackmap.find? filehandle with _ | w
  · exact h
  · by_cases hnil : block = []
    · simpa [hnil] using h
    · simp only [if_neg hnil]
      rcases stackLine (conf.sink filehandle) env block pid with _ | pLine
      · exact ⟨h.sound, h.order, h.serials⟩
      · -- the line is the last one of the history and of the stack
        refine ⟨?_, ?_, ?_⟩
        · intro hok fh w' hw'
          simp only [OrdMap.find?_insert] at hw'
          split at hw'
          · rw [← Option.some.inj hw']
            exact h.sound hok filehandle w hfind
          · exact h.sound hok fh w' hw'
        · intro fh
          simp only [forHandle_append, h.order fh, List.append_assoc]
          by_cases hfh : fh = filehandle
          · subst hfh
            simp [stackOf, hfind, forHandle_self]
          · simp [stackOf, OrdMap.find?_insert_ne _ _ hfh, forHandle_other (Ne.symm hfh)]
        · simp [h.serials, List.range_succ]

theorem History.popStack {s : Manage} (h : s.History alloc) (filehandle : UInt64) :
    (s.popStack filehandle).2.History alloc ∧ (s.popStack filehandle).2.stackOf filehandle = [] := by
  unfold Manage.popStack
  rcases hfind : s.wbstackmap.find? filehandle with _ | w
  · exact ⟨h, by simp [stackOf, hfind]⟩
  · by_cases hnil : w.Stack = []
    · simp only [if_pos hnil]
      exact ⟨h, by rw [stackOf_of_find? hfind, hnil]⟩
    · simp only [if_neg hnil]
      refine ⟨⟨?_, ?_, h.serials⟩, by simp [stackOf]⟩
      · intro hok fh w' hw'
        simp only [OrdMap.find?_insert] at hw'
        split at hw'
        · rw [← Option.some.inj hw']
          exact h.sound hok filehandle w hfind
        · exact h.sound hok fh w' hw'
      · intro fh
        -- what leaves the stack is what the pop has
        simp only [forHandle_append, h.order fh]
        by_cases hfh : fh = filehandle
        · subst hfh
          simp [stackOf, hfind, forHandle_self]
        · simp [stackOf, OrdMap.find?_insert_ne _ _ hfh, forHandle_other (Ne.symm hfh)]

/-! ## What the shared steps leave alone -/

section Frame

variable (conf : ManageConf) (env : StackEnv) (s : Manage) (filehandle : UInt64)

theorem stackBlock_frame (pid : Pid) (block : Bytes) :
    (s.stackBlock conf env filehandle pid block).clients = s.clients ∧
      (s.stackBlock conf env filehandle pid block).worker = s.worker ∧
      (s.stackBlock conf env filehandle pid block).valmap = s.valmap ∧
      (s.stackBlock conf env filehandle pid block).popped = s.popped ∧
      (s.stackBlock conf env filehandle pid block).processed = s.processed := by
  unfold stackBlock
  rcases s.wbstackmap.find? filehandle with _ | w
  · simp
  · by_cases hnil : block = []
    · simp [hnil]
    · rcases stackLine (conf.sink filehandle) env block pid with _ | pLine <;> simp [hnil]

theorem popStack_frame :
    (s.popStack filehandle).2.clients = s.clients ∧
      (s.popStack filehandle).2.worker = s.worker ∧
      (s.popStack filehandle).2.valmap = s.valmap ∧
      (s.popStack filehandle).2.processed = s.processed ∧
      (s.popStack filehandle).2.offered = s.offered ∧
      (s.popStack filehandle).2.appended = s.appended := by
  unfold popStack
  rcases s.wbstackmap.find? filehandle with _ | w
  · simp
  · by_cases hnil : w.Stack = [] <;> simp [hnil]

/-- The history of pops grows by the value, unless it is NULL. -/
theorem popStack_popped :
    (s.popStack filehandle).2.popped = s.popped ++
      if (s.popStack filehandle).1 = [] then [] else [(filehandle, (s.popStack filehandle).1)] := by
  unfold popStack
  rcases s.wbstackmap.find? filehandle with _ | w
  · simp
  · by_cases hnil : w.Stack = [] <;> simp [hnil]

end Frame

/-! ## Values in flight -/

/-- The value that a call holds. -/
def heldBy : Phase → Multiset (UInt64 × Value)
  | .process filehandle value => {(filehandle, value)}
  | _ => 0

/-- The popped values that are not processed yet. -/
def inFlight (s : Manage) : Multiset (UInt64 × Value) :=
  s.clients.collect (fun _ p => heldBy p) +
    s.valmap.collect fun filehandle value => {(filehandle, value)}

/-- Every popped value is processed, in flight, or among those just taken. -/
def Flight (s : Manage) (taken : Multiset (UInt64 × Value)) : Prop :=
  (s.popped : Multiset (UInt64 × Value)) = s.processed + s.inFlight + taken

theorem inFlight_setPhase (s : Manage) (c : Nat) (p : Phase) :
    (s.setPhase c p).inFlight + heldBy (s.phaseOf c) = heldBy p + s.inFlight := by
  rcases hfind : s.clients.find? c with _ | old
  · have hphase : s.phaseOf c = .idle := by simp [phaseOf, hfind]
    have hcollect := OrdMap.collect_insert_of_none (fun _ p => heldBy p) hfind p
    have hidle : heldBy .idle = 0 := rfl
    rw [hphase, hidle, inFlight, inFlight, setPhase, hcollect]
    abel
  · have hphase : s.phaseOf c = old := by simp [phaseOf, hfind]
    -- the phase that was there gives way to the new one
    have hcollect := OrdMap.collect_insert_of_find? (fun _ p => heldBy p) hfind p
    rw [hphase]
    calc (s.setPhase c p).inFlight + heldBy old
        = ((s.clients.insert c p).collect (fun _ p => heldBy p) + heldBy old) +
            s.valmap.collect fun filehandle value => {(filehandle, value)} := by
          simp only [inFlight, setPhase]
          abel
      _ = heldBy p + s.inFlight := by
          rw [hcollect, inFlight]
          abel

/-- A call that takes or gives up a value. -/
theorem Flight.setPhase {s : Manage} {taken taken' : Multiset (UInt64 × Value)}
    (h : s.Flight taken) (c : Nat) {p : Phase}
    (hheld : taken + heldBy (s.phaseOf c) = heldBy p + taken') : (s.setPhase c p).Flight taken' := by
  have hphase := inFlight_setPhase s c p
  refine add_right_cancel (b := heldBy (s.phaseOf c)) ?_
  calc (s.popped : Multiset (UInt64 × Value)) + heldBy (s.phaseOf c)
      = s.processed + s.inFlight + (taken + heldBy (s.phaseOf c)) := by
        rw [show (s.popped : Multiset (UInt64 × Value)) = s.processed + s.inFlight + taken from h]
        abel
    _ = s.processed + (heldBy p + s.inFlight) + taken' := by
        rw [hheld]
        abel
    _ = s.processed + (s.setPhase c p).inFlight + taken' + heldBy (s.phaseOf c) := by
        rw [← hphase]
        abel

/-- A phase that holds nothing replaces another one. -/
theorem Flight.setPhase_free {s : Manage} {taken : Multiset (UInt64 × Value)} (h : s.Flight taken)
    (c : Nat) {p : Phase} (hold : heldBy (s.phaseOf c) = 0) (hnew : heldBy p = 0) :
    (s.setPhase c p).Flight taken := by
  refine h.setPhase c ?_
  rw [hold, hnew, add_comm]

/-- What the buffers of a handle hold is not in flight. -/
theorem Flight.setBuff {s : Manage} {taken : Multiset (UInt64 × Value)} (h : s.Flight taken)
    (filehandle : UInt64) (w : HandleBuff) : (s.setBuff filehandle w).Flight taken := h

theorem Flight.process {s : Manage} {filehandle : UInt64} {value : Value}
    (h : s.Flight {(filehandle, value)}) : (s.process filehandle value).Flight 0 := by
  have hsame : (s.process filehandle value).inFlight = s.inFlight := rfl
  calc ((s.process filehandle value).popped : Multiset (UInt64 × Value))
      = s.processed + s.inFlight + {(filehandle, value)} := h
    _ = (s.process filehandle value).processed + (s.process filehandle value).inFlight + 0 := by
        rw [hsame, Manage.process]
        simp only [← Multiset.coe_add, Multiset.coe_singleton]
        abel

/-- What a pop takes. -/
def takenBy (filehandle : UInt64) (value : Value) : Multiset (UInt64 × Value) :=
  if value = [] then 0 else {(filehandle, value)}

theorem Flight.popStack {s : Manage} (h : s.Flight 0) (filehandle : UInt64) :
    (s.popStack filehandle).2.Flight (takenBy filehandle (s.popStack filehandle).1) := by
  rcases s.popStack_frame filehandle with ⟨hclients, -, hvalmap, hprocessed, -, -⟩
  have hsame : (s.popStack filehandle).2.inFlight = s.inFlight := by
    rw [inFlight, hclients, hvalmap, inFlight]
  unfold Flight at h ⊢
  rw [popStack_popped, hprocessed, hsame, ← Multiset.coe_add, h, takenBy]
  split <;> simp

/-! ## The worker's map -/

/-- The worker's map is empty between its walks, and holds no handle that the walk still reaches. -/
def WorkerInv (s : Manage) : Prop :=
  match s.worker with
  | .sleeping => s.valmap = ∅
  | .exited => s.valmap = ∅
  | .scanning rest => rest.Nodup ∧ ∀ fh ∈ rest, s.valmap.find? fh = none
  | .rechecking filehandle rest =>
      (filehandle :: rest).Nodup ∧ ∀ fh ∈ filehandle :: rest, s.valmap.find? fh = none
  | .popping filehandle rest =>
      (filehandle :: rest).Nodup ∧ ∀ fh ∈ filehandle :: rest, s.valmap.find? fh = none
  | .delivering => True

theorem WorkerInv.of_frame {s s' : Manage} (h : s.WorkerInv) (hworker : s'.worker = s.worker)
    (hvalmap : s'.valmap = s.valmap) : s'.WorkerInv := by
  unfold WorkerInv at h ⊢
  rw [hworker, hvalmap]
  exact h

/-! ## Steps -/

/-- What holds of every state of a run. -/
structure Inv (alloc : Prop) (s : Manage) : Prop where
  history : s.History alloc
  flight : s.Flight 0
  worker : s.WorkerInv

/-- The parts of `Inv` that do not look at clients. -/
theorem History.setPhase {s : Manage} (h : s.History alloc) (c : Nat) (p : Phase) :
    (s.setPhase c p).History alloc := ⟨h.sound, h.order, h.serials⟩

theorem Inv.setPhase_free {s : Manage} (h : s.Inv alloc) (c : Nat) {p : Phase}
    (hold : heldBy (s.phaseOf c) = 0) (hnew : heldBy p = 0) : (s.setPhase c p).Inv alloc :=
  ⟨h.history.setPhase c p, h.flight.setPhase_free c hold hnew, h.worker⟩

theorem inv_fillInput {conf : ManageConf} {env : PushEnv} (henv : alloc → env.AllocOk) {s s' : Manage}
    (h : s.Inv alloc) {c : Nat} {filehandle : UInt64} {data : Bytes} {pid : Pid} {isForce : Bool}
    (hphase : s.phaseOf c = .input filehandle data pid isForce)
    (hstep : fillInput conf env s c filehandle data pid isForce = some s') : s'.Inv alloc := by
  unfold fillInput at hstep
  rcases hfind : s.wbstackmap.find? filehandle with _ | w
  · simp [hfind] at hstep
  · rcases hpush : pushBlocks conf.limits conf.IsBinaryMode env w.InputBuffMap data pid with
      _ | ⟨result, bufs, blocks⟩
    · simp [hfind, hpush] at hstep
    · simp only [hfind, hpush, Option.bind_eq_bind, Option.bind_some, pure,
        Option.some.injEq] at hstep
      -- the stack stays, and the buffers are sound when memory is given
      have hbufs : alloc → SoundBuffs bufs := fun hok =>
        pushBlocks_sound (henv hok) (h.history.sound hok filehandle w hfind) hpush
      rw [← hstep]
      have hheld : heldBy (s.phaseOf c) = 0 := by rw [hphase]; rfl
      have hstack : ({ w with InputBuffMap := bufs } : HandleBuff).Stack = s.stackOf filehandle :=
        (stackOf_of_find? hfind).symm
      exact ⟨(h.history.setBuff hbufs hstack).setPhase c _,
        (h.flight.setBuff _ _).setPhase_free c hheld rfl, h.worker⟩

theorem inv_stackBlock {s : Manage} (h : s.Inv alloc) (conf : ManageConf) (env : StackEnv)
    (filehandle : UInt64) (pid : Pid) (block : Bytes) :
    (s.stackBlock conf env filehandle pid block).Inv alloc := by
  rcases stackBlock_frame conf env s filehandle pid block with
    ⟨hclients, hworker, hvalmap, hpopped, hprocessed⟩
  refine ⟨h.history.stackBlock conf env filehandle pid block, ?_, h.worker.of_frame hworker hvalmap⟩
  unfold Flight inFlight
  rw [hpopped, hprocessed, hclients, hvalmap]
  exact h.flight

theorem inv_callNext {conf : ManageConf} {env : PushEnv} (henv : alloc → env.AllocOk) {now : Int64}
    {s s' : Manage} (h : s.Inv alloc) {c : Nat}
    (hstep : callNext conf env now s c (s.phaseOf c) = some s') : s'.Inv alloc := by
  rcases hphase : s.phaseOf c with _ | ⟨fh, data, pid, isForce⟩ | ⟨fh, blocks, after⟩ | fh | fh | fh |
    ⟨fh, value⟩
  · rw [hphase] at hstep
    simp [callNext] at hstep
  · rw [hphase] at hstep
    exact inv_fillInput henv h hphase hstep
  · rw [hphase] at hstep
    have hheld : heldBy (s.phaseOf c) = 0 := by rw [hphase]; rfl
    rcases blocks with _ | ⟨⟨pid, block⟩, rest⟩
    · cases after <;>
        (simp only [callNext, Option.some.injEq] at hstep
         rw [← hstep]
         exact h.setPhase_free c hheld rfl)
    · simp only [callNext, Option.some.injEq] at hstep
      rw [← hstep]
      have hblock := inv_stackBlock h conf (env.line 0) fh pid block
      refine hblock.setPhase_free c ?_ rfl
      rw [phaseOf, (stackBlock_frame conf (env.line 0) s fh pid block).1]
      exact hheld
  · rw [hphase] at hstep
    have hheld : heldBy (s.phaseOf c) = 0 := by rw [hphase]; rfl
    simp only [callNext] at hstep
    split at hstep <;>
      (simp only [Option.some.injEq] at hstep
       rw [← hstep]
       exact h.setPhase_free c hheld rfl)
  · rw [hphase] at hstep
    have hheld : heldBy (s.phaseOf c) = 0 := by rw [hphase]; rfl
    simp only [callNext] at hstep
    split at hstep <;>
      (simp only [Option.some.injEq] at hstep
       rw [← hstep]
       exact h.setPhase_free c hheld rfl)
  · -- the caller now holds the popped value
    rw [hphase] at hstep
    rcases s.popStack_frame fh with ⟨hclients, hworker, hvalmap, -, -, -⟩
    have hheld : heldBy ((s.popStack fh).2.phaseOf c) = 0 := by
      rw [phaseOf, hclients]
      exact (congrArg heldBy hphase).trans rfl
    have hflight := h.flight.popStack fh
    have hworker' := h.worker.of_frame hworker hvalmap
    simp only [callNext] at hstep
    split at hstep
    · rename_i hnil
      simp only [Option.some.injEq] at hstep
      rw [takenBy, if_pos hnil] at hflight
      rw [← hstep]
      exact ⟨(h.history.popStack fh).1.setPhase c _, hflight.setPhase_free c hheld rfl, hworker'⟩
    · rename_i hne
      simp only [Option.some.injEq] at hstep
      rw [takenBy, if_neg hne] at hflight
      rw [← hstep]
      refine ⟨(h.history.popStack fh).1.setPhase c _, hflight.setPhase c ?_, hworker'⟩
      rw [hheld, add_zero, add_zero]
      rfl
  · -- the value that the caller holds goes to `Processing`
    rw [hphase] at hstep
    simp only [callNext, Option.some.injEq] at hstep
    have htaken : (s.setPhase c .idle).Flight {(fh, value)} := by
      refine h.flight.setPhase c ?_
      rw [hphase, zero_add]
      exact (zero_add _).symm
    rw [← hstep]
    exact ⟨⟨h.history.sound, h.history.order, h.history.serials⟩, htaken.process, h.worker⟩

theorem inv_callStep {conf : ManageConf} {s s' : Manage} (h : s.Inv alloc) {c : Nat} {e : CallEvent}
    (hok : alloc → (Label.call c e).AllocOk) (hstep : callStep conf s c e = some s') : s'.Inv alloc := by
  cases e with
  | push filehandle data pid =>
      simp only [callStep] at hstep
      split at hstep
      · rename_i hidle
        have hheld : heldBy (s.phaseOf c) = 0 := by rw [hidle.1]; rfl
        rcases hfind : s.wbstackmap.find? filehandle with _ | w
        · rw [hfind] at hstep
          rw [← Option.some.inj hstep]
          have hstack : HandleBuff.fresh.Stack = s.stackOf filehandle := by
            simp [stackOf, hfind, HandleBuff.fresh]
          exact ⟨(h.history.setBuff (fun _ => soundBuffs_empty) hstack).setPhase c _,
            (h.flight.setBuff _ _).setPhase_free c hheld rfl, h.worker⟩
        · rw [hfind] at hstep
          rw [← Option.some.inj hstep]
          exact h.setPhase_free c hheld rfl
      · cases hstep
  | close filehandle pid =>
      simp only [callStep] at hstep
      split at hstep
      · rename_i hidle
        have hheld : heldBy (s.phaseOf c) = 0 := by rw [hidle.1]; rfl
        rcases hfind : s.wbstackmap.find? filehandle with _ | w
        · rw [hfind] at hstep
          rw [← Option.some.inj hstep]
          exact h
        · rw [hfind] at hstep
          rw [← Option.some.inj hstep]
          exact h.setPhase_free c hheld rfl
      · cases hstep
  | next env now =>
      exact inv_callNext hok h hstep

theorem inv_workerStep {conf : ManageConf} {now : Int64} {s s' : Manage} (h : s.Inv alloc)
    (hstep : workerStep conf now s s.worker = some s') : s'.Inv alloc := by
  have hhist := h.history
  have hflight := h.flight
  have hinv := h.worker
  rcases hworker : s.worker with _ | rest | ⟨fh, rest⟩ | ⟨fh, rest⟩ | _ | _
  · -- the walk begins with all handles and an empty map
    rw [hworker] at hstep
    simp only [workerStep, Option.some.injEq] at hstep
    simp only [WorkerInv, hworker] at hinv
    rw [← hstep]
    refine ⟨⟨hhist.sound, hhist.order, hhist.serials⟩, hflight, ?_⟩
    rcases s.run_thread with _ | _
    · exact hinv
    · refine ⟨s.wbstackmap.nodup_keys, ?_⟩
      intro fh _
      simp [hinv]
  · rw [hworker] at hstep
    simp only [WorkerInv, hworker] at hinv
    rcases rest with _ | ⟨fh, rest⟩
    · simp only [workerStep, Option.some.injEq] at hstep
      rw [← hstep]
      exact ⟨⟨hhist.sound, hhist.order, hhist.serials⟩, hflight, trivial⟩
    · simp only [workerStep] at hstep
      split at hstep
      · split at hstep <;>
          (simp only [Option.some.injEq] at hstep
           rw [← hstep]
           exact ⟨⟨hhist.sound, hhist.order, hhist.serials⟩, hflight, hinv⟩)
      · simp only [Option.some.injEq] at hstep
        rw [← hstep]
        exact ⟨⟨hhist.sound, hhist.order, hhist.serials⟩, hflight, trivial⟩
  · rw [hworker] at hstep
    simp only [WorkerInv, hworker] at hinv
    simp only [workerStep] at hstep
    split at hstep
    · simp only [Option.some.injEq] at hstep
      rw [← hstep]
      exact ⟨⟨hhist.sound, hhist.order, hhist.serials⟩, hflight, hinv⟩
    · simp only [Option.some.injEq] at hstep
      rw [← hstep]
      refine ⟨⟨hhist.sound, hhist.order, hhist.serials⟩, hflight, ?_⟩
      exact ⟨(List.nodup_cons.1 hinv.1).2, fun h hh => hinv.2 h (by simp [hh])⟩
  · -- the popped value enters the map under a handle that is not in it
    rw [hworker] at hstep
    simp only [WorkerInv, hworker] at hinv
    rcases s.popStack_frame fh with ⟨-, -, hvalmap, -, -, -⟩
    have htaken := hflight.popStack fh
    have hrest : rest.Nodup ∧ ∀ h ∈ rest, (s.popStack fh).2.valmap.find? h = none := by
      rw [hvalmap]
      exact ⟨(List.nodup_cons.1 hinv.1).2, fun h hh => hinv.2 h (by simp [hh])⟩
    have hhist' := (hhist.popStack fh).1
    simp only [workerStep] at hstep
    split at hstep
    · rename_i hnil
      simp only [Option.some.injEq] at hstep
      rw [takenBy, if_pos hnil] at htaken
      rw [← hstep]
      exact ⟨⟨hhist'.sound, hhist'.order, hhist'.serials⟩, htaken, hrest⟩
    · rename_i hne
      simp only [Option.some.injEq] at hstep
      rw [takenBy, if_neg hne] at htaken
      rw [← hstep]
      -- the handle is not in the map yet, so no value is lost
      have hfree : (s.popStack fh).2.valmap.find? fh = none := by
        rw [hvalmap]
        exact hinv.2 fh (by simp)
      have hnotin : fh ∉ rest := (List.nodup_cons.1 hinv.1).1
      refine ⟨⟨hhist'.sound, hhist'.order, hhist'.serials⟩, ?_, hrest.1, ?_⟩
      · unfold Flight inFlight at htaken ⊢
        simp only [OrdMap.collect_insert_of_none _ hfree] at htaken ⊢
        rw [htaken]
        abel
      · intro h hh
        have hne' : h ≠ fh := fun heq => hnotin (heq ▸ hh)
        simp only [OrdMap.find?_insert_ne _ _ hne']
        exact hrest.2 h hh
  · rw [hworker] at hstep
    rcases hentries : s.valmap.entries with _ | ⟨⟨fh, pValue⟩, tail⟩
    · simp only [workerStep, hentries, Option.some.injEq] at hstep
      have hempty := OrdMap.eq_empty_of_entries hentries
      rw [← hstep]
      refine ⟨⟨hhist.sound, hhist.order, hhist.serials⟩, hflight, ?_⟩
      rcases s.run_thread with _ | _ <;> exact hempty
    · simp only [workerStep, hentries, Option.some.injEq] at hstep
      have hfind : s.valmap.find? fh = some pValue :=
        OrdMap.mem_entries_iff.1 (by simp [hentries])
      rw [← hstep]
      refine ⟨⟨hhist.sound, hhist.order, hhist.serials⟩, ?_, ?_⟩
      · -- the value leaves the map and is processed
        have hcollect := OrdMap.collect_of_find?
          (fun (filehandle : UInt64) (value : Value) =>
            ({(filehandle, value)} : Multiset (UInt64 × Value))) hfind
        unfold Flight inFlight at hflight ⊢
        rw [hcollect] at hflight
        calc ((s.process fh pValue).popped : Multiset (UInt64 × Value))
            = s.processed + (s.clients.collect (fun _ p => heldBy p) +
                ({(fh, pValue)} + (s.valmap.erase fh).collect fun filehandle value =>
                  {(filehandle, value)})) + 0 := hflight
          _ = _ := by
            simp only [Manage.process, ← Multiset.coe_add, Multiset.coe_singleton]
            abel
      · simp [WorkerInv, hworker, Manage.process]
  · rw [hworker] at hstep
    simp [workerStep] at hstep

theorem inv_step {conf : ManageConf} {s s' : Manage} {l : Label} (h : s.Inv alloc)
    (hok : alloc → l.AllocOk) (hstep : step conf s l = some s') : s'.Inv alloc := by
  cases l with
  | call c e =>
      exact inv_callStep h hok hstep
  | worker now =>
      exact inv_workerStep h hstep
  | stopThread =>
      simp only [step, Option.some.injEq] at hstep
      rw [← hstep]
      exact ⟨⟨h.history.sound, h.history.order, h.history.serials⟩, h.flight, h.worker⟩

theorem inv_start (alloc : Prop) (conf : ManageConf) : (start conf).Inv alloc := by
  refine ⟨⟨?_, ?_, rfl⟩, rfl, ?_⟩
  · intro _ fh w h
    simp [start] at h
  · intro fh
    rfl
  · have hworker : (start conf).worker = .sleeping ∨ (start conf).worker = .exited := by
      simp only [start]
      split <;> simp
    unfold WorkerInv
    rcases hworker with hworker | hworker <;> rw [hworker] <;> rfl

/-- Every state of a run. -/
theorem inv_run {conf : ManageConf} {ls : List Label} {s : Manage}
    (halloc : alloc → ∀ l ∈ ls, l.AllocOk)
    (hrun : Transition.run (step conf) (start conf) ls = some s) : s.Inv alloc := by
  have hlabels : ∀ l ∈ ls, alloc → l.AllocOk := fun l hl hok => halloc hok l hl
  have hguard := Transition.guarded_of_forall_mem (step conf) (start conf) hlabels
  refine Transition.invariant_run_of_guarded ?_ hguard hrun (inv_start alloc conf)
  intro s l s' hinv hok hstep
  exact inv_step hinv hok hstep

end Manage

end K2hFtFuse
