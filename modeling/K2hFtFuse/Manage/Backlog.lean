import K2hFtFuse.Manage.HandOver

/-!
# Manage.Backlog — how much stays stacked when nobody is at work

A call that stacks records looks at the stack once more before it returns, and returns only when it
saw at most `StackLineMax` records or popped them all. So a longer stack means that some call is
still on its way to that look (`Watched`), and when no call is in flight no stack is longer. A `Close`
that runs alone pops at its end what its own forced push left behind.
-/

namespace K2hFtFuse

open ByteSeq K2hFtBinBuff

/-- The call will look at the stack of the handle before it returns. -/
def Phase.watches (filehandle : UInt64) : Phase → Prop
  | .stacking fh _ after => fh = filehandle ∧ after ≠ .finish
  | .check fh => fh = filehandle
  | .recheck fh => fh = filehandle
  | .pop fh => fh = filehandle
  | _ => False

/-- A push that failed returns without a look. -/
def Phase.gaveUp : Phase → Prop
  | .stacking _ _ after => after = .finish
  | _ => False

namespace Manage

/-! ## Requests -/

/-- A step of a caller, `Flush` included. -/
inductive Request
  | push (filehandle : UInt64) (data : Bytes) (pid : Pid)
  | flush (filehandle : UInt64) (pid : Pid)
  | close (filehandle : UInt64) (pid : Pid)
  | next (env : PushEnv) (now : Int64)

/-- `Flush` does the work of `Close` in binary mode, and none in text mode. -/
def requestStep (conf : ManageConf) (s : Manage) (c : Nat) : Request → Option Manage
  | .push filehandle data pid => callStep conf s c (.push filehandle data pid)
  | .flush filehandle pid =>
      if conf.IsBinaryMode then callStep conf s c (.close filehandle pid)
      else if s.phaseOf c = .idle then some s
      else none
  | .close filehandle pid => callStep conf s c (.close filehandle pid)
  | .next env now => callStep conf s c (.next env now)

inductive SystemLabel
  | request (c : Nat) (r : Request)
  | worker (now : Int64)
  | stopThread

def systemStep (conf : ManageConf) (s : Manage) : SystemLabel → Option Manage
  | .request c r => requestStep conf s c r
  | .worker now => step conf s (.worker now)
  | .stopThread => step conf s .stopThread

/-- The requests for memory in the step succeed. -/
def SystemLabel.AllocOk : SystemLabel → Prop
  | .request _ (.next env _) => env.AllocOk
  | _ => True

/-- A step of the system is one of `step`, or it changes nothing. -/
theorem systemStep_cases {conf : ManageConf} {s s' : Manage} {l : SystemLabel}
    (h : systemStep conf s l = some s') :
    s' = s ∨ ∃ l' : Label, (l.AllocOk → l'.AllocOk) ∧ step conf s l' = some s' := by
  cases l with
  | request c r =>
      cases r with
      | push filehandle data pid =>
          exact Or.inr ⟨.call c (.push filehandle data pid), fun _ => trivial, h⟩
      | flush filehandle pid =>
          simp only [systemStep, requestStep] at h
          split at h
          · exact Or.inr ⟨.call c (.close filehandle pid), fun _ => trivial, h⟩
          · split at h
            · exact Or.inl (Option.some.inj h).symm
            · cases h
      | close filehandle pid =>
          exact Or.inr ⟨.call c (.close filehandle pid), fun _ => trivial, h⟩
      | next env now =>
          exact Or.inr ⟨.call c (.next env now), fun hok => hok, h⟩
  | worker now =>
      exact Or.inr ⟨.worker now, fun _ => trivial, h⟩
  | stopThread =>
      exact Or.inr ⟨.stopThread, fun _ => trivial, h⟩

/-! ## What the shared steps do to stacks and input buffers -/

def inputsOf (s : Manage) (filehandle : UInt64) : OrdMap Pid K2hFtBinBuff :=
  ((s.wbstackmap.find? filehandle).map HandleBuff.InputBuffMap).getD ∅

section Shared

variable (s : Manage)

theorem phaseOf_setPhase (c c' : Nat) (p : Phase) :
    (s.setPhase c p).phaseOf c' = if c' = c then p else s.phaseOf c' := by
  unfold phaseOf setPhase
  rw [OrdMap.find?_insert]
  split <;> rfl

theorem stackOf_setPhase (c : Nat) (p : Phase) (filehandle : UInt64) :
    (s.setPhase c p).stackOf filehandle = s.stackOf filehandle := rfl

theorem inputsOf_setPhase (c : Nat) (p : Phase) (filehandle : UInt64) :
    (s.setPhase c p).inputsOf filehandle = s.inputsOf filehandle := rfl

theorem stackOf_popStack (filehandle fh : UInt64) :
    (s.popStack filehandle).2.stackOf fh = if fh = filehandle then [] else s.stackOf fh := by
  unfold popStack
  rcases hfind : s.wbstackmap.find? filehandle with _ | w
  · by_cases hfh : fh = filehandle
    · simp [stackOf, hfh, hfind]
    · simp [hfh]
  · by_cases hnil : w.Stack = []
    · by_cases hfh : fh = filehandle
      · simp [hnil, stackOf, hfh, hfind]
      · simp [hnil, hfh]
    · by_cases hfh : fh = filehandle
      · simp [hnil, stackOf, hfh]
      · simp [hnil, stackOf, hfh, OrdMap.find?_insert_ne]

theorem inputsOf_popStack (filehandle fh : UInt64) :
    (s.popStack filehandle).2.inputsOf fh = s.inputsOf fh := by
  unfold popStack
  rcases hfind : s.wbstackmap.find? filehandle with _ | w
  · rfl
  · by_cases hnil : w.Stack = []
    · simp [hnil]
    · by_cases hfh : fh = filehandle
      · simp [hnil, inputsOf, hfh, hfind]
      · simp [hnil, inputsOf, OrdMap.find?_insert_ne _ _ hfh]

theorem stackOf_stackBlock_ne (conf : ManageConf) (env : StackEnv) {filehandle fh : UInt64}
    (hfh : fh ≠ filehandle) (pid : Pid) (block : Bytes) :
    (s.stackBlock conf env filehandle pid block).stackOf fh = s.stackOf fh := by
  unfold stackBlock
  rcases s.wbstackmap.find? filehandle with _ | w
  · rfl
  · by_cases hnil : block = []
    · simp [hnil]
    · rcases stackLine (conf.sink filehandle) env block pid with _ | pLine
      · simp [hnil, stackOf]
      · simp [hnil, stackOf, OrdMap.find?_insert_ne _ _ hfh]

theorem inputsOf_stackBlock (conf : ManageConf) (env : StackEnv) (filehandle fh : UInt64) (pid : Pid)
    (block : Bytes) :
    (s.stackBlock conf env filehandle pid block).inputsOf fh = s.inputsOf fh := by
  unfold stackBlock
  rcases hfind : s.wbstackmap.find? filehandle with _ | w
  · rfl
  · by_cases hnil : block = []
    · simp [hnil]
    · rcases stackLine (conf.sink filehandle) env block pid with _ | pLine
      · simp [hnil, inputsOf]
      · by_cases hfh : fh = filehandle
        · simp [hnil, inputsOf, hfh, hfind]
        · simp [hnil, inputsOf, OrdMap.find?_insert_ne _ _ hfh]

theorem phaseOf_popStack (filehandle : UInt64) (c : Nat) :
    (s.popStack filehandle).2.phaseOf c = s.phaseOf c := by
  rw [phaseOf, (s.popStack_frame filehandle).1, phaseOf]

theorem phaseOf_stackBlock (conf : ManageConf) (env : StackEnv) (filehandle : UInt64) (pid : Pid)
    (block : Bytes) (c : Nat) :
    (s.stackBlock conf env filehandle pid block).phaseOf c = s.phaseOf c := by
  rw [phaseOf, (stackBlock_frame conf env s filehandle pid block).1, phaseOf]

end Shared

/-! ## Who still looks at a stack -/

/-- A stack over the limit is watched by some call. -/
def Watched (conf : ManageConf) (s : Manage) (filehandle : UInt64) : Prop :=
  (s.stackOf filehandle).length ≤ conf.limits.StackLineMax ∨
    ∃ c, (s.phaseOf c).watches filehandle

structure Backlog (conf : ManageConf) (s : Manage) : Prop where
  watched : ∀ filehandle, Watched conf s filehandle
  noGiveUp : ∀ c, ¬ (s.phaseOf c).gaveUp

theorem backlog_start (conf : ManageConf) : Backlog conf (start conf) := by
  refine ⟨fun fh => Or.inl ?_, fun c hc => ?_⟩
  · simp [start, stackOf]
  · simp [start, phaseOf, Phase.gaveUp] at hc

/-- A caller goes on. What it watched it still watches, or the stack is short enough; the stacks of
handles that the new phase does not watch did not grow. -/
theorem Backlog.move {conf : ManageConf} {s s' : Manage} (h : Backlog conf s) (c : Nat) {p : Phase}
    (hphase : ∀ c', s'.phaseOf c' = if c' = c then p else s.phaseOf c') (hp : ¬ p.gaveUp)
    (hstack : ∀ fh, p.watches fh ∨ (s'.stackOf fh).length ≤ conf.limits.StackLineMax ∨
      ((s'.stackOf fh).length ≤ (s.stackOf fh).length ∧ ¬ (s.phaseOf c).watches fh)) :
    Backlog conf s' := by
  constructor
  · intro fh
    rcases hstack fh with hw | hshort | ⟨hle, hnot⟩
    · exact Or.inr ⟨c, by simpa [hphase] using hw⟩
    · exact Or.inl hshort
    · rcases h.watched fh with hlen | ⟨c', hc'⟩
      · exact Or.inl (hle.trans hlen)
      · -- the watcher is another caller, and it did not move
        have hne : c' ≠ c := by
          rintro rfl
          exact hnot hc'
        exact Or.inr ⟨c', by simpa [hphase, hne] using hc'⟩
  · intro c'
    rw [hphase]
    split
    · exact hp
    · exact h.noGiveUp c'

/-- Nobody moves and no stack grows. -/
theorem Backlog.shrink {conf : ManageConf} {s s' : Manage} (h : Backlog conf s)
    (hphase : ∀ c, s'.phaseOf c = s.phaseOf c)
    (hstack : ∀ fh, (s'.stackOf fh).length ≤ (s.stackOf fh).length) : Backlog conf s' := by
  constructor
  · intro fh
    rcases h.watched fh with hlen | ⟨c, hc⟩
    · exact Or.inl ((hstack fh).trans hlen)
    · exact Or.inr ⟨c, by simpa [hphase] using hc⟩
  · intro c
    rw [hphase]
    exact h.noGiveUp c

/-- Pushes on sound buffers succeed when memory does not run out. -/
theorem pushBlocks_result {limits : BuffLimits} {is_binary_mode : Bool} {env : PushEnv}
    (henv : env.AllocOk) {bufs bufs' : OrdMap Pid K2hFtBinBuff} (hbufs : SoundBuffs bufs)
    {data : Bytes} {pid : Pid} {result : Bool} {blocks : List (Pid × Bytes)}
    (h : pushBlocks limits is_binary_mode env bufs data pid = some (result, bufs', blocks)) :
    result = true := by
  have hall : ∀ entries : List (Pid × K2hFtBinBuff), (∀ e ∈ entries, e.2.Good) →
      ∀ r, pushAllBlocks limits is_binary_mode env data entries = some r → r.1 = true := by
    intro entries
    induction entries with
    | nil =>
        intro _ r hr
        rw [← Option.some.inj hr]
    | cons e entries ih =>
        intro hgood r hr
        rcases e with ⟨pid, b⟩
        simp only [pushAllBlocks, Option.bind_eq_bind, Option.bind_eq_some_iff, pure,
          Option.some.injEq] at hr
        rcases hr with ⟨p, hp, t, ht, rfl⟩
        have hfirst := (inputPush_good limits is_binary_mode (henv pid) (hgood (pid, b) (by simp)) hp).1
        have hrest := ih (fun e he => hgood e (by simp [he])) t ht
        simp [hfirst, hrest]
  unfold pushBlocks at h
  split at h
  · simp only [Option.bind_eq_bind, Option.bind_eq_some_iff, pure, Option.some.injEq,
      Prod.mk.injEq] at h
    rcases h with ⟨r, hr, rfl, -, -⟩
    refine hall bufs.entries ?_ r hr
    rintro ⟨pid', b⟩ he
    exact hbufs pid' b (OrdMap.mem_entries_iff.1 he)
  · simp only [Option.bind_eq_bind, Option.bind_eq_some_iff, pure, Option.some.injEq,
      Prod.mk.injEq] at h
    rcases h with ⟨p, hp, rfl, -, -⟩
    exact (inputPush_good limits is_binary_mode (henv pid) (hbufs.getBinBuff pid) hp).1

theorem backlog_callNext {conf : ManageConf} {env : PushEnv} (henv : env.AllocOk) {now : Int64}
    {s s' : Manage} (hinv : s.Inv True) (h : Backlog conf s) {c : Nat}
    (hstep : callNext conf env now s c (s.phaseOf c) = some s') : Backlog conf s' := by
  rcases hphase : s.phaseOf c with _ | ⟨fh, data, pid, isForce⟩ | ⟨fh, blocks, after⟩ | fh | fh | fh |
    ⟨fh, value⟩
  · rw [hphase] at hstep
    simp [callNext] at hstep
  · -- the input is filled; the blocks are not stacked yet
    rw [hphase] at hstep
    simp only [callNext, fillInput, Option.bind_eq_bind, Option.bind_eq_some_iff, pure,
      Option.some.injEq] at hstep
    rcases hstep with ⟨w, hfind, ⟨result, bufs, blocks⟩, hpush, rfl⟩
    obtain rfl : result = true :=
      pushBlocks_result henv (hinv.history.sound trivial fh w hfind) hpush
    refine h.move c (fun c' => phaseOf_setPhase _ c c' _) ?_ ?_
    · simp only [Phase.gaveUp, if_true]
      split <;> simp
    · intro fh'
      right
      right
      refine ⟨?_, by simp [hphase, Phase.watches]⟩
      rw [stackOf_setPhase, stackOf_setBuff]
      split
      · rename_i hfh
        rw [hfh, stackOf_of_find? hfind]
      · exact le_rfl
  · rw [hphase] at hstep
    have hafter : after ≠ .finish := by
      have := h.noGiveUp c
      rwa [hphase] at this
    rcases blocks with _ | ⟨⟨pid, block⟩, rest⟩
    · cases after with
      | finish =>
          exact absurd rfl hafter
      | check =>
          simp only [callNext, Option.some.injEq] at hstep
          rw [← hstep]
          refine h.move c (fun c' => phaseOf_setPhase _ c c' _) (by simp [Phase.gaveUp]) ?_
          intro fh'
          by_cases hfh : fh = fh'
          · exact Or.inl hfh
          · exact Or.inr (Or.inr ⟨le_rfl, by simp [hphase, Phase.watches, hfh]⟩)
      | force =>
          simp only [callNext, Option.some.injEq] at hstep
          rw [← hstep]
          refine h.move c (fun c' => phaseOf_setPhase _ c c' _) (by simp [Phase.gaveUp]) ?_
          intro fh'
          by_cases hfh : fh = fh'
          · exact Or.inl hfh
          · exact Or.inr (Or.inr ⟨le_rfl, by simp [hphase, Phase.watches, hfh]⟩)
    · -- the stack of this handle may grow, and this call watches it
      simp only [callNext, Option.some.injEq] at hstep
      rw [← hstep]
      have hmove : ∀ c', ((s.stackBlock conf (env.line 0) fh pid block).setPhase c
          (.stacking fh rest after)).phaseOf c' =
            if c' = c then .stacking fh rest after else s.phaseOf c' := by
        intro c'
        rw [phaseOf_setPhase, phaseOf_stackBlock]
      refine h.move c hmove hafter ?_
      · intro fh'
        by_cases hfh : fh = fh'
        · exact Or.inl ⟨hfh, hafter⟩
        · refine Or.inr (Or.inr ⟨?_, by simp [hphase, Phase.watches, hfh]⟩)
          rw [stackOf_setPhase, stackOf_stackBlock_ne s conf _ (Ne.symm hfh)]
  · rw [hphase] at hstep
    simp only [callNext] at hstep
    split at hstep <;>
      (rw [← Option.some.inj hstep]
       refine h.move c (fun c' => phaseOf_setPhase _ c c' _) (by simp [Phase.gaveUp]) ?_
       intro fh'
       by_cases hfh : fh = fh'
       · exact Or.inl hfh
       · exact Or.inr (Or.inr ⟨le_rfl, by simp [hphase, Phase.watches, hfh]⟩))
  · rw [hphase] at hstep
    simp only [callNext] at hstep
    split at hstep
    · rw [← Option.some.inj hstep]
      refine h.move c (fun c' => phaseOf_setPhase _ c c' _) (by simp [Phase.gaveUp]) ?_
      intro fh'
      by_cases hfh : fh = fh'
      · exact Or.inl hfh
      · exact Or.inr (Or.inr ⟨le_rfl, by simp [hphase, Phase.watches, hfh]⟩)
    · -- the call returns: under the lock it saw a stack that is short enough
      rename_i hno
      rw [← Option.some.inj hstep]
      refine h.move c (fun c' => phaseOf_setPhase _ c c' _) (by simp [Phase.gaveUp]) ?_
      intro fh'
      by_cases hfh : fh = fh'
      · subst hfh
        right
        left
        rw [stackOf_setPhase]
        by_contra hlong
        apply hno
        rcases hstack : s.stackOf fh with _ | ⟨l, ls⟩
        · simp [hstack] at hlong
        · rw [hstack] at hlong
          simp only [List.map_cons, stackLimitLocked]
          rw [if_neg (by simpa using hlong)]
      · exact Or.inr (Or.inr ⟨le_rfl, by simp [hphase, Phase.watches, hfh]⟩)
  · -- the pop leaves an empty stack
    rw [hphase] at hstep
    have hstack : ∀ p fh', Phase.watches fh' p ∨
        (((s.popStack fh).2.setPhase c p).stackOf fh').length ≤ conf.limits.StackLineMax ∨
        ((((s.popStack fh).2.setPhase c p).stackOf fh').length ≤ (s.stackOf fh').length ∧
          ¬ (s.phaseOf c).watches fh') := by
      intro p fh'
      rw [stackOf_setPhase, stackOf_popStack]
      by_cases hfh : fh' = fh
      · right
        left
        simp [hfh]
      · right
        right
        refine ⟨by simp [hfh], ?_⟩
        rw [hphase]
        exact fun heq => hfh heq.symm
    have hmove : ∀ p c', ((s.popStack fh).2.setPhase c p).phaseOf c' =
        if c' = c then p else s.phaseOf c' := by
      intro p c'
      rw [phaseOf_setPhase, phaseOf_popStack]
    simp only [callNext] at hstep
    split at hstep <;>
      (rw [← Option.some.inj hstep]
       exact h.move c (hmove _) (by simp [Phase.gaveUp]) (hstack _))
  · rw [hphase] at hstep
    simp only [callNext, Option.some.injEq] at hstep
    rw [← hstep]
    refine h.move c (fun c' => phaseOf_setPhase _ c c' _) (by simp [Phase.gaveUp]) ?_
    intro fh'
    exact Or.inr (Or.inr ⟨le_rfl, by simp [hphase, Phase.watches]⟩)

theorem stackOf_setBuff_fresh {s : Manage} {filehandle : UInt64}
    (h : s.wbstackmap.find? filehandle = none) (fh : UInt64) :
    (s.setBuff filehandle HandleBuff.fresh).stackOf fh = s.stackOf fh := by
  rw [stackOf_setBuff]
  split
  · rename_i hfh
    simp [hfh, stackOf, h, HandleBuff.fresh]
  · rfl

theorem backlog_callStep {conf : ManageConf} {s s' : Manage} (hinv : s.Inv True)
    (h : Backlog conf s) {c : Nat} {e : CallEvent} (hok : (Label.call c e).AllocOk)
    (hstep : callStep conf s c e = some s') : Backlog conf s' := by
  cases e with
  | push filehandle data pid =>
      simp only [callStep] at hstep
      split at hstep
      · rename_i hidle
        have hnot : ∀ fh, ¬ (s.phaseOf c).watches fh := by simp [hidle.1, Phase.watches]
        rw [← Option.some.inj hstep]
        rcases hfind : s.wbstackmap.find? filehandle with _ | w
        · refine h.move c (fun c' => phaseOf_setPhase _ c c' _) (by simp [Phase.gaveUp]) ?_
          intro fh
          refine Or.inr (Or.inr ⟨?_, hnot fh⟩)
          rw [stackOf_setPhase, stackOf_setBuff_fresh hfind]
        · refine h.move c (fun c' => phaseOf_setPhase _ c c' _) (by simp [Phase.gaveUp]) ?_
          intro fh
          exact Or.inr (Or.inr ⟨le_rfl, hnot fh⟩)
      · cases hstep
  | close filehandle pid =>
      simp only [callStep] at hstep
      split at hstep
      · rename_i hidle
        rcases hfind : s.wbstackmap.find? filehandle with _ | w
        · rw [hfind] at hstep
          rw [← Option.some.inj hstep]
          exact h
        · rw [hfind] at hstep
          rw [← Option.some.inj hstep]
          refine h.move c (fun c' => phaseOf_setPhase _ c c' _) (by simp [Phase.gaveUp]) ?_
          intro fh
          exact Or.inr (Or.inr ⟨le_rfl, by simp [hidle.1, Phase.watches]⟩)
      · cases hstep
  | next env now =>
      exact backlog_callNext hok hinv h hstep

/-- The worker pops stacks and leaves callers and input buffers alone. -/
theorem workerStep_frame {conf : ManageConf} {now : Int64} {s s' : Manage}
    (hstep : workerStep conf now s s.worker = some s') :
    (∀ c, s'.phaseOf c = s.phaseOf c) ∧ (∀ fh, s'.inputsOf fh = s.inputsOf fh) ∧
      ∀ fh, s'.stackOf fh = [] ∨ s'.stackOf fh = s.stackOf fh := by
  have hpop : ∀ fh, (∀ c, (s.popStack fh).2.phaseOf c = s.phaseOf c) ∧
      (∀ fh', (s.popStack fh).2.inputsOf fh' = s.inputsOf fh') ∧
      ∀ fh', (s.popStack fh).2.stackOf fh' = [] ∨ (s.popStack fh).2.stackOf fh' = s.stackOf fh' := by
    intro fh
    refine ⟨phaseOf_popStack s fh, inputsOf_popStack s fh, ?_⟩
    intro fh'
    rw [stackOf_popStack]
    split
    · exact Or.inl rfl
    · exact Or.inr rfl
  rcases hworker : s.worker with _ | rest | ⟨fh, rest⟩ | ⟨fh, rest⟩ | _ | _
  · rw [hworker] at hstep
    simp only [workerStep, Option.some.injEq] at hstep
    rw [← hstep]
    exact ⟨fun _ => rfl, fun _ => rfl, fun _ => Or.inr rfl⟩
  · rw [hworker] at hstep
    rcases rest with _ | ⟨fh, rest⟩
    · simp only [workerStep, Option.some.injEq] at hstep
      rw [← hstep]
      exact ⟨fun _ => rfl, fun _ => rfl, fun _ => Or.inr rfl⟩
    · simp only [workerStep] at hstep
      split at hstep
      · split at hstep <;>
          (rw [← Option.some.inj hstep]
           exact ⟨fun _ => rfl, fun _ => rfl, fun _ => Or.inr rfl⟩)
      · rw [← Option.some.inj hstep]
        exact ⟨fun _ => rfl, fun _ => rfl, fun _ => Or.inr rfl⟩
  · rw [hworker] at hstep
    simp only [workerStep] at hstep
    split at hstep <;>
      (rw [← Option.some.inj hstep]
       exact ⟨fun _ => rfl, fun _ => rfl, fun _ => Or.inr rfl⟩)
  · rw [hworker] at hstep
    simp only [workerStep] at hstep
    split at hstep <;>
      (rw [← Option.some.inj hstep]
       exact hpop fh)
  · rw [hworker] at hstep
    simp only [workerStep] at hstep
    split at hstep <;>
      (rw [← Option.some.inj hstep]
       exact ⟨fun _ => rfl, fun _ => rfl, fun _ => Or.inr rfl⟩)
  · rw [hworker] at hstep
    simp [workerStep] at hstep

theorem backlog_step {conf : ManageConf} {s s' : Manage} {l : Label} (hinv : s.Inv True)
    (h : Backlog conf s) (hok : l.AllocOk) (hstep : step conf s l = some s') :
    Backlog conf s' := by
  cases l with
  | call c e =>
      exact backlog_callStep hinv h hok hstep
  | worker now =>
      rcases workerStep_frame hstep with ⟨hphase, -, hstack⟩
      refine h.shrink hphase ?_
      intro fh
      rcases hstack fh with hnil | hsame
      · simp [hnil]
      · rw [hsame]
  | stopThread =>
      rw [← Option.some.inj hstep]
      exact h.shrink (fun _ => rfl) fun _ => le_rfl

/-- The states of a system whose requests for memory succeed. -/
structure SystemInv (conf : ManageConf) (s : Manage) : Prop where
  handOver : s.Inv True
  backlog : Backlog conf s

theorem systemInv_step {conf : ManageConf} {s s' : Manage} {l : SystemLabel}
    (h : SystemInv conf s) (hok : l.AllocOk) (hstep : systemStep conf s l = some s') :
    SystemInv conf s' := by
  rcases systemStep_cases hstep with rfl | ⟨l', hl', hstep'⟩
  · exact h
  · exact ⟨inv_step h.handOver (fun _ => hl' hok) hstep',
      backlog_step h.handOver h.backlog (hl' hok) hstep'⟩

theorem systemInv_run {conf : ManageConf} {ls : List SystemLabel} {s s' : Manage}
    (hok : ∀ l ∈ ls, l.AllocOk) (hrun : Transition.run (systemStep conf) s ls = some s')
    (h : SystemInv conf s) : SystemInv conf s' := by
  have hpres : ∀ s l s', SystemInv conf s → SystemLabel.AllocOk l → systemStep conf s l = some s' →
      SystemInv conf s' := by
    intro s l s' hinv hl hstep
    exact systemInv_step hinv hl hstep
  exact Transition.invariant_run_of_guarded hpres
    (Transition.guarded_of_forall_mem (systemStep conf) s hok) hrun h

/-! ## A `Close` that runs alone -/

/-- What has been done for the handle and the process when the call of `c`, a `Close`, is in the
given phase. -/
def ClosePhase (s : Manage) (filehandle : UInt64) (pid : Pid) : Phase → Prop
  | .input fh data p isForce => fh = filehandle ∧ data = [] ∧ p = pid ∧ isForce = true
  | .stacking fh _ after =>
      fh = filehandle ∧ after = .force ∧ (getBinBuff (s.inputsOf filehandle) pid).isEmpty = true
  | .pop fh => fh = filehandle ∧ (getBinBuff (s.inputsOf filehandle) pid).isEmpty = true
  | .process _ _ =>
      s.stackOf filehandle = [] ∧ (getBinBuff (s.inputsOf filehandle) pid).isEmpty = true
  | .idle => s.stackOf filehandle = [] ∧ (getBinBuff (s.inputsOf filehandle) pid).isEmpty = true
  | _ => False

/-- Only `c` goes on with its call, and the worker does its work. -/
def SystemLabel.OnlyNext (c : Nat) : SystemLabel → Prop
  | .request c' (.next _ _) => c' = c
  | .request _ _ => False
  | .worker _ => True
  | .stopThread => True

theorem ClosePhase.of_eq {s s' : Manage} {filehandle : UInt64} {pid : Pid} {p : Phase}
    (h : ClosePhase s filehandle pid p) (hinputs : s'.inputsOf filehandle = s.inputsOf filehandle)
    (hstack : s'.stackOf filehandle = [] ∨ s'.stackOf filehandle = s.stackOf filehandle) :
    ClosePhase s' filehandle pid p := by
  have hnil : s.stackOf filehandle = [] → s'.stackOf filehandle = [] := by
    intro h
    rcases hstack with hs | hs
    · exact hs
    · rw [hs, h]
  cases p with
  | idle =>
      exact ⟨hnil h.1, by rw [hinputs]; exact h.2⟩
  | input fh data p isForce =>
      exact h
  | stacking fh blocks after =>
      exact ⟨h.1, h.2.1, by rw [hinputs]; exact h.2.2⟩
  | check fh =>
      exact h
  | recheck fh =>
      exact h
  | pop fh =>
      exact ⟨h.1, by rw [hinputs]; exact h.2⟩
  | process fh value =>
      exact ⟨hnil h.1, by rw [hinputs]; exact h.2⟩

/-- The forced push empties the input buffer of the process, or of all. -/
theorem isEmpty_of_force {limits : BuffLimits} {is_binary_mode : Bool} {env : PushEnv}
    (henv : env.AllocOk) {bufs bufs' : OrdMap Pid K2hFtBinBuff} (hbufs : SoundBuffs bufs)
    {pid : Pid} {result : Bool} {blocks : List (Pid × Bytes)}
    (h : pushBlocks limits is_binary_mode env bufs [] pid = some (result, bufs', blocks)) :
    (getBinBuff bufs' pid).isEmpty = true := by
  unfold pushBlocks at h
  split at h
  · simp only [Option.bind_eq_bind, Option.bind_eq_some_iff, pure, Option.some.injEq,
      Prod.mk.injEq] at h
    rcases h with ⟨r, -, -, rfl, -⟩
    rfl
  · rcases inputPush_force limits is_binary_mode (henv pid) (hbufs.getBinBuff pid) with
      ⟨b', hpush, hgood, hcont⟩
    simp only [hpush, Option.bind_eq_bind, Option.bind_some, pure, Option.some.injEq,
      Prod.mk.injEq] at h
    rw [← h.2.1]
    simpa [getBinBuff] using hgood.isEmpty_iff.2 hcont

theorem inputsOf_setBuff (s : Manage) (filehandle : UInt64) (w : HandleBuff) :
    (s.setBuff filehandle w).inputsOf filehandle = w.InputBuffMap := by
  simp [inputsOf, setBuff]

theorem closePhase_next {conf : ManageConf} {env : PushEnv} (henv : env.AllocOk) {now : Int64}
    {s s' : Manage} (hinv : s.Inv True) {c : Nat} {filehandle : UInt64} {pid : Pid}
    (h : ClosePhase s filehandle pid (s.phaseOf c))
    (hstep : callNext conf env now s c (s.phaseOf c) = some s') :
    ClosePhase s' filehandle pid (s'.phaseOf c) := by
  rcases hphase : s.phaseOf c with _ | ⟨fh, data, p, isForce⟩ | ⟨fh, blocks, after⟩ | fh | fh | fh |
    ⟨fh, value⟩
  · rw [hphase] at hstep
    simp [callNext] at hstep
  · rw [hphase] at hstep h
    rcases h with ⟨rfl, rfl, rfl, rfl⟩
    simp only [callNext, fillInput, Option.bind_eq_bind, Option.bind_eq_some_iff, pure,
      Option.some.injEq] at hstep
    rcases hstep with ⟨w, hfind, ⟨result, bufs, blocks⟩, hpush, rfl⟩
    have hsound := hinv.history.sound trivial fh w hfind
    obtain rfl : result = true := pushBlocks_result henv hsound hpush
    simp only [phaseOf_setPhase, if_true]
    refine ⟨rfl, rfl, ?_⟩
    rw [inputsOf_setPhase, inputsOf_setBuff]
    exact isEmpty_of_force henv hsound hpush
  · rw [hphase] at hstep h
    rcases h with ⟨rfl, rfl, hempty⟩
    rcases blocks with _ | ⟨⟨p, block⟩, rest⟩
    · simp only [callNext, Option.some.injEq] at hstep
      rw [← hstep, phaseOf_setPhase, if_pos rfl]
      exact ⟨rfl, hempty⟩
    · simp only [callNext, Option.some.injEq] at hstep
      rw [← hstep, phaseOf_setPhase, if_pos rfl]
      refine ⟨rfl, rfl, ?_⟩
      rw [inputsOf_setPhase, inputsOf_stackBlock]
      exact hempty
  · rw [hphase] at h
    exact h.elim
  · rw [hphase] at h
    exact h.elim
  · -- whatever is stacked goes with this pop
    rw [hphase] at hstep h
    rcases h with ⟨rfl, hempty⟩
    have hdone : (s.popStack fh).2.stackOf fh = [] ∧
        (getBinBuff ((s.popStack fh).2.inputsOf fh) pid).isEmpty = true := by
      rw [stackOf_popStack, if_pos rfl, inputsOf_popStack]
      exact ⟨rfl, hempty⟩
    simp only [callNext] at hstep
    split at hstep <;>
      (rw [← Option.some.inj hstep, phaseOf_setPhase, if_pos rfl]
       exact hdone)
  · rw [hphase] at hstep h
    simp only [callNext, Option.some.injEq] at hstep
    rw [← hstep, phaseOf_setPhase, if_pos rfl]
    exact h

theorem closePhase_step {conf : ManageConf} {l : SystemLabel} {c : Nat} (hok : l.AllocOk)
    (honly : l.OnlyNext c) {s s' : Manage} (hinv : SystemInv conf s) {filehandle : UInt64}
    {pid : Pid} (h : ClosePhase s filehandle pid (s.phaseOf c))
    (hstep : systemStep conf s l = some s') : ClosePhase s' filehandle pid (s'.phaseOf c) := by
  cases l with
  | request c' r =>
      cases r with
      | next env now =>
          obtain rfl : c' = c := honly
          exact closePhase_next hok hinv.handOver h hstep
      | push fh data p =>
          exact honly.elim
      | flush fh p =>
          exact honly.elim
      | close fh p =>
          exact honly.elim
  | worker now =>
      -- the worker pops stacks and leaves the input buffers alone
      rcases workerStep_frame hstep with ⟨hphase, hinputs, hstack⟩
      rw [hphase]
      exact h.of_eq (hinputs filehandle) (hstack filehandle)
  | stopThread =>
      rw [← Option.some.inj hstep]
      exact h

theorem closePhase_run {conf : ManageConf} {ls : List SystemLabel} {c : Nat}
    (hok : ∀ l ∈ ls, l.AllocOk) (honly : ∀ l ∈ ls, l.OnlyNext c) {s s' : Manage}
    (hinv : SystemInv conf s) {filehandle : UInt64} {pid : Pid}
    (h : ClosePhase s filehandle pid (s.phaseOf c))
    (hrun : Transition.run (systemStep conf) s ls = some s') :
    ClosePhase s' filehandle pid (s'.phaseOf c) := by
  have hpres : ∀ (t : Manage) l t',
      SystemInv conf t ∧ ClosePhase t filehandle pid (t.phaseOf c) → l.AllocOk ∧ l.OnlyNext c →
        systemStep conf t l = some t' →
          SystemInv conf t' ∧ ClosePhase t' filehandle pid (t'.phaseOf c) := by
    intro t l t' ht hl hstep
    exact ⟨systemInv_step ht.1 hl.1 hstep, closePhase_step hl.1 hl.2 ht.1 ht.2 hstep⟩
  have hlabels : ∀ l ∈ ls, l.AllocOk ∧ l.OnlyNext c := fun l hl => ⟨hok l hl, honly l hl⟩
  have hguard := Transition.guarded_of_forall_mem (systemStep conf) s hlabels
  exact (Transition.invariant_run_of_guarded hpres hguard hrun ⟨hinv, h⟩).2

theorem closePhase_begin {conf : ManageConf} {s s' : Manage} {c : Nat} {filehandle : UInt64}
    {pid : Pid} (hidle : s.phaseOf c = .idle)
    (hstep : systemStep conf s (.request c (.close filehandle pid)) = some s') :
    ClosePhase s' filehandle pid (s'.phaseOf c) := by
  simp only [systemStep, requestStep, callStep] at hstep
  split at hstep
  · rcases hfind : s.wbstackmap.find? filehandle with _ | w
    · rw [hfind] at hstep
      rw [← Option.some.inj hstep, hidle]
      refine ⟨?_, ?_⟩
      · simp [stackOf, hfind]
      · simp only [inputsOf, hfind]
        rfl
    · rw [hfind] at hstep
      rw [← Option.some.inj hstep, phaseOf_setPhase, if_pos rfl]
      exact ⟨rfl, rfl, rfl, rfl⟩
  · cases hstep

/-! ## The bound -/

/-- In every state in which no call is in flight, every stack holds at most `StackLineMax` records,
so none with the default. A `Close` that starts in such a state and runs without another call ends
with an empty stack of its handle and an empty input buffer of its process. -/
theorem backlog_bounded (conf : ManageConf) (ls : List SystemLabel) (hok : ∀ l ∈ ls, l.AllocOk)
    (s : Manage) (hrun : Transition.run (systemStep conf) (start conf) ls = some s)
    (hidle : ∀ c, s.phaseOf c = .idle) :
    (∀ filehandle, (s.stackOf filehandle).length ≤ conf.limits.StackLineMax) ∧
      (conf.limits.StackLineMax = DEFAULT_LINE_MAX → ∀ filehandle, s.stackOf filehandle = []) ∧
      ∀ c filehandle pid s₁, systemStep conf s (.request c (.close filehandle pid)) = some s₁ →
        ∀ ls', (∀ l ∈ ls', l.AllocOk) → (∀ l ∈ ls', l.OnlyNext c) →
          ∀ s₂, Transition.run (systemStep conf) s₁ ls' = some s₂ → s₂.phaseOf c = .idle →
            s₂.stackOf filehandle = [] ∧
              (getBinBuff (s₂.inputsOf filehandle) pid).isEmpty = true := by
  have hinv : SystemInv conf s :=
    systemInv_run hok hrun ⟨inv_start True conf, backlog_start conf⟩
  have hshort : ∀ fh, (s.stackOf fh).length ≤ conf.limits.StackLineMax := by
    intro fh
    rcases hinv.backlog.watched fh with hlen | ⟨c, hc⟩
    · exact hlen
    · simp [hidle c, Phase.watches] at hc
  refine ⟨hshort, ?_, ?_⟩
  · intro hdefault fh
    have hzero : (s.stackOf fh).length ≤ DEFAULT_LINE_MAX := hdefault ▸ hshort fh
    exact List.length_eq_zero_iff.1 (Nat.le_zero.1 hzero)
  · intro c fh pid s₁ hclose ls' hok' honly s₂ hrun' hdone
    have hok₁ : (SystemLabel.request c (.close fh pid)).AllocOk := trivial
    have hinv₁ : SystemInv conf s₁ := systemInv_step hinv hok₁ hclose
    have hphase := closePhase_run hok' honly hinv₁ (closePhase_begin (hidle c) hclose) hrun'
    rw [hdone] at hphase
    exact hphase

/-- A second of patience and two lines of it. -/
def patientConf : ManageConf :=
  { plainConf with limits := { BuffLimits.default with StackTimeup := 1, StackLineMax := 2 } }

/-- A line and the start of another one. -/
def lineAndHalf : List SystemLabel :=
  .request 0 (.push 1 (ascii "a\nb") 5) :: List.replicate 5 (.request 0 (.next .zeroed 0))

theorem backlog_bounded_line_and_half :
    ∃ s, Transition.run (systemStep patientConf) (start patientConf) lineAndHalf = some s ∧
      (s.stackOf 1).length = 1 ∧ (s.stackOf 1).length ≤ 2 ∧
      ∃ s₁, systemStep patientConf s (.request 0 (.close 1 5)) = some s₁ ∧
        ∃ s₂, Transition.run (systemStep patientConf) s₁
            (List.replicate 5 (.request 0 (.next .zeroed 0))) = some s₂ ∧
          s₂.stackOf 1 = [] ∧ (getBinBuff (s₂.inputsOf 1) 5).isEmpty = true := by
  have hends : ((Transition.run (systemStep patientConf) (start patientConf) lineAndHalf).map
      fun s => (s.clients, (s.stackOf 1).length,
        (((systemStep patientConf s (.request 0 (.close 1 5))).map fun s₁ =>
          (Transition.run (systemStep patientConf) s₁
            (List.replicate 5 (.request 0 (.next .zeroed 0)))).map fun s₂ => s₂.phaseOf 0)))) =
      some ((∅ : OrdMap Nat Phase).insert 0 .idle, 1, some (some .idle)) := by
    decide +kernel
  rcases Option.map_eq_some_iff.1 hends with ⟨s, hrun, hs⟩
  simp only [Prod.mk.injEq] at hs
  rcases hs with ⟨hclients, hone, hclose⟩
  rcases Option.map_eq_some_iff.1 hclose with ⟨s₁, hs₁, hrest⟩
  rcases Option.map_eq_some_iff.1 hrest with ⟨s₂, hs₂, hdone⟩
  have hok : ∀ l ∈ lineAndHalf, l.AllocOk := by
    intro l hl
    simp only [lineAndHalf, List.mem_cons, List.mem_replicate] at hl
    rcases hl with rfl | ⟨-, rfl⟩
    · trivial
    · exact zeroed_allocOk
  have hidle : ∀ c, s.phaseOf c = .idle := by
    intro c
    rw [phaseOf, hclients, OrdMap.find?_insert]
    split <;> rfl
  rcases backlog_bounded patientConf lineAndHalf hok s hrun hidle with ⟨hshort, -, hdrained⟩
  refine ⟨s, hrun, hone, hshort 1, s₁, hs₁, s₂, hs₂, hdrained 0 1 5 s₁ hs₁ _ ?_ ?_ s₂ hs₂ hdone⟩
  · intro l hl
    rw [(List.mem_replicate.1 hl).2]
    exact zeroed_allocOk
  · intro l hl
    rw [(List.mem_replicate.1 hl).2]
    exact rfl

end Manage

end K2hFtFuse
