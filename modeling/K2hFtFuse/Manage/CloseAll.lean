import K2hFtFuse.Manage.HandOver

/-!
# Manage.CloseAll — every record is handed over exactly once

`CloseAll` runs when the callers have finished and the worker is joined. Each of its rounds forces
what is left in the input buffers of a handle out to the stack, pops the stack, processes the value
and deletes the buffers.

- `closeOne_spec` is one round: it keeps the histories and offers what was left to the rule;
- `closeRounds_spec` is the loop over the map;
- `closeAll_hands_over_once` puts a run and its `CloseAll` together.
-/

namespace K2hFtFuse

open ByteSeq

namespace Manage

/-! ## What a round touches -/

/-- The second state differs from the first in the entry of one handle and in the histories. -/
structure SameBut (filehandle : UInt64) (s s' : Manage) : Prop where
  clients : s'.clients = s.clients
  worker : s'.worker = s.worker
  valmap : s'.valmap = s.valmap
  others : s'.wbstackmap.erase filehandle = s.wbstackmap.erase filehandle

theorem SameBut.refl (filehandle : UInt64) (s : Manage) : SameBut filehandle s s :=
  ⟨rfl, rfl, rfl, rfl⟩

theorem SameBut.trans {filehandle : UInt64} {s s' s'' : Manage} (h : SameBut filehandle s s')
    (h' : SameBut filehandle s' s'') : SameBut filehandle s s'' :=
  ⟨h'.clients.trans h.clients, h'.worker.trans h.worker, h'.valmap.trans h.valmap,
    h'.others.trans h.others⟩

theorem SameBut.inFlight {filehandle : UInt64} {s s' : Manage} (h : SameBut filehandle s s') :
    s'.inFlight = s.inFlight := by
  rw [Manage.inFlight, Manage.inFlight, h.clients, h.valmap]

theorem stackBlock_sameBut (conf : ManageConf) (env : StackEnv) (s : Manage) (filehandle : UInt64)
    (pid : Pid) (block : Bytes) :
    SameBut filehandle s (s.stackBlock conf env filehandle pid block) := by
  rcases stackBlock_frame conf env s filehandle pid block with ⟨hclients, hworker, hvalmap, -, -⟩
  refine ⟨hclients, hworker, hvalmap, ?_⟩
  unfold stackBlock
  rcases s.wbstackmap.find? filehandle with _ | w
  · rfl
  · by_cases hnil : block = []
    · simp [hnil]
    · rcases stackLine (conf.sink filehandle) env block pid with _ | pLine <;> simp [hnil]

theorem popStack_sameBut (s : Manage) (filehandle : UInt64) :
    SameBut filehandle s (s.popStack filehandle).2 := by
  rcases s.popStack_frame filehandle with ⟨hclients, hworker, hvalmap, -, -, -⟩
  refine ⟨hclients, hworker, hvalmap, ?_⟩
  unfold popStack
  rcases s.wbstackmap.find? filehandle with _ | w
  · rfl
  · by_cases hnil : w.Stack = [] <;> simp [hnil]

theorem checkPushForce_spec {s : Manage} (hinv : s.Inv True) (filehandle : UInt64) :
    (s.checkPushForce filehandle).Inv True ∧ SameBut filehandle s (s.checkPushForce filehandle) ∧
      (s.checkPushForce filehandle).stackOf filehandle = [] ∧
      (s.checkPushForce filehandle).offered = s.offered := by
  have hsame := popStack_sameBut s filehandle
  have hoffered := (s.popStack_frame filehandle).2.2.2.2.1
  have hhist := (hinv.history.popStack filehandle).1
  have hempty := (hinv.history.popStack filehandle).2
  have hflight := hinv.flight.popStack filehandle
  have hworker := hinv.worker.of_frame hsame.worker hsame.valmap
  by_cases hnil : (s.popStack filehandle).1 = []
  · have hcheck : s.checkPushForce filehandle = (s.popStack filehandle).2 := by
      simp [checkPushForce, hnil]
    rw [takenBy, if_pos hnil] at hflight
    rw [hcheck]
    exact ⟨⟨hhist, hflight, hworker⟩, hsame, hempty, hoffered⟩
  · have hcheck : s.checkPushForce filehandle =
        (s.popStack filehandle).2.process filehandle (s.popStack filehandle).1 := by
      simp [checkPushForce, hnil]
    rw [takenBy, if_neg hnil] at hflight
    rw [hcheck]
    exact ⟨⟨⟨hhist.sound, hhist.order, hhist.serials⟩, hflight.process, hworker⟩,
      ⟨hsame.clients, hsame.worker, hsame.valmap, hsame.others⟩, hempty, hoffered⟩

/-! ## Stacking the forced blocks -/

/-- The buffers of the handle stay, and a block that is not empty is offered to the rule. -/
theorem stackBlock_offers (conf : ManageConf) (env : StackEnv) {s : Manage} {filehandle : UInt64}
    (hfind : (s.wbstackmap.find? filehandle).isSome) (pid : Pid) {block : Bytes}
    (hblock : block ≠ []) :
    (s.stackBlock conf env filehandle pid block).offered = s.offered ++ [(filehandle, pid, block)] ∧
      ((s.stackBlock conf env filehandle pid block).wbstackmap.find? filehandle).isSome := by
  rcases Option.isSome_iff_exists.1 hfind with ⟨w, hw⟩
  unfold stackBlock
  rcases stackLine (conf.sink filehandle) env block pid with _ | pLine <;> simp [hw, hblock]

theorem stackBlocks_spec (conf : ManageConf) {filehandle : UInt64} {blocks : List (Pid × Bytes)}
    (hblocks : ∀ e ∈ blocks, e.2 ≠ []) (env : Nat → StackEnv) {s : Manage} (hinv : s.Inv True)
    (hfind : (s.wbstackmap.find? filehandle).isSome) :
    (stackBlocks conf filehandle env s blocks).Inv True ∧
      SameBut filehandle s (stackBlocks conf filehandle env s blocks) ∧
      (stackBlocks conf filehandle env s blocks).offered =
        s.offered ++ blocks.map fun e => (filehandle, e.1, e.2) := by
  induction blocks generalizing env s with
  | nil =>
      exact ⟨hinv, SameBut.refl filehandle s, by simp [stackBlocks]⟩
  | cons e blocks ih =>
      rcases e with ⟨pid, block⟩
      have hne : block ≠ [] := hblocks (pid, block) (by simp)
      rcases stackBlock_offers conf (env 0) hfind pid hne with ⟨hoffered, hsome⟩
      have hnext := inv_stackBlock hinv conf (env 0) filehandle pid block
      have hsame := stackBlock_sameBut conf (env 0) s filehandle pid block
      rcases ih (fun e he => hblocks e (by simp [he])) (fun n => env (n + 1)) hnext hsome with
        ⟨hinv', hsame', hoffered'⟩
      refine ⟨hinv', hsame.trans hsame', ?_⟩
      calc (stackBlocks conf filehandle (fun n => env (n + 1))
              (s.stackBlock conf (env 0) filehandle pid block) blocks).offered
          = (s.stackBlock conf (env 0) filehandle pid block).offered ++
              blocks.map fun e => (filehandle, e.1, e.2) := hoffered'
        _ = s.offered ++ ((pid, block) :: blocks).map fun e => (filehandle, e.1, e.2) := by
            rw [hoffered]
            simp

/-! ## A round -/

/-- What is left in the input buffers of a handle, as the records that a forced push makes. -/
def leftOf (conf : ManageConf) (w : HandleBuff) : List (Pid × Bytes) :=
  w.InputBuffMap.entries.flatMap fun e =>
    (forcedBlocks conf.IsBinaryMode e.2.content).map fun block => (e.1, block)

theorem leftOf_ne_nil (conf : ManageConf) (w : HandleBuff) :
    ∀ e ∈ leftOf conf w, e.2 ≠ [] := by
  intro e he
  simp only [leftOf, List.mem_flatMap, List.mem_map] at he
  rcases he with ⟨b, -, block, hblock, rfl⟩
  unfold forcedBlocks at hblock
  split at hblock
  · cases hblock
  · rename_i hcontent
    rw [List.mem_singleton.1 hblock]
    split
    · exact hcontent
    · exact K2hFtBinBuff.terminate_ne_nil _

/-- What is left in all input buffers. -/
def leftBlocks (conf : ManageConf) (entries : List (UInt64 × HandleBuff)) :
    List (UInt64 × Pid × Bytes) :=
  entries.flatMap fun e => (leftOf conf e.2).map fun b => (e.1, b.1, b.2)

theorem closeOne_spec (conf : ManageConf) {env : UInt64 → PushEnv} {s : Manage} (hinv : s.Inv True)
    {filehandle : UInt64} (henv : (env filehandle).AllocOk) {w : HandleBuff}
    (hfind : s.wbstackmap.find? filehandle = some w) :
    ∃ s', closeOne conf env s filehandle = some s' ∧ s'.Inv True ∧ s'.clients = s.clients ∧
      s'.worker = s.worker ∧ s'.wbstackmap = s.wbstackmap.erase filehandle ∧
      s'.offered = s.offered ++ (leftOf conf w).map fun b => (filehandle, b.1, b.2) := by
  have hgood : ∀ e ∈ w.InputBuffMap.entries, e.2.Good := fun e he =>
    hinv.history.sound trivial filehandle w hfind e.1 e.2 (OrdMap.mem_entries_iff.1 he)
  have hpush : pushBlocks conf.limits conf.IsBinaryMode (env filehandle) w.InputBuffMap []
      K2HFT_INVALID_PID = some (true, ∅, leftOf conf w) := by
    simp [pushBlocks, pushAllBlocks_force conf.limits conf.IsBinaryMode henv hgood, leftOf]
  -- the input buffers are gone
  let w₁ : HandleBuff := { w with InputBuffMap := ∅ }
  have hstack : w₁.Stack = s.stackOf filehandle := (stackOf_of_find? hfind).symm
  have hinv₁ : (s.setBuff filehandle w₁).Inv True :=
    ⟨hinv.history.setBuff (fun _ => soundBuffs_empty) hstack, hinv.flight.setBuff _ _, hinv.worker⟩
  have hsame₁ : SameBut filehandle s (s.setBuff filehandle w₁) :=
    ⟨rfl, rfl, rfl, OrdMap.erase_insert_self _ _ _⟩
  have hsome₁ : ((s.setBuff filehandle w₁).wbstackmap.find? filehandle).isSome := by
    simp [setBuff]
  -- what they held is offered and stacked
  rcases stackBlocks_spec conf (leftOf_ne_nil conf w) (env filehandle).line hinv₁ hsome₁ with
    ⟨hinv₂, hsame₂, hoffered₂⟩
  -- the stack is popped and processed
  rcases checkPushForce_spec hinv₂ filehandle with ⟨hinv₃, hsame₃, hempty₃, hoffered₃⟩
  have hsame := (hsame₁.trans hsame₂).trans hsame₃
  have hround : closeOne conf env s filehandle = some
      (((stackBlocks conf filehandle (env filehandle).line (s.setBuff filehandle w₁)
        (leftOf conf w)).checkPushForce filehandle).dropBuff filehandle) := by
    simp [closeOne, hfind, hpush, w₁]
  exact ⟨_, hround, ⟨hinv₃.history.dropBuff hempty₃, hinv₃.flight, hinv₃.worker⟩, hsame.clients,
    hsame.worker, hsame.others, hoffered₃.trans hoffered₂⟩

/-- The loop of `CloseAll`, by induction on what is left of the map. -/
theorem closeRounds_spec {conf : ManageConf} {env : UInt64 → PushEnv}
    (henv : ∀ filehandle, (env filehandle).AllocOk) {entries : List (UInt64 × HandleBuff)}
    {s : Manage} (hinv : s.Inv True) (hentries : s.wbstackmap.entries = entries) :
    ∃ s', closeRounds conf env s (entries.map Prod.fst) = some s' ∧ s'.Inv True ∧
      s'.clients = s.clients ∧ s'.worker = s.worker ∧ s'.wbstackmap = ∅ ∧
      s'.offered = s.offered ++ leftBlocks conf entries := by
  induction entries generalizing s with
  | nil =>
      exact ⟨s, rfl, hinv, rfl, rfl, OrdMap.eq_empty_of_entries hentries, by simp [leftBlocks]⟩
  | cons e entries ih =>
      rcases e with ⟨filehandle, w⟩
      have hfind : s.wbstackmap.find? filehandle = some w :=
        OrdMap.mem_entries_iff.1 (by simp [hentries])
      rcases closeOne_spec conf hinv (henv filehandle) hfind with
        ⟨s₁, hone, hinv₁, hclients₁, hworker₁, hmap₁, hoffered₁⟩
      have hentries₁ : s₁.wbstackmap.entries = entries := by
        rw [hmap₁]
        exact OrdMap.entries_erase_head hentries
      rcases ih hinv₁ hentries₁ with ⟨s', hrest, hinv', hclients, hworker, hempty, hoffered⟩
      refine ⟨s', ?_, hinv', hclients.trans hclients₁, hworker.trans hworker₁, hempty, ?_⟩
      · simp [closeRounds, hone, hrest]
      · rw [hoffered, hoffered₁]
        simp [leftBlocks]

/-! ## Nothing is lost or doubled -/

theorem count_forHandle {α : Type} [DecidableEq α] (filehandle : UInt64) (x : α)
    (log : List (UInt64 × α)) :
    log.count (filehandle, x) = (forHandle filehandle log).count x := by
  induction log with
  | nil =>
      rfl
  | cons e log ih =>
      rcases e with ⟨fh, y⟩
      have hsplit : forHandle filehandle ((fh, y) :: log) =
          forHandle filehandle [(fh, y)] ++ forHandle filehandle log :=
        forHandle_append filehandle [(fh, y)] log
      rw [List.count_cons, hsplit, List.count_append, ih, Nat.add_comm]
      congr 1
      by_cases hfh : fh = filehandle
      · subst hfh
        rw [forHandle_self, List.count_singleton]
        simp
      · simp [forHandle_other hfh, hfh]

/-- The records of the values of a history, with the handle of the value. -/
def recordsOf (log : List (UInt64 × Value)) : List (UInt64 × StackedLine) :=
  log.flatMap fun e => e.2.map fun r => (e.1, r)

theorem forHandle_recordsOf (filehandle : UInt64) (log : List (UInt64 × Value)) :
    forHandle filehandle (recordsOf log) = (forHandle filehandle log).flatten := by
  induction log with
  | nil =>
      rfl
  | cons e log ih =>
      rcases e with ⟨fh, value⟩
      have hhead : forHandle filehandle (value.map fun r => (fh, r)) =
          (forHandle filehandle [(fh, value)]).flatten := by
        by_cases hfh : fh = filehandle
        · subst hfh
          simp [forHandle]
        · simp [forHandle, hfh]
      calc forHandle filehandle (recordsOf ((fh, value) :: log))
          = forHandle filehandle (value.map fun r => (fh, r)) ++
              forHandle filehandle (recordsOf log) := by
            rw [recordsOf, List.flatMap_cons, forHandle_append, recordsOf]
        _ = (forHandle filehandle ([(fh, value)] ++ log)).flatten := by
            rw [hhead, ih, forHandle_append, List.flatten_append]

/-- With empty stacks, what was appended is what was popped. -/
theorem History.appended_perm {s : Manage} (h : s.History True) (hempty : s.wbstackmap = ∅) :
    s.appended.Perm (recordsOf s.popped) := by
  rw [List.perm_iff_count]
  rintro ⟨filehandle, r⟩
  have hstack : s.stackOf filehandle = [] := by simp [stackOf, hempty]
  rw [count_forHandle, count_forHandle, forHandle_recordsOf, h.order filehandle, hstack,
    List.append_nil]

/-- With nobody holding a value, what was popped is what was processed. -/
theorem Inv.popped_perm {s : Manage} (h : s.Inv True) (hidle : ∀ c, s.phaseOf c = .idle)
    (hjoined : s.worker = .exited) : s.popped.Perm s.processed := by
  have hcalls : s.clients.collect (fun _ p => heldBy p) = 0 := by
    refine OrdMap.collect_eq_zero _ ?_
    intro c p hfind
    have hp : p = .idle := by simpa [phaseOf, hfind] using hidle c
    rw [hp]
    rfl
  have hworker : s.valmap = ∅ := by
    have hinv := h.worker
    rw [WorkerInv, hjoined] at hinv
    exact hinv
  have hflight : (s.popped : Multiset (UInt64 × Value)) = s.processed + s.inFlight + 0 := h.flight
  rw [inFlight, hcalls, hworker, OrdMap.collect_empty, add_zero, add_zero, add_zero] at hflight
  exact Multiset.coe_eq_coe.1 hflight

/-- A run that ends with all callers returned and the worker joined, then `CloseAll`: every input
buffer is offered to the rules and every appended record is in exactly one value that was given to
`Processing`, under the handle it was popped for. -/
theorem closeAll_hands_over_once (conf : ManageConf) (ls : List Label) (s : Manage)
    (env : UInt64 → PushEnv) (hrun : Transition.run (step conf) (start conf) ls = some s)
    (halloc : ∀ l ∈ ls, l.AllocOk) (hclose : ∀ filehandle, (env filehandle).AllocOk)
    (hidle : ∀ c, s.phaseOf c = .idle) (hjoined : s.worker = .exited) :
    ∃ s', closeAll conf env s = some s' ∧ s'.wbstackmap = ∅ ∧
      s'.offered = s.offered ++ leftBlocks conf s.wbstackmap.entries ∧
      (s'.appended.map fun e => e.2.serial).Nodup ∧
      s'.appended.Perm (recordsOf s'.processed) ∧
      s'.popped.Perm s'.processed := by
  rcases closeRounds_spec hclose (inv_run (fun _ => halloc) hrun) rfl with
    ⟨s', hrounds, hinv, hclients, hworker, hempty, hoffered⟩
  have hserials : (s'.appended.map fun e => e.2.serial).Nodup := by
    rw [hinv.history.serials]
    exact List.nodup_range
  have hprocessed : s'.popped.Perm s'.processed := by
    refine hinv.popped_perm ?_ (hworker.trans hjoined)
    intro c
    rw [phaseOf, hclients]
    exact hidle c
  have hrecords : (recordsOf s'.popped).Perm (recordsOf s'.processed) :=
    List.Perm.flatMap_right (fun e : UInt64 × Value => e.2.map fun r => (e.1, r)) hprocessed
  exact ⟨s', hrounds, hempty, hoffered, hserials,
    (hinv.history.appended_perm hempty).trans hrecords, hprocessed⟩

/-- One push of an unfinished line, and the end of the worker. -/
def onePush : List Label :=
  .call 0 (.push 1 (ascii "a") 5) :: List.replicate 4 (.call 0 (.next .zeroed 0)) ++
    [.stopThread, .worker 0]

theorem closeAll_hands_over_once_one_push :
    ∃ s, Transition.run (step plainConf) (start plainConf) onePush = some s ∧
      ∃ s', closeAll plainConf (fun _ => .zeroed) s = some s' ∧ s'.wbstackmap = ∅ ∧
        s'.offered = s.offered ++ leftBlocks plainConf s.wbstackmap.entries ∧
        (s'.appended.map fun e => e.2.serial).Nodup ∧
        s'.appended.Perm (recordsOf s'.processed) ∧
        s'.popped.Perm s'.processed := by
  have hends : ((Transition.run (step plainConf) (start plainConf) onePush).map fun s =>
      (s.clients, s.worker)) = some ((∅ : OrdMap Nat Phase).insert 0 .idle, .exited) := by
    decide +kernel
  rcases Option.map_eq_some_iff.1 hends with ⟨s, hrun, hs⟩
  rcases Prod.mk.inj hs with ⟨hclients, hjoined⟩
  refine ⟨s, hrun, closeAll_hands_over_once plainConf onePush s (fun _ => .zeroed) hrun ?_
    (fun _ => zeroed_allocOk) ?_ hjoined⟩
  · intro l hl
    simp only [onePush, List.mem_append, List.mem_cons, List.mem_replicate, List.not_mem_nil,
      or_false] at hl
    rcases hl with (rfl | ⟨-, rfl⟩) | rfl | rfl
    · trivial
    · exact zeroed_allocOk
    · trivial
    · trivial
  · intro c
    rw [phaseOf, hclients, OrdMap.find?_insert]
    split <;> rfl

end Manage

end K2hFtFuse
