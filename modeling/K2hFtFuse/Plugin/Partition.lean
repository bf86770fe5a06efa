import K2hFtFuse.Lib.Transition
import K2hFtFuse.Plugin.Manager

/-!
# Plugin.Partition — a plugin runs or is stopped, never both

A run is a sequence of operations of the manager, each with its own wait included. `Partition` says
that the registered plugins are split between `run_plugin` and `stop_plugin`, that `run_plugin` holds
the processes that exist under the pid their plugin has, and that a stopped plugin has no pid.

All operations keep it but three outcomes: a `Write` that restarts its plugin (the plugin stays in
the stop list), a child whose pipe cannot be opened after the fork, and a kill that does not end the
child.
-/

namespace K2hFtFuse

open ByteSeq

/-! ## Starting a process -/

/-- The named pipe of a new child can be opened. -/
def RunEnv.OpensPipe (env : RunEnv) : Prop := env.fork.isSome → env.openPipe.isSome

/-- `RunPlugin` of a plugin with an output file gets as far as to a child. -/
def RunEnv.Starts (env : RunEnv) (p : Plugin) : Prop :=
  p.PipeFilePath ≠ [] ∧ (env.find = true ∨ env.makeFile.isSome) ∧ env.fork.isSome

theorem runPluginProcess_cases {env : RunEnv} (henv : env.OpensPipe) (p : Plugin) :
    ((runPluginProcess env p).1 ≠ K2HFT_INVALID_PID ∧
      (runPluginProcess env p).2.2 = some (runPluginProcess env p).1) ∨
    ((runPluginProcess env p).1 = K2HFT_INVALID_PID ∧
      ((runPluginProcess env p).2.2 = none ∨
        (runPluginProcess env p).2.2 = some K2HFT_INVALID_PID)) := by
  unfold runPluginProcess
  by_cases hempty : p.BaseParam = [] ∨ p.PipeFilePath = []
  · right
    simp [hempty]
  · rcases hfork : env.fork with _ | childpid
    · right
      simp [hempty]
    · rcases hpipe : env.openPipe with _ | pipe_input
      · simp [RunEnv.OpensPipe, hfork, hpipe] at henv
      · by_cases hpid : childpid = K2HFT_INVALID_PID
        · right
          by_cases hinput : p.pipe_input = K2HFT_INVALID_HANDLE <;> simp [hempty, hpid, hinput]
        · left
          by_cases hinput : p.pipe_input = K2HFT_INVALID_HANDLE <;> simp [hempty, hpid, hinput]

/-- A run that succeeds has a child whose pid the plugin gets; a run that fails has none. -/
theorem runPlugin_cases (mountpoint : Bytes) {env : RunEnv} (henv : env.OpensPipe) (p : Plugin) :
    ((runPlugin mountpoint env p).result = true ∧
      (runPlugin mountpoint env p).child = some (runPlugin mountpoint env p).plugin.pid) ∨
    ((runPlugin mountpoint env p).result = false ∧
      ((runPlugin mountpoint env p).child = none ∨
        (runPlugin mountpoint env p).child = some K2HFT_INVALID_PID) ∧
      ((runPlugin mountpoint env p).plugin.pid = p.pid ∨
        (runPlugin mountpoint env p).plugin.pid = K2HFT_INVALID_PID)) := by
  unfold runPlugin
  by_cases hskip : p.BaseParam = [] ∨ p.not_execute = true
  · right
    simp [hskip]
  · simp only [if_neg hskip]
    rcases checkOutput mountpoint env p.initRun with _ | p'
    · right
      simp [Plugin.initRun]
    · rcases runPluginProcess_cases henv p' with ⟨hpid, hchild⟩ | ⟨hpid, hchild⟩
      · left
        simp [hpid, hchild]
      · right
        simp [hpid, hchild]

/-- An output file that was found or made. -/
theorem checkOutput_some {mountpoint : Bytes} {env : RunEnv} {p p' : Plugin}
    (hneeds : needsNoOutput mountpoint p = false) (h : checkOutput mountpoint env p = some p') :
    (env.find = true ∨ env.makeFile.isSome) ∧ p'.PipeFilePath = p.PipeFilePath := by
  simp only [checkOutput, hneeds, Bool.false_eq_true, if_false] at h
  split at h
  · rename_i hfind
    rw [← Option.some.inj h]
    exact ⟨.inl hfind, rfl⟩
  · rcases Option.map_eq_some_iff.1 h with ⟨ids, hmake, rfl⟩
    exact ⟨.inr (by simp [hmake]), rfl⟩

/-- Nothing is started where the output file, the pipe or the child is missing. -/
theorem runPlugin_of_not_starts {mountpoint : Bytes} {env : RunEnv} {p : Plugin}
    (hneeds : needsNoOutput mountpoint p = false) (h : ¬ env.Starts p) :
    (runPlugin mountpoint env p).result = false ∧ (runPlugin mountpoint env p).child = none ∧
      ((runPlugin mountpoint env p).plugin.pid = p.pid ∨
        (runPlugin mountpoint env p).plugin.pid = K2HFT_INVALID_PID) := by
  unfold runPlugin
  by_cases hskip : p.BaseParam = [] ∨ p.not_execute = true
  · simp [hskip]
  · simp only [if_neg hskip]
    rcases hcheck : checkOutput mountpoint env p.initRun with _ | p'
    · simp [Plugin.initRun]
    · rcases checkOutput_some (p := p.initRun) hneeds hcheck with ⟨hfile, hpath⟩
      have hprocess : runPluginProcess env p' = (K2HFT_INVALID_PID, p'.pipe_input, none) := by
        by_cases hpipe : p'.PipeFilePath = []
        · simp [runPluginProcess, hpipe]
        · rcases hfork : env.fork with _ | childpid
          · simp [runPluginProcess, hfork]
          · exact absurd ⟨by rwa [hpath] at hpipe, hfile, by simp [hfork]⟩ h
      simp [hprocess]

/-! ## The invariant -/

namespace PluginMan

/-- The registered plugins, with the stop list given apart. -/
def registered (m : PluginMan) (stop : List Nat) : List Nat := m.run_plugin.values ++ stop

/-- The plugins are split between `run_plugin` and the list `stop`. -/
structure Split (stop : List Nat) (m : PluginMan) : Prop where
  nodup : (m.registered stop).Nodup
  known : ∀ id, id ∈ m.registered stop ↔ (m.plugins.find? id).isSome
  current : ∀ pid id, m.run_plugin.find? pid = some id →
    0 < pid ∧ ∃ p, m.plugins.find? id = some p ∧ p.pid = pid
  stopped : ∀ id ∈ stop, ∀ p, m.plugins.find? id = some p → p.pid = K2HFT_INVALID_PID
  live : m.live = m.run_plugin

theorem Split.perm {stop stop' : List Nat} {m : PluginMan} (h : Split stop m)
    (hperm : stop.Perm stop') : Split stop' m := by
  have hreg : (m.registered stop).Perm (m.registered stop') := hperm.append_left _
  refine ⟨hreg.nodup_iff.1 h.nodup, ?_, h.current, ?_, h.live⟩
  · intro id
    rw [← hreg.mem_iff, h.known]
  · intro id hid
    exact h.stopped id (hperm.mem_iff.2 hid)

/-- A change to a plugin that leaves its pid alone. -/
theorem Split.update {stop : List Nat} {m : PluginMan} (h : Split stop m) {id : Nat} {p p' : Plugin}
    (hfind : m.plugins.find? id = some p) (hpid : p'.pid = p.pid) :
    Split stop (m.setPlugin id p') := by
  refine ⟨h.nodup, ?_, ?_, ?_, h.live⟩
  · intro id'
    rw [setPlugin, OrdMap.find?_insert]
    split
    · rename_i heq
      rw [heq]
      exact (h.known id).trans (by simp [hfind])
    · exact h.known id'
  · intro pid id' hrun
    rcases h.current pid id' hrun with ⟨hpos, q, hq, hqpid⟩
    rw [setPlugin, OrdMap.find?_insert]
    split
    · rename_i heq
      have hqp : q = p := by
        rw [heq, hfind] at hq
        exact (Option.some.inj hq).symm
      exact ⟨hpos, p', rfl, by rw [hpid, ← hqp, hqpid]⟩
    · exact ⟨hpos, q, hq, hqpid⟩
  · intro id' hid' q hq
    rw [setPlugin, OrdMap.find?_insert] at hq
    split at hq
    · rename_i heq
      rw [← Option.some.inj hq, hpid]
      exact h.stopped id (heq ▸ hid') p hfind
    · exact h.stopped id' hid' q hq

/-- The plugins but `id`, which is neither running nor in the list, are split. -/
structure SplitBut (id : Nat) (stop : List Nat) (m : PluginMan) : Prop where
  nodup : (id :: m.registered stop).Nodup
  known : ∀ id', id' ≠ id → (id' ∈ m.registered stop ↔ (m.plugins.find? id').isSome)
  current : ∀ pid id, m.run_plugin.find? pid = some id →
    0 < pid ∧ ∃ p, m.plugins.find? id = some p ∧ p.pid = pid
  stopped : ∀ id ∈ stop, ∀ p, m.plugins.find? id = some p → p.pid = K2HFT_INVALID_PID
  live : m.live = m.run_plugin

/-- A plugin is taken out of the list. -/
theorem Split.takeOut {id : Nat} {others : List Nat} {m : PluginMan} (h : Split (id :: others) m) :
    SplitBut id others m := by
  have hperm : (m.registered (id :: others)).Perm (id :: m.registered others) :=
    List.perm_middle
  refine ⟨hperm.nodup_iff.1 h.nodup, ?_, h.current, ?_, h.live⟩
  · intro id' hne
    rw [← h.known, hperm.mem_iff, List.mem_cons]
    simp [hne]
  · intro id' hid'
    exact h.stopped id' (List.mem_cons_of_mem id hid')

/-- A plugin object that is not registered yet. -/
theorem Split.new {id : Nat} {stop : List Nat} {m : PluginMan} (h : Split stop m)
    (hfind : m.plugins.find? id = none) : SplitBut id stop m := by
  refine ⟨List.nodup_cons.2 ⟨?_, h.nodup⟩, fun id' _ => h.known id', h.current, h.stopped, h.live⟩
  rw [h.known, hfind]
  simp

/-- The plugin gets into the list. -/
theorem SplitBut.putStop {id : Nat} {stop : List Nat} {m : PluginMan} (h : SplitBut id stop m)
    {p : Plugin} (hpid : p.pid = K2HFT_INVALID_PID) : Split (id :: stop) (m.setPlugin id p) := by
  have hperm : ((m.setPlugin id p).registered (id :: stop)).Perm (id :: m.registered stop) :=
    List.perm_middle
  rcases List.nodup_cons.1 h.nodup with ⟨hnot, -⟩
  refine ⟨hperm.nodup_iff.2 h.nodup, ?_, ?_, ?_, h.live⟩
  · intro id'
    rw [hperm.mem_iff, List.mem_cons, setPlugin, OrdMap.find?_insert]
    split
    · rename_i heq
      simp [heq]
    · rename_i hne
      simp only [hne, false_or]
      exact h.known id' hne
  · intro pid id' hrun
    have hne : id' ≠ id := by
      rintro rfl
      exact hnot (List.mem_append_left _ (OrdMap.mem_values_iff.2 ⟨pid, hrun⟩))
    rw [setPlugin, OrdMap.find?_insert_ne _ _ hne]
    exact h.current pid id' hrun
  · intro id' hid' q hq
    rw [setPlugin, OrdMap.find?_insert] at hq
    split at hq
    · rw [← Option.some.inj hq]
      exact hpid
    · rename_i hne
      exact h.stopped id' (List.mem_of_ne_of_mem hne hid') q hq

/-- The plugin gets a process. -/
theorem SplitBut.launch {id : Nat} {stop : List Nat} {m m' : PluginMan} (h : SplitBut id stop m)
    {p : Plugin} (hspawn : m.spawn id (some p.pid) = some m') :
    Split stop ((m'.setPlugin id p).setRunning p.pid id) := by
  rcases List.nodup_cons.1 h.nodup with ⟨hnot, -⟩
  simp only [spawn, Option.ite_none_right_eq_some, Option.some.injEq] at hspawn
  rcases hspawn with ⟨⟨hpos, hfree⟩, rfl⟩
  rw [h.live] at hfree
  have hperm : ((m.run_plugin.insert p.pid id).values ++ stop).Perm (id :: m.registered stop) :=
    (OrdMap.values_insert_of_none hfree id).append_right stop
  refine ⟨hperm.nodup_iff.2 h.nodup, ?_, ?_, ?_, ?_⟩
  · intro id'
    refine hperm.mem_iff.trans ?_
    rw [List.mem_cons]
    simp only [setRunning, setPlugin]
    rw [OrdMap.find?_insert]
    split
    · rename_i heq
      simp [heq]
    · rename_i hne
      simp only [hne, false_or]
      exact h.known id' hne
  · intro pid id' hrun
    simp only [setRunning, setPlugin] at hrun ⊢
    rw [OrdMap.find?_insert] at hrun
    split at hrun
    · rename_i heq
      rw [← Option.some.inj hrun, OrdMap.find?_insert_self]
      exact ⟨heq ▸ hpos, p, rfl, heq.symm⟩
    · have hne : id' ≠ id := by
        rintro rfl
        exact hnot (List.mem_append_left _ (OrdMap.mem_values_iff.2 ⟨pid, hrun⟩))
      rw [OrdMap.find?_insert_ne _ _ hne]
      exact h.current pid id' hrun
  · intro id' hid' q hq
    have hne : id' ≠ id := by
      rintro rfl
      exact hnot (List.mem_append_right _ hid')
    simp only [setRunning, setPlugin] at hq
    rw [OrdMap.find?_insert_ne _ _ hne] at hq
    exact h.stopped id' hid' q hq
  · simp only [setRunning, setPlugin, h.live]

/-! ## RunPlugins -/

theorem spawn_none_of_invalid (m : PluginMan) (id : Nat) :
    m.spawn id (some K2HFT_INVALID_PID) = none := by
  have hneg : ¬ (0 : Pid) < K2HFT_INVALID_PID := by decide
  simp [spawn, hneg]

/-- One round of `RunPlugins` over a plugin of the list. -/
theorem Split.runOne {id : Nat} {others : List Nat} {m m' : PluginMan} {moved : Bool}
    (h : Split (id :: others) m) {env : RunEnv} (henv : env.OpensPipe)
    (hrun : m.runOne env id = some (m', moved)) :
    Split (if moved then others else id :: others) m' := by
  unfold PluginMan.runOne at hrun
  rcases hfind : m.plugins.find? id with _ | p
  · simp only [hfind, Option.some.injEq, Prod.mk.injEq] at hrun
    rcases hrun with ⟨rfl, rfl⟩
    exact h
  · have hpid : p.pid = K2HFT_INVALID_PID := h.stopped id (by simp) p hfind
    simp only [hfind] at hrun
    split at hrun
    · rcases runPlugin_cases m.mountpoint henv p with ⟨hres, hchild⟩ | ⟨hres, hchild, hsame⟩
      · simp only [hres, hchild, if_true, Option.bind_eq_bind, Option.bind_eq_some_iff, pure,
          Option.some.injEq, Prod.mk.injEq] at hrun
        rcases hrun with ⟨m₁, hspawn, rfl, rfl⟩
        exact h.takeOut.launch hspawn
      · -- no child, and the plugin has no pid as before
        simp only [hres, Bool.false_eq_true, if_false, Option.bind_eq_bind, Option.bind_eq_some_iff,
          pure, Option.some.injEq, Prod.mk.injEq] at hrun
        rcases hrun with ⟨m₁, hspawn, rfl, rfl⟩
        have hm : m₁ = m := by
          rcases hchild with hchild | hchild
          · rw [hchild] at hspawn
            exact (Option.some.inj hspawn).symm
          · rw [hchild, spawn_none_of_invalid] at hspawn
            cases hspawn
        rw [hm]
        have hkeep : (runPlugin m.mountpoint env p).plugin.pid = p.pid := by
          rcases hsame with hsame | hsame
          · exact hsame
          · rw [hsame, hpid]
        exact h.update hfind hkeep
    · simp only [Option.some.injEq, Prod.mk.injEq] at hrun
      rcases hrun with ⟨rfl, rfl⟩
      exact h

/-- The loop of `RunPlugins`; `done` are the plugins that stayed in the list so far. -/
theorem Split.runStopped {env : Nat → RunEnv} (henv : ∀ n, (env n).OpensPipe) {done todo : List Nat}
    {m m' : PluginMan} {kept : List Nat} (h : Split (done ++ todo) m)
    (hrun : PluginMan.runStopped env m todo = some (m', kept)) : Split (done ++ kept) m' := by
  induction todo generalizing env done m kept with
  | nil =>
      simp only [PluginMan.runStopped, Option.some.injEq, Prod.mk.injEq] at hrun
      rcases hrun with ⟨rfl, rfl⟩
      exact h
  | cons id rest ih =>
      simp only [PluginMan.runStopped, Option.bind_eq_bind, Option.bind_eq_some_iff] at hrun
      rcases hrun with ⟨⟨m₁, moved⟩, hone, ⟨m₂, kept₂⟩, hrest, hlast⟩
      have hmiddle : (done ++ id :: rest).Perm (id :: (done ++ rest)) := List.perm_middle
      have hone' := (h.perm hmiddle).runOne (henv 0) hone
      simp only [pure, Option.some.injEq, Prod.mk.injEq] at hlast
      rcases hlast with ⟨rfl, rfl⟩
      cases moved with
      | true =>
          exact ih (fun n => henv (n + 1)) hone' hrest
      | false =>
          have hshift : (id :: (done ++ rest)).Perm ((done ++ [id]) ++ rest) := by
            simpa using hmiddle.symm
          have hrest' := ih (fun n => henv (n + 1)) (hone'.perm hshift) hrest
          simpa using hrest'

/-- What holds between operations. -/
def Inv (m : PluginMan) : Prop := Split m.stop_plugin m

theorem inv_runPlugins {env : Nat → RunEnv} (henv : ∀ n, (env n).OpensPipe) {m m' : PluginMan}
    (h : m.Inv) (hrun : m.runPlugins env = some m') : m'.Inv := by
  simp only [runPlugins, Option.bind_eq_bind, Option.bind_eq_some_iff, pure,
    Option.some.injEq] at hrun
  rcases hrun with ⟨⟨m₁, kept⟩, hloop, rfl⟩
  have hstart : Split ([] ++ m.stop_plugin) m := h
  have hsplit := hstart.runStopped henv hloop
  exact ⟨hsplit.nodup, hsplit.known, hsplit.current, hsplit.stopped, hsplit.live⟩

/-! ## Children that exit -/

/-- A process and its entry in `run_plugin` go. -/
def dropProcess (m : PluginMan) (pid : Pid) : PluginMan :=
  { m with
    live := m.live.erase pid
    run_plugin := m.run_plugin.erase pid }

theorem Split.dropProcess {stop : List Nat} {m : PluginMan} (h : Split stop m) {pid : Pid} {id : Nat}
    (hrun : m.run_plugin.find? pid = some id) :
    SplitBut id stop (m.dropProcess pid) := by
  have hvalues := OrdMap.values_perm_of_find? hrun
  have hperm : (m.registered stop).Perm (id :: (m.dropProcess pid).registered stop) :=
    hvalues.append_right stop
  refine ⟨hperm.nodup_iff.1 h.nodup, ?_, ?_, h.stopped, ?_⟩
  · intro id' hne
    refine Iff.trans ?_ (h.known id')
    rw [hperm.mem_iff, List.mem_cons]
    simp [hne]
  · intro pid' id' hfind
    simp only [PluginMan.dropProcess, OrdMap.find?_erase] at hfind
    split at hfind
    · cases hfind
    · exact h.current pid' id' hfind
  · simp only [PluginMan.dropProcess, h.live]

/-- The exit of a child whose pid `run_plugin` knows. -/
theorem childExit_eq {m : PluginMan} {pid : Pid} {id : Nat} {p : Plugin}
    (hlive : m.live = m.run_plugin) (hrun : m.run_plugin.find? pid = some id)
    (hfind : m.plugins.find? id = some p) (exitstatus : Int32) (do_restart : Bool)
    (env : Nat → RunEnv) :
    m.childExit pid exitstatus do_restart env =
      if do_restart then
        (((m.dropProcess pid).setPlugin id (p.exited exitstatus)).pushStop id).runPlugins env
      else
        some (((m.dropProcess pid).setPlugin id (p.exited exitstatus)).pushStop id) := by
  have hlive' : m.live.find? pid = some id := by rw [hlive, hrun]
  have hmove : ({ m with live := m.live.erase pid } : PluginMan).moveToStop pid exitstatus =
      (((m.dropProcess pid).setPlugin id (p.exited exitstatus)).pushStop id, true) := by
    simp [moveToStop, hrun, hfind, PluginMan.dropProcess]
  simp [childExit, hlive', hmove]

theorem inv_childExit {m m' : PluginMan} (h : m.Inv) {pid : Pid} {exitstatus : Int32}
    {do_restart : Bool} {env : Nat → RunEnv} (henv : ∀ n, (env n).OpensPipe)
    (hexit : m.childExit pid exitstatus do_restart env = some m') : m'.Inv := by
  rcases hlive : m.live.find? pid with _ | id
  · simp [childExit, hlive] at hexit
  · have hrun : m.run_plugin.find? pid = some id := by rw [← h.live, hlive]
    rcases h.current pid id hrun with ⟨-, p, hfind, -⟩
    rw [childExit_eq h.live hrun hfind] at hexit
    -- the plugin of the process goes to the end of the stop list
    have hlast : (id :: m.stop_plugin).Perm (m.stop_plugin ++ [id]) :=
      (List.perm_append_singleton id m.stop_plugin).symm
    have hsplit := ((h.dropProcess hrun).putStop (p := p.exited exitstatus) rfl).perm hlast
    have hinv : (((m.dropProcess pid).setPlugin id (p.exited exitstatus)).pushStop id).Inv :=
      ⟨hsplit.nodup, hsplit.known, hsplit.current, hsplit.stopped, hsplit.live⟩
    split at hexit
    · exact inv_runPlugins henv hinv hexit
    · rw [← Option.some.inj hexit]
      exact hinv

/-! ## A plugin that must not restart -/

/-- The mount point stays, and so does the plugin `id`. -/
def Keeps (id : Nat) (p : Plugin) (m m' : PluginMan) : Prop :=
  m'.mountpoint = m.mountpoint ∧ m'.plugins.find? id = some p

theorem runOne_keeps {env : RunEnv} {m m' : PluginMan} {id id' : Nat} {moved : Bool} {p : Plugin}
    (hfind : m.plugins.find? id = some p) (hrestart : p.auto_restart = false)
    (hrun : m.runOne env id' = some (m', moved)) : Keeps id p m m' := by
  unfold PluginMan.runOne at hrun
  rcases hfind' : m.plugins.find? id' with _ | p'
  · simp only [hfind', Option.some.injEq, Prod.mk.injEq] at hrun
    rw [← hrun.1]
    exact ⟨rfl, hfind⟩
  · simp only [hfind'] at hrun
    split at hrun
    · rename_i hok
      -- the plugin that is started is another one
      have hne : id ≠ id' := by
        rintro rfl
        rw [hfind] at hfind'
        rw [← Option.some.inj hfind', hrestart] at hok
        exact absurd hok.2 (by decide)
      simp only [Option.bind_eq_bind, Option.bind_eq_some_iff] at hrun
      rcases hrun with ⟨m₁, hspawn, hlast⟩
      rcases spawn_frame hspawn with ⟨hmount, hplugins, -, -⟩
      split at hlast <;>
        (simp only [pure, Option.some.injEq, Prod.mk.injEq] at hlast
         rw [← hlast.1]
         refine ⟨hmount, ?_⟩
         simp only [setRunning, PluginMan.setPlugin, hplugins]
         rw [OrdMap.find?_insert_ne _ _ hne, hfind])
    · simp only [Option.some.injEq, Prod.mk.injEq] at hrun
      rw [← hrun.1]
      exact ⟨rfl, hfind⟩

theorem runStopped_keeps {env : Nat → RunEnv} {todo kept : List Nat} {m m' : PluginMan} {id : Nat}
    {p : Plugin} (hfind : m.plugins.find? id = some p) (hrestart : p.auto_restart = false)
    (hrun : PluginMan.runStopped env m todo = some (m', kept)) : Keeps id p m m' := by
  induction todo generalizing env m kept with
  | nil =>
      simp only [PluginMan.runStopped, Option.some.injEq, Prod.mk.injEq] at hrun
      rw [← hrun.1]
      exact ⟨rfl, hfind⟩
  | cons id' rest ih =>
      simp only [PluginMan.runStopped, Option.bind_eq_bind, Option.bind_eq_some_iff] at hrun
      rcases hrun with ⟨⟨m₁, moved⟩, hone, ⟨m₂, kept₂⟩, hrest, hlast⟩
      simp only [pure, Option.some.injEq, Prod.mk.injEq] at hlast
      rcases hlast with ⟨rfl, rfl⟩
      rcases runOne_keeps hfind hrestart hone with ⟨hmount, hfind₁⟩
      rcases ih hfind₁ hrest with ⟨hmount', hfind'⟩
      exact ⟨hmount'.trans hmount, hfind'⟩

theorem runPlugins_keeps {env : Nat → RunEnv} {m m' : PluginMan}
    (hrun : m.runPlugins env = some m') {id : Nat} {p : Plugin}
    (hfind : m.plugins.find? id = some p) (hrestart : p.auto_restart = false) : Keeps id p m m' := by
  simp only [runPlugins, Option.bind_eq_bind, Option.bind_eq_some_iff, pure,
    Option.some.injEq] at hrun
  rcases hrun with ⟨⟨m₁, kept⟩, hloop, rfl⟩
  have hkeeps := runStopped_keeps hfind hrestart hloop
  exact hkeeps

/-! ## Killing a plugin -/

/-- The child exits within the wait, and the restarts that this causes open their pipes. -/
def KillEnv.Exits : KillEnv → Prop
  | .exits _ _ env => ∀ n, (env n).OpensPipe
  | _ => False

/-- A registered plugin with a pid runs under it. -/
theorem Inv.mem_run {m : PluginMan} (h : m.Inv) {id : Nat} {p : Plugin}
    (hfind : m.plugins.find? id = some p) (hpid : p.pid ≠ K2HFT_INVALID_PID) :
    m.run_plugin.find? p.pid = some id := by
  have hreg : id ∈ m.registered m.stop_plugin := (h.known id).2 (by simp [hfind])
  rcases List.mem_append.1 hreg with hrun | hstop
  · rcases OrdMap.mem_values_iff.1 hrun with ⟨pid, hrun⟩
    rcases h.current pid id hrun with ⟨-, q, hq, hqpid⟩
    rw [hfind] at hq
    rw [Option.some.inj hq, hqpid, hrun]
  · exact absurd (h.stopped id hstop p hfind) hpid

theorem Inv.update {m : PluginMan} (h : m.Inv) {id : Nat} {p p' : Plugin}
    (hfind : m.plugins.find? id = some p) (hpid : p'.pid = p.pid) : (m.setPlugin id p').Inv :=
  Split.update h hfind hpid

/-- The plugin has no pid any more, and the paths that it had. -/
structure Stopped (p : Plugin) (id : Nat) (m m' : PluginMan) : Prop where
  mountpoint : m'.mountpoint = m.mountpoint
  plugin : ∃ p', m'.plugins.find? id = some p' ∧ p'.pid = K2HFT_INVALID_PID ∧
    p'.OutputPath = p.OutputPath ∧ p'.PipeFilePath = p.PipeFilePath

/-- A kill that ends the child leaves the plugin without a pid. -/
theorem inv_killPlugin {m m' : PluginMan} (h : m.Inv) {id : Nat} {p : Plugin}
    (hfind : m.plugins.find? id = some p) {kill : KillEnv} (hkill : kill.Exits) {killed : Bool}
    (hrun : m.killPlugin id kill = some (m', killed)) :
    m'.Inv ∧ killed = true ∧ Stopped p id m m' := by
  simp only [killPlugin, hfind, Option.bind_eq_bind, Option.bind_some] at hrun
  by_cases hpid : p.pid = K2HFT_INVALID_PID
  · simp only [if_pos hpid, pure, Option.some.injEq, Prod.mk.injEq] at hrun
    rcases hrun with ⟨rfl, rfl⟩
    exact ⟨h, rfl, rfl, p, hfind, hpid, rfl, rfl⟩
  · simp only [if_neg hpid] at hrun
    cases kill with
    | refused =>
        exact hkill.elim
    | refusedHup =>
        exact hkill.elim
    | gaveUp =>
        exact hkill.elim
    | exits exitstatus do_restart env =>
        simp only [Option.bind_eq_some_iff, pure, Option.some.injEq, Prod.mk.injEq] at hrun
        rcases hrun with ⟨m₁, hexit, q, hq, rfl, rfl⟩
        have hflag : (m.setPlugin id { p with auto_restart := false }).Inv := h.update hfind rfl
        have hinv := inv_childExit hflag hkill hexit
        have hrunning := h.mem_run hfind hpid
        rw [childExit_eq hflag.live hrunning (find?_setPlugin_self _ _ _)] at hexit
        -- it is in the stop list now, without the flag that lets it restart
        have hkeeps : Keeps id (Plugin.exited { p with auto_restart := false } exitstatus) m m₁ := by
          split at hexit
          · have hrestarts := runPlugins_keeps hexit (find?_setPlugin_self _ _ _) rfl
            exact ⟨hrestarts.1, hrestarts.2⟩
          · rw [← Option.some.inj hexit]
            exact ⟨rfl, find?_setPlugin_self _ _ _⟩
        rw [hkeeps.2] at hq
        rw [← Option.some.inj hq]
        exact ⟨hinv, by simp [Plugin.exited], hkeeps.1, _, hkeeps.2, rfl, rfl, rfl⟩

theorem inv_stopPlugin {m m' : PluginMan} (h : m.Inv) {id : Nat} {p : Plugin}
    (hfind : m.plugins.find? id = some p) {kill : KillEnv} (hkill : kill.Exits) {stopped : Bool}
    (hrun : m.stopPlugin id kill = some (m', stopped)) :
    m'.Inv ∧ (stopped = true → Stopped p id m m') := by
  simp only [stopPlugin, hfind] at hrun
  split at hrun
  · simp only [Option.some.injEq, Prod.mk.injEq] at hrun
    rcases hrun with ⟨rfl, rfl⟩
    exact ⟨h, by simp⟩
  · split at hrun
    · rename_i hpid
      simp only [Option.some.injEq, Prod.mk.injEq] at hrun
      rcases hrun with ⟨rfl, rfl⟩
      exact ⟨h, fun _ => ⟨rfl, p, hfind, hpid, rfl, rfl⟩⟩
    · rename_i hpid
      split at hrun
      · rcases Option.map_eq_some_iff.1 hrun with ⟨⟨m₁, killed⟩, hone, hlast⟩
        rcases Prod.mk.inj hlast with ⟨rfl, rfl⟩
        rcases inv_killPlugin h hfind hkill hone with ⟨hinv, -, hstopped⟩
        exact ⟨hinv, fun _ => hstopped⟩
      · -- a plugin with a pid is found in `run_plugin`
        rename_i hnot
        exact absurd (OrdMap.mem_values_iff.2 ⟨p.pid, h.mem_run hfind hpid⟩) hnot

/-- The loop of `StopPlugins` over registered plugins ends without an error. -/
theorem inv_stopLoop {kills : Nat → KillEnv} (hkills : ∀ n, (kills n).Exits) {todo : List Nat}
    {m m' : PluginMan} {is_error : Bool} (h : m.Inv)
    (hrun : stopLoop kills m todo = some (m', is_error)) : m'.Inv ∧ is_error = false := by
  induction todo generalizing kills m is_error with
  | nil =>
      simp only [stopLoop, Option.some.injEq, Prod.mk.injEq] at hrun
      rcases hrun with ⟨rfl, rfl⟩
      exact ⟨h, rfl⟩
  | cons id rest ih =>
      simp only [stopLoop, Option.bind_eq_bind, Option.bind_eq_some_iff] at hrun
      rcases hrun with ⟨⟨m₁, killed⟩, hone, p, hp, ⟨m₂, err⟩, hrest, hlast⟩
      rcases hfind : m.plugins.find? id with _ | q
      · simp [killPlugin, hfind] at hone
      rcases inv_killPlugin h hfind (hkills 0) hone with ⟨hinv, rfl, -⟩
      simp only [if_true] at hrest
      have hclosed : (m₁.setPlugin id p.closePipe).Inv := hinv.update hp rfl
      simp only [pure, Option.some.injEq, Prod.mk.injEq] at hlast
      rcases hlast with ⟨rfl, rfl⟩
      rcases ih (fun n => hkills (n + 1)) hclosed hrest with ⟨hinv', herr⟩
      exact ⟨hinv', by rw [herr]; rfl⟩

theorem inv_stopPlugins {kills : Nat → KillEnv} (hkills : ∀ n, (kills n).Exits) {m m' : PluginMan}
    (h : m.Inv) (hrun : m.stopPlugins kills = some m') : m'.Inv := by
  simp only [stopPlugins, Option.bind_eq_bind, Option.bind_eq_some_iff] at hrun
  rcases hrun with ⟨⟨m₁, is_error⟩, hloop, hlast⟩
  rcases inv_stopLoop hkills h hloop with ⟨hinv, rfl⟩
  simp only [Bool.false_eq_true, if_false, pure, Option.some.injEq] at hlast
  rw [← hlast]
  exact hinv

/-! ## The other operations -/

theorem inv_addPluginInfo {m m' : PluginMan} (h : m.Inv) {id : Nat} {p : Plugin} {parse : Bool}
    {pipe : Option Bytes} (hadd : m.addPluginInfo id p parse pipe = some m') : m'.Inv := by
  unfold addPluginInfo at hadd
  rcases hfind : m.plugins.find? id with _ | old
  · simp only [hfind] at hadd
    by_cases hbase : p.BaseParam = []
    · rw [if_pos hbase] at hadd
      rw [← Option.some.inj hadd]
      exact h
    · rw [if_neg hbase] at hadd
      cases parse with
      | false =>
          rw [← Option.some.inj hadd]
          exact h
      | true =>
          rcases pipe with _ | path
          · rw [← Option.some.inj hadd]
            exact h
          · rw [← Option.some.inj hadd]
            have hlast : (id :: m.stop_plugin).Perm (m.stop_plugin ++ [id]) :=
              (List.perm_append_singleton id m.stop_plugin).symm
            have hsplit := ((Split.new h hfind).putStop (p := p.initAdd path) rfl).perm hlast
            exact ⟨hsplit.nodup, hsplit.known, hsplit.current, hsplit.stopped, hsplit.live⟩
  · simp [hfind] at hadd

theorem inv_runAddPlugin {m m' : PluginMan} (h : m.Inv) {id : Nat} {p : Plugin} {env : RunEnv}
    (henv : env.OpensPipe) (hadd : m.runAddPlugin id p env = some m') : m'.Inv := by
  unfold runAddPlugin at hadd
  rcases hfind : m.plugins.find? id with _ | old
  · simp only [hfind] at hadd
    rcases runPlugin_cases m.mountpoint henv p with ⟨hres, hchild⟩ | ⟨hres, hchild, -⟩
    · simp only [hres, hchild, if_true, Option.bind_eq_bind, Option.bind_eq_some_iff, pure,
        Option.some.injEq] at hadd
      rcases hadd with ⟨m₁, hspawn, rfl⟩
      have hsplit := (Split.new h hfind).launch hspawn
      rw [← (spawn_frame hspawn).2.2.2] at hsplit
      exact hsplit
    · simp only [hres, Bool.false_eq_true, if_false, Option.bind_eq_bind, Option.bind_eq_some_iff,
        pure, Option.some.injEq] at hadd
      rcases hadd with ⟨m₁, hspawn, rfl⟩
      rcases hchild with hchild | hchild
      · rw [hchild] at hspawn
        rw [← Option.some.inj hspawn]
        exact h
      · rw [hchild, spawn_none_of_invalid] at hspawn
        cases hspawn
  · simp [hfind] at hadd

/-- A `Write` with a new output file whose plugin is stopped and not started again. -/
theorem inv_write {m m' : PluginMan} (h : m.Inv) {id : Nat} {data : Bytes} {find : Bool}
    {kill : KillEnv} {env : RunEnv}
    (hok : ∀ p, m.plugins.find? id = some p → p.not_execute = false → data ≠ [] →
      needsNoOutput m.mountpoint p = false → find = false → kill.Exits ∧ ¬ env.Starts p)
    (hwrite : m.write id data find kill env = some m') : m'.Inv := by
  rcases Option.map_eq_some_iff.1 hwrite with ⟨⟨m₂, ready⟩, hprepare, rfl⟩
  unfold prepareWrite at hprepare
  rcases hfind : m.plugins.find? id with _ | p
  · simp only [hfind] at hprepare
    cases hprepare
    exact h
  · simp only [hfind] at hprepare
    by_cases hdata : data = []
    · rw [if_pos hdata] at hprepare
      cases hprepare
      exact h
    · rw [if_neg hdata] at hprepare
      split at hprepare
      · cases hprepare
        exact h
      · rename_i hreplaced
        simp only [Bool.or_eq_true, not_or, Bool.not_eq_true] at hreplaced
        simp only [restart, Option.bind_eq_bind, Option.bind_eq_some_iff] at hprepare
        rcases hprepare with ⟨⟨m₁, stopped⟩, hstop, hprepare⟩
        by_cases hexec : p.not_execute = true
        · simp only [stopPlugin, hfind, if_pos hexec, Option.some.injEq, Prod.mk.injEq] at hstop
          rcases hstop with ⟨rfl, rfl⟩
          cases hprepare
          exact h
        rcases hok p hfind (by simpa using hexec) hdata hreplaced.1 hreplaced.2 with ⟨hkill, hnot⟩
        rcases inv_stopPlugin h hfind hkill hstop with ⟨hinv, hstopped⟩
        cases stopped with
        | false =>
            cases hprepare
            exact hinv
        | true =>
            -- the plugin is in the stop list, and its new run ends without a child
            rcases hstopped rfl with ⟨hmount, p', hp', hpid, hout, hpipe⟩
            have hneeds : needsNoOutput m₁.mountpoint p' = false := by
              rw [← hreplaced.1, needsNoOutput, needsNoOutput, hmount, hout]
            have hnot' : ¬ env.Starts p' := by
              rw [RunEnv.Starts, hpipe]
              exact hnot
            rcases runPlugin_of_not_starts hneeds hnot' with ⟨hres, hchild, hsame⟩
            simp only [if_true, hp', Option.bind_some, hres, hchild, spawn, Bool.false_eq_true,
              if_false, pure] at hprepare
            cases hprepare
            refine hinv.update hp' ?_
            rcases hsame with hsame | hsame
            · exact hsame
            · rw [hsame, hpid]

/-! ## Runs -/

inductive Op
  | addPluginInfo (id : Nat) (p : Plugin) (parse : Bool) (pipe : Option Bytes)
  | runAddPlugin (id : Nat) (p : Plugin) (env : RunEnv)
  | runPlugins (env : Nat → RunEnv)
  | childExit (pid : Pid) (exitstatus : Int32) (do_restart : Bool) (env : Nat → RunEnv)
  | stopPlugins (kills : Nat → KillEnv)
  | write (id : Nat) (data : Bytes) (find : Bool) (kill : KillEnv) (env : RunEnv)

def step (m : PluginMan) : Op → Option PluginMan
  | .addPluginInfo id p parse pipe => m.addPluginInfo id p parse pipe
  | .runAddPlugin id p env => m.runAddPlugin id p env
  | .runPlugins env => m.runPlugins env
  | .childExit pid exitstatus do_restart env => m.childExit pid exitstatus do_restart env
  | .stopPlugins kills => m.stopPlugins kills
  | .write id data find kill env => m.write id data find kill env

/-- Each fork is followed by an open that succeeds, each kill ends its child, and no `Write` whose
output file was replaced gets its plugin started again. -/
def Calm (m : PluginMan) : Op → Prop
  | .addPluginInfo _ _ _ _ => True
  | .runAddPlugin _ _ env => env.OpensPipe
  | .runPlugins env => ∀ n, (env n).OpensPipe
  | .childExit _ _ _ env => ∀ n, (env n).OpensPipe
  | .stopPlugins kills => ∀ n, (kills n).Exits
  | .write id data find kill env =>
      ∀ p, m.plugins.find? id = some p → p.not_execute = false → data ≠ [] →
        needsNoOutput m.mountpoint p = false → find = false → kill.Exits ∧ ¬ env.Starts p

theorem inv_step {m m' : PluginMan} {op : Op} (h : m.Inv) (hcalm : m.Calm op)
    (hstep : m.step op = some m') : m'.Inv := by
  cases op with
  | addPluginInfo id p parse pipe =>
      exact inv_addPluginInfo h hstep
  | runAddPlugin id p env =>
      exact inv_runAddPlugin h hcalm hstep
  | runPlugins env =>
      exact inv_runPlugins hcalm h hstep
  | childExit pid exitstatus do_restart env =>
      exact inv_childExit h hcalm hstep
  | stopPlugins kills =>
      exact inv_stopPlugins hcalm h hstep
  | write id data find kill env =>
      exact inv_write h hcalm hstep

theorem inv_start (mountpoint : Bytes) : (start mountpoint).Inv := by
  refine ⟨List.nodup_nil, ?_, ?_, ?_, rfl⟩
  · intro id
    simp [start, registered, OrdMap.values]
  · intro pid id hrun
    simp [start] at hrun
  · intro id hid
    simp [start] at hid

/-- No plugin occurs twice in `run_plugin` and `stop_plugin` together, a plugin runs under its
current pid only, and no plugin has two processes. -/
def Partitioned (m : PluginMan) : Prop :=
  (m.run_plugin.values ++ m.stop_plugin).Nodup ∧
    (∀ pid id, m.run_plugin.find? pid = some id →
      ∃ p, m.plugins.find? id = some p ∧ p.pid = pid) ∧
    ∀ id pid pid', m.live.find? pid = some id → m.live.find? pid' = some id → pid = pid'

theorem Inv.partitioned {m : PluginMan} (h : m.Inv) : m.Partitioned := by
  refine ⟨h.nodup, fun pid id hrun => (h.current pid id hrun).2, ?_⟩
  intro id pid pid' hpid hpid'
  rw [h.live] at hpid hpid'
  rcases h.current pid id hpid with ⟨-, p, hp, rfl⟩
  rcases h.current pid' id hpid' with ⟨-, p', hp', rfl⟩
  rw [hp] at hp'
  rw [Option.some.inj hp']

/-- Every state of a run of calm operations is partitioned. -/
theorem partitioned_of_calm (mountpoint : Bytes) (ops : List Op) (m : PluginMan)
    (hrun : Transition.run step (start mountpoint) ops = some m)
    (hcalm : Transition.Guarded step Calm (start mountpoint) ops) : m.Partitioned := by
  refine Inv.partitioned (Transition.invariant_run_of_guarded ?_ hcalm hrun (inv_start mountpoint))
  intro m op m' hinv hok hstep
  exact inv_step hinv hok hstep

/-- A plugin is started, restarted after an exit, written to, and stopped. -/
def calmRun : List Op :=
  [.addPluginInfo 0 outPlugin true (some (ascii "/tmp/pipe")),
    .runPlugins fun _ => startsAs 10,
    .childExit 10 0 true fun _ => startsAs 11,
    .write 0 (ascii "a") true .refused (startsAs 12),
    .stopPlugins fun _ => .exits 0 true fun _ => startsAs 13]

theorem partitioned_of_calm_restart :
    ∃ m, Transition.run step (start []) calmRun = some m ∧ m.stop_plugin = [0] ∧
      m.Partitioned := by
  have hends : ((Transition.run step (start []) calmRun).map PluginMan.stop_plugin) = some [0] := by
    decide +kernel
  rcases Option.map_eq_some_iff.1 hends with ⟨m, hrun, hstop⟩
  have hopens : ∀ pid : Pid, (startsAs pid).OpensPipe := fun _ _ => rfl
  refine ⟨m, hrun, hstop, partitioned_of_calm [] calmRun m hrun ?_⟩
  refine ⟨trivial, fun _ _ => ⟨fun _ => hopens 10, fun _ _ => ⟨fun _ => hopens 11, fun _ _ =>
    ⟨?_, fun _ _ => ⟨fun _ _ => hopens 13, fun _ _ => trivial⟩⟩⟩⟩⟩
  intro p _ _ _ _ hfind
  cases hfind

/-- A plugin whose output file is replaced: `Write` stops it and starts it as 11, and the next
`RunPlugins` finds it in the stop list. -/
def replacedRun : List Op :=
  [.runAddPlugin 0 outPlugin (startsAs 10),
    .write 0 (ascii "a") false (.exits 0 true fun _ => startsAs 20) (startsAs 11),
    .runPlugins fun _ => startsAs 12]

theorem write_restart_doubles :
    ∃ m, Transition.run step (start []) replacedRun = some m ∧ m.live.find? 11 = some 0 ∧
      m.live.find? 12 = some 0 ∧ ¬ m.Partitioned := by
  have hends : ((Transition.run step (start []) replacedRun).map PluginMan.live) =
      some ((∅ : OrdMap Pid Nat).insert 11 0 |>.insert 12 0) := by
    decide +kernel
  rcases Option.map_eq_some_iff.1 hends with ⟨m, hrun, hlive⟩
  have hfirst : m.live.find? 11 = some 0 := by
    rw [hlive]
    decide
  have hsecond : m.live.find? 12 = some 0 := by
    rw [hlive]
    decide
  refine ⟨m, hrun, hfirst, hsecond, ?_⟩
  intro hpart
  exact absurd (hpart.2.2 0 11 12 hfirst hsecond) (by decide)

end PluginMan

end K2hFtFuse
