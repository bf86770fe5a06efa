import K2hFtFuse.Lib.HandleTable
import K2hFtFuse.Plugin.Partition

/-!
# Plugin.Handles — the write descriptors of the named pipes

`RunPlugin` sets `pipe_input` to the invalid handle and does not close it; the parent part of
`RunPluginProcess` opens the pipe where it finds the invalid handle; `CleanupChildExit` leaves the
handle open; `StopPlugins` closes it. `HandleMan` is the manager with the descriptors that the
process has open, each with the plugin whose pipe it writes to.

This file defines:
* `runPluginActs` and the acts of each operation: what is forgotten, opened and closed, in order,
* `HandleMan.step`: the operation on the manager, and its acts on the open descriptors,
* `KeepsHandles`: no `RunPlugin` of the operation is given a plugin whose pipe is open.

A restart after the exit of a child is given such a plugin, so it adds a descriptor
(`restart_leaks`). In a run each plugin has one descriptor exactly if no operation does that
(`oneHandle_throughout_iff`).
-/

namespace K2hFtFuse

open ByteSeq

/-! ## What `RunPlugin` opens -/

abbrev PipeAct := HandleAct Nat Int32

/-- The descriptor behind a handle. -/
def validHandle (fd : Int32) : Option Int32 :=
  if fd = K2HFT_INVALID_HANDLE then none else some fd

/-- The descriptor that the parent part of `RunPluginProcess` opens. -/
def openedByProcess (env : RunEnv) (p : Plugin) : Option Int32 :=
  if p.BaseParam = [] ∨ p.PipeFilePath = [] then
    none
  else
    match env.fork with
    | none => none
    | some _ =>
        -- a pipe that is open already is used again
        if p.pipe_input = K2HFT_INVALID_HANDLE then env.openPipe.bind validHandle
        else none

/-- `RunPlugin` resets `pipe_input` before it looks at the output file. -/
def runPluginActs (mountpoint : Bytes) (env : RunEnv) (id : Nat) (p : Plugin) : List PipeAct :=
  if p.BaseParam = [] ∨ p.not_execute then
    []
  else
    .forget id ::
      match checkOutput mountpoint env p.initRun with
      | none => []
      | some p => (openedByProcess env p).toList.map (.acquire id)

theorem checkOutput_pipe_input {mountpoint : Bytes} {env : RunEnv} {p p' : Plugin}
    (h : checkOutput mountpoint env p = some p') : p'.pipe_input = p.pipe_input := by
  unfold checkOutput at h
  split at h
  · rw [← Option.some.inj h]
  · split at h
    · rw [← Option.some.inj h]
    · rcases Option.map_eq_some_iff.1 h with ⟨ids, -, rfl⟩
      rfl

/-- With the invalid handle in `pipe_input`, what is opened is what `pipe_input` becomes. -/
theorem runPluginProcess_opened (env : RunEnv) {p : Plugin}
    (hinput : p.pipe_input = K2HFT_INVALID_HANDLE) :
    validHandle (runPluginProcess env p).2.1 = openedByProcess env p ∧
      ((openedByProcess env p).isSome → (runPluginProcess env p).2.2.isSome) := by
  unfold runPluginProcess openedByProcess
  by_cases hempty : p.BaseParam = [] ∨ p.PipeFilePath = []
  · simp [hempty, hinput, validHandle]
  · rcases env.fork with _ | childpid
    · simp [hempty, hinput, validHandle]
    · rcases env.openPipe with _ | pipe_input
      · simp [hempty, hinput, validHandle]
      · simp [hempty, hinput]

/-- What a `RunPlugin` that gets past the output check takes from `RunPluginProcess`. -/
theorem runPlugin_of_checked {mountpoint : Bytes} {env : RunEnv} {p q : Plugin}
    (hskip : ¬ (p.BaseParam = [] ∨ p.not_execute = true))
    (hcheck : checkOutput mountpoint env p.initRun = some q) :
    (runPlugin mountpoint env p).plugin.pipe_input = (runPluginProcess env q).2.1 ∧
      (runPlugin mountpoint env p).child = (runPluginProcess env q).2.2 := by
  simp only [runPlugin, if_neg hskip, hcheck]
  by_cases hpid : (runPluginProcess env q).1 = K2HFT_INVALID_PID
  · simp [hpid]
  · simp [hpid]

/-- The handle of the plugin after `RunPlugin`, and the child behind an opened pipe. -/
theorem runPlugin_acts (mountpoint : Bytes) (env : RunEnv) (id : Nat) (p : Plugin)
    {held : Nat → Option Int32}
    (hheld : p.BaseParam = [] ∨ p.not_execute = true → held id = validHandle p.pipe_input) :
    Function.update held id (validHandle (runPlugin mountpoint env p).plugin.pipe_input) =
        (runPluginActs mountpoint env id p).foldl HandleTable.hold held ∧
      ∀ id' fd, .acquire id' fd ∈ runPluginActs mountpoint env id p →
        id' = id ∧ (runPlugin mountpoint env p).child.isSome := by
  -- `RunPlugin` returns before it resets the handle
  by_cases hskip : p.BaseParam = [] ∨ p.not_execute = true
  · simp only [runPlugin, runPluginActs, if_pos hskip, ← hheld hskip, Function.update_eq_self]
    exact ⟨rfl, by simp⟩
  · rcases hcheck : checkOutput mountpoint env p.initRun with _ | q
    · simp only [runPlugin, runPluginActs, if_neg hskip, hcheck]
      exact ⟨rfl, by simp⟩
    · have hinput : q.pipe_input = K2HFT_INVALID_HANDLE := checkOutput_pipe_input hcheck
      rcases runPluginProcess_opened env hinput with ⟨hopened, hchild⟩
      rcases runPlugin_of_checked hskip hcheck with ⟨hpipe, hchild'⟩
      simp only [runPluginActs, if_neg hskip, hcheck, hpipe, hopened, hchild']
      cases hopen : openedByProcess env q with
      | none =>
          exact ⟨rfl, by simp⟩
      | some fd =>
          -- the slot was emptied before
          rw [hopen] at hchild
          refine ⟨by simp [HandleTable.hold], ?_⟩
          intro id' fd' hmem
          simp only [Option.toList_some, List.map_cons, List.map_nil, List.mem_cons, reduceCtorEq,
            HandleAct.acquire.injEq, List.not_mem_nil, or_false, false_or] at hmem
          exact ⟨hmem.1, hchild rfl⟩

/-- A `RunPlugin` that fails leaves no pipe open. -/
theorem runPlugin_failed {mountpoint : Bytes} {env : RunEnv} {p : Plugin}
    (hskip : ¬ (p.BaseParam = [] ∨ p.not_execute = true))
    (hres : (runPlugin mountpoint env p).result = false)
    (hchild : (runPlugin mountpoint env p).child ≠ some K2HFT_INVALID_PID) :
    validHandle (runPlugin mountpoint env p).plugin.pipe_input = none := by
  rcases hcheck : checkOutput mountpoint env p.initRun with _ | q
  · simp only [runPlugin, if_neg hskip, hcheck]
    rfl
  · have hinput : q.pipe_input = K2HFT_INVALID_HANDLE := checkOutput_pipe_input hcheck
    rcases runPlugin_of_checked hskip hcheck with ⟨hpipe, hchild'⟩
    rw [hpipe, (runPluginProcess_opened env hinput).1]
    rw [hchild'] at hchild
    have hpid : (runPluginProcess env q).1 = K2HFT_INVALID_PID := by
      by_contra hpid
      simp [runPlugin, if_neg hskip, hcheck, hpid] at hres
    -- with a child and its pipe open, the pid is that of the child
    unfold runPluginProcess at hpid hchild
    unfold openedByProcess
    by_cases hempty : q.BaseParam = [] ∨ q.PipeFilePath = []
    · simp [hempty]
    · rcases hfork : env.fork with _ | childpid
      · simp [hempty]
      · rcases hopen : env.openPipe with _ | pipe_input
        · simp [hempty]
        · simp only [if_neg hempty, hfork, hinput, if_true, hopen] at hpid hchild
          exact absurd (congrArg some hpid) hchild

/-! ## The acts of the operations -/

namespace PluginMan

/-- The descriptor behind the handle of each plugin. -/
def pipes (m : PluginMan) (id : Nat) : Option Int32 :=
  (m.plugins.find? id).bind fun p => validHandle p.pipe_input

def runOneActs (m : PluginMan) (env : RunEnv) (id : Nat) : List PipeAct :=
  match m.plugins.find? id with
  | none => []
  | some p =>
      if p.not_execute = false ∧ p.auto_restart = true then
        runPluginActs m.mountpoint env id p
      else
        -- the plugin stays in the stop list
        []

def runStoppedActs : (Nat → RunEnv) → PluginMan → List Nat → List PipeAct
  | _, _, [] => []
  | env, m, id :: rest =>
      m.runOneActs (env 0) id ++
        match m.runOne (env 0) id with
        | none => []
        | some (m, _) => runStoppedActs (fun n => env (n + 1)) m rest

def runPluginsActs (m : PluginMan) (env : Nat → RunEnv) : List PipeAct :=
  runStoppedActs env m m.stop_plugin

/-- `CleanupChildExit` does not close the pipe. -/
def childExitActs (m : PluginMan) (childpid : Pid) (exitstatus : Int32) (do_restart : Bool)
    (env : Nat → RunEnv) : List PipeAct :=
  let (m, found) := ({ m with live := m.live.erase childpid }).moveToStop childpid exitstatus
  -- the restart finds the handle still open, and `RunPlugin` resets it
  if found && do_restart then m.runPluginsActs env else []

def killPluginActs (m : PluginMan) (id : Nat) (kill : KillEnv) : List PipeAct :=
  match m.plugins.find? id with
  | none => []
  | some p =>
      if p.pid = K2HFT_INVALID_PID then
        []
      else
        match kill with
        | .exits exitstatus do_restart env =>
            (m.setPlugin id { p with auto_restart := false }).childExitActs p.pid exitstatus
              do_restart env
        | _ => []

def stopPluginActs (m : PluginMan) (id : Nat) (kill : KillEnv) : List PipeAct :=
  match m.plugins.find? id with
  | none => []
  | some p =>
      if p.not_execute then
        []
      else if p.pid = K2HFT_INVALID_PID then
        []
      else if id ∈ m.run_plugin.values then
        m.killPluginActs id kill
      else
        []

/-- One round of the loop of `StopPlugins`. -/
def stopOne (m : PluginMan) (id : Nat) (kill : KillEnv) : Option (PluginMan × Bool) := do
  let (m, killed) ← m.killPlugin id kill
  let p ← m.plugins.find? id
  let m :=
    if killed then m.setPlugin id p.closePipe
    else (m.setPlugin id p.forced.closePipe).pushStop id
  return (m, killed)

theorem stopLoop_cons (kills : Nat → KillEnv) (m : PluginMan) (id : Nat) (rest : List Nat) :
    stopLoop kills m (id :: rest) =
      (m.stopOne id (kills 0)).bind fun (m, killed) =>
        (stopLoop (fun n => kills (n + 1)) m rest).map fun (m, is_error) =>
          (m, is_error || !killed) := by
  simp only [stopLoop, stopOne, Option.bind_eq_bind, Option.bind_assoc, pure, Option.bind_some,
    Option.map_eq_bind, Function.comp_def]

/-- The pipe is closed whether the kill went well or not. -/
def stopLoopActs : (Nat → KillEnv) → PluginMan → List Nat → List PipeAct
  | _, _, [] => []
  | kills, m, id :: rest =>
      m.killPluginActs id (kills 0) ++ .close id ::
        match m.stopOne id (kills 0) with
        | none => []
        | some (m, _) => stopLoopActs (fun n => kills (n + 1)) m rest

def stopPluginsActs (m : PluginMan) (kills : Nat → KillEnv) : List PipeAct :=
  stopLoopActs kills m m.run_plugin.values

def writeActs (m : PluginMan) (id : Nat) (data : Bytes) (find : Bool) (kill : KillEnv)
    (env : RunEnv) : List PipeAct :=
  match m.plugins.find? id with
  | none => []
  | some p =>
      if data = [] then
        []
      else if needsNoOutput m.mountpoint p || find then
        []
      else
        -- `StopPlugin` does not close the pipe, and `RunPlugin` follows
        m.stopPluginActs id kill ++
          match m.stopPlugin id kill with
          | some (m, true) =>
              match m.plugins.find? id with
              | none => []
              | some p => runPluginActs m.mountpoint env id p
          | _ => []

/-- What an operation does with the descriptors of the named pipes, in order. -/
def acts (m : PluginMan) : Op → List PipeAct
  | .addPluginInfo _ _ _ _ => []
  | .runAddPlugin id p env => runPluginActs m.mountpoint env id p
  | .runPlugins env => m.runPluginsActs env
  | .childExit pid exitstatus do_restart env => m.childExitActs pid exitstatus do_restart env
  | .stopPlugins kills => m.stopPluginsActs kills
  | .write id data find kill env => m.writeActs id data find kill env

/-! ## The operations follow their acts -/

/-- The acts account for the handles of the plugins, and each opened pipe has a fork. -/
structure Traced (m m' : PluginMan) (acts : List PipeAct) : Prop where
  pipes : m'.pipes = acts.foldl HandleTable.hold m.pipes
  forked : ∃ forks, m'.forked = m.forked ++ forks ∧
    ∀ id fd, .acquire id fd ∈ acts → ∃ pid, (pid, id) ∈ forks

theorem Traced.nil {m m' : PluginMan} (hpipes : m'.pipes = m.pipes) (hforked : m'.forked = m.forked) :
    Traced m m' [] :=
  ⟨hpipes, [], by simp [hforked], by simp⟩

/-- An operation that returns at once. -/
theorem Traced.of_eq {m m' : PluginMan} (h : m = m') : Traced m m' [] := by
  rw [← h]
  exact Traced.nil rfl rfl

theorem Traced.trans {m m₁ m' : PluginMan} {acts acts' : List PipeAct} (h : Traced m m₁ acts)
    (h' : Traced m₁ m' acts') : Traced m m' (acts ++ acts') := by
  rcases h.forked with ⟨forks, hforks, hacts⟩
  rcases h'.forked with ⟨forks', hforks', hacts'⟩
  refine ⟨by rw [h'.pipes, h.pipes, List.foldl_append], forks ++ forks', ?_, ?_⟩
  · rw [hforks', hforks, List.append_assoc]
  · intro id fd hmem
    rcases List.mem_append.1 hmem with hmem | hmem
    · rcases hacts id fd hmem with ⟨pid, hpid⟩
      exact ⟨pid, List.mem_append_left _ hpid⟩
    · rcases hacts' id fd hmem with ⟨pid, hpid⟩
      exact ⟨pid, List.mem_append_right _ hpid⟩

theorem pipes_setPlugin (m : PluginMan) (id : Nat) (p : Plugin) :
    (m.setPlugin id p).pipes = Function.update m.pipes id (validHandle p.pipe_input) := by
  funext id'
  simp only [pipes, setPlugin, OrdMap.find?_insert, Function.update_apply]
  split
  · rfl
  · rfl

/-- A change to a plugin that leaves its handle alone. -/
theorem pipes_setPlugin_of_eq {m : PluginMan} {id : Nat} {p p' : Plugin}
    (hfind : m.plugins.find? id = some p) (hpipe : p'.pipe_input = p.pipe_input) :
    (m.setPlugin id p').pipes = m.pipes := by
  have hheld : m.pipes id = validHandle p'.pipe_input := by simp [pipes, hfind, hpipe]
  rw [pipes_setPlugin, ← hheld, Function.update_eq_self]

theorem pipes_eq_of_plugins {m m' : PluginMan} (h : m'.plugins = m.plugins) : m'.pipes = m.pipes := by
  funext id
  simp only [pipes, h]

theorem forked_spawn {m m' : PluginMan} {id : Nat} {child : Option Pid}
    (h : m.spawn id child = some m') :
    m'.forked = m.forked ++ child.toList.map fun pid => (pid, id) := by
  rcases child with _ | pid
  · rw [← Option.some.inj h]
    simp
  · simp only [spawn, Option.ite_none_right_eq_some, Option.some.injEq] at h
    rw [← h.2]
    rfl

/-- `RunPlugin` as part of an operation that leaves the handles of the others alone. -/
theorem Traced.runPlugin {m m' : PluginMan} {id : Nat} {p : Plugin} {env : RunEnv}
    (hheld : p.BaseParam = [] ∨ p.not_execute = true → m.pipes id = validHandle p.pipe_input)
    (hpipes : m'.pipes = Function.update m.pipes id
      (validHandle (K2hFtFuse.runPlugin m.mountpoint env p).plugin.pipe_input))
    (hforked : m'.forked = m.forked ++
      (K2hFtFuse.runPlugin m.mountpoint env p).child.toList.map fun pid => (pid, id)) :
    Traced m m' (runPluginActs m.mountpoint env id p) := by
  rcases runPlugin_acts m.mountpoint env id p hheld with ⟨hacts, hopened⟩
  refine ⟨hpipes.trans hacts, _, hforked, ?_⟩
  intro id' fd hmem
  rcases hopened id' fd hmem with ⟨rfl, hchild⟩
  rcases Option.isSome_iff_exists.1 hchild with ⟨pid, hpid⟩
  exact ⟨pid, by simp [hpid]⟩

theorem traced_runOne {m m' : PluginMan} {env : RunEnv} {id : Nat} {moved : Bool}
    (hrun : m.runOne env id = some (m', moved)) : Traced m m' (m.runOneActs env id) := by
  unfold runOne at hrun
  unfold runOneActs
  rcases hfind : m.plugins.find? id with _ | p
  · simp only [hfind, Option.some.injEq, Prod.mk.injEq] at hrun
    exact Traced.of_eq hrun.1
  · simp only [hfind] at hrun ⊢
    split at hrun
    · rename_i hok
      rw [if_pos hok]
      simp only [Option.bind_eq_bind, Option.bind_eq_some_iff] at hrun
      rcases hrun with ⟨m₁, hspawn, hlast⟩
      have hplugins := (spawn_frame hspawn).2.1
      have hforked := forked_spawn hspawn
      have hpipes := pipes_eq_of_plugins hplugins
      refine Traced.runPlugin (fun _ => by simp [pipes, hfind]) ?_ ?_
      · split at hlast <;>
          (simp only [pure, Option.some.injEq, Prod.mk.injEq] at hlast
           rw [← hlast.1]
           exact (pipes_setPlugin m₁ id _).trans (by rw [hpipes]))
      · split at hlast <;>
          (simp only [pure, Option.some.injEq, Prod.mk.injEq] at hlast
           rw [← hlast.1]
           exact hforked)
    · rename_i hnot
      rw [if_neg hnot]
      simp only [Option.some.injEq, Prod.mk.injEq] at hrun
      exact Traced.of_eq hrun.1

theorem traced_runStopped {env : Nat → RunEnv} {todo kept : List Nat} {m m' : PluginMan}
    (hrun : runStopped env m todo = some (m', kept)) : Traced m m' (runStoppedActs env m todo) := by
  induction todo generalizing env m kept with
  | nil =>
      simp only [runStopped, Option.some.injEq, Prod.mk.injEq] at hrun
      exact Traced.of_eq hrun.1
  | cons id rest ih =>
      simp only [runStopped, Option.bind_eq_bind, Option.bind_eq_some_iff] at hrun
      rcases hrun with ⟨⟨m₁, moved⟩, hone, ⟨m₂, kept₂⟩, hrest, hlast⟩
      simp only [pure, Option.some.injEq, Prod.mk.injEq] at hlast
      rcases hlast with ⟨rfl, -⟩
      simp only [runStoppedActs, hone]
      exact (traced_runOne hone).trans (ih hrest)

theorem traced_runPlugins {env : Nat → RunEnv} {m m' : PluginMan}
    (hrun : m.runPlugins env = some m') : Traced m m' (m.runPluginsActs env) := by
  simp only [runPlugins, Option.bind_eq_bind, Option.bind_eq_some_iff, pure,
    Option.some.injEq] at hrun
  rcases hrun with ⟨⟨m₁, kept⟩, hloop, rfl⟩
  have htraced := traced_runStopped hloop
  exact ⟨htraced.pipes, htraced.forked⟩

/-- The part of `CleanupChildExit` under the lock leaves every handle as it is. -/
theorem moveToStop_pipes (m : PluginMan) (childpid : Pid) (exitstatus : Int32) :
    (m.moveToStop childpid exitstatus).1.pipes = m.pipes ∧
      (m.moveToStop childpid exitstatus).1.forked = m.forked := by
  unfold moveToStop
  rcases m.run_plugin.find? childpid with _ | id
  · exact ⟨rfl, rfl⟩
  · rcases hfind : m.plugins.find? id with _ | p
    · simp only [hfind]
      exact ⟨rfl, trivial⟩
    · simp only [hfind]
      refine ⟨?_, rfl⟩
      exact pipes_setPlugin_of_eq (m := { m with run_plugin := m.run_plugin.erase childpid }) hfind rfl

theorem traced_childExit {m m' : PluginMan} {childpid : Pid} {exitstatus : Int32}
    {do_restart : Bool} {env : Nat → RunEnv}
    (hexit : m.childExit childpid exitstatus do_restart env = some m') :
    Traced m m' (m.childExitActs childpid exitstatus do_restart env) := by
  unfold childExit at hexit
  unfold childExitActs
  rcases hlive : m.live.find? childpid with _ | id
  · simp [hlive] at hexit
  · simp only [hlive] at hexit
    have hmoved := moveToStop_pipes { m with live := m.live.erase childpid } childpid exitstatus
    rcases hmove : ({ m with live := m.live.erase childpid } : PluginMan).moveToStop childpid
      exitstatus with ⟨m₁, found⟩
    simp only [hmove] at hexit hmoved ⊢
    have hfirst : Traced m m₁ [] := Traced.nil hmoved.1 hmoved.2
    split at hexit
    · rename_i hrestart
      rw [if_pos hrestart]
      exact hfirst.trans (traced_runPlugins hexit)
    · rename_i hrestart
      rw [if_neg hrestart, ← Option.some.inj hexit]
      exact hfirst

theorem traced_killPlugin {m m' : PluginMan} {id : Nat} {kill : KillEnv} {killed : Bool}
    (hrun : m.killPlugin id kill = some (m', killed)) : Traced m m' (m.killPluginActs id kill) := by
  unfold killPlugin at hrun
  unfold killPluginActs
  rcases hfind : m.plugins.find? id with _ | p
  · simp [hfind] at hrun
  · simp only [hfind, Option.bind_eq_bind, Option.bind_some] at hrun ⊢
    by_cases hpid : p.pid = K2HFT_INVALID_PID
    · simp only [if_pos hpid, pure, Option.some.injEq, Prod.mk.injEq] at hrun ⊢
      exact Traced.of_eq hrun.1
    · simp only [if_neg hpid] at hrun ⊢
      -- `auto_restart` is no handle
      have hflag : Traced m (m.setPlugin id { p with auto_restart := false }) [] :=
        Traced.nil (pipes_setPlugin_of_eq hfind rfl) rfl
      cases kill with
      | exits exitstatus do_restart env =>
          simp only [Option.bind_eq_some_iff, pure, Option.some.injEq, Prod.mk.injEq] at hrun
          rcases hrun with ⟨m₁, hexit, q, -, rfl, -⟩
          exact hflag.trans (traced_childExit hexit)
      | refused =>
          simp only [pure, Option.some.injEq, Prod.mk.injEq] at hrun
          exact Traced.of_eq hrun.1
      | _ =>
          simp only [pure, Option.some.injEq, Prod.mk.injEq] at hrun
          rw [← hrun.1]
          exact hflag

theorem traced_stopPlugin {m m' : PluginMan} {id : Nat} {kill : KillEnv} {stopped : Bool}
    (hrun : m.stopPlugin id kill = some (m', stopped)) : Traced m m' (m.stopPluginActs id kill) := by
  unfold stopPlugin at hrun
  unfold stopPluginActs
  rcases hfind : m.plugins.find? id with _ | p
  · simp only [hfind] at hrun
    exact Traced.of_eq (Prod.mk.inj (Option.some.inj hrun)).1
  · simp only [hfind] at hrun ⊢
    split at hrun
    · rename_i hexec
      rw [if_pos hexec]
      exact Traced.of_eq (Prod.mk.inj (Option.some.inj hrun)).1
    · rename_i hexec
      rw [if_neg hexec]
      split at hrun
      · rename_i hpid
        rw [if_pos hpid]
        exact Traced.of_eq (Prod.mk.inj (Option.some.inj hrun)).1
      · rename_i hpid
        rw [if_neg hpid]
        split at hrun
        · rename_i hmem
          rw [if_pos hmem]
          rcases Option.map_eq_some_iff.1 hrun with ⟨⟨m₁, killed⟩, hkill, hlast⟩
          rw [← (Prod.mk.inj hlast).1]
          exact traced_killPlugin hkill
        · rename_i hmem
          rw [if_neg hmem]
          exact Traced.of_eq (Prod.mk.inj (Option.some.inj hrun)).1

theorem traced_stopOne {m m' : PluginMan} {id : Nat} {kill : KillEnv} {killed : Bool}
    (hrun : m.stopOne id kill = some (m', killed)) :
    Traced m m' (m.killPluginActs id kill ++ [.close id]) := by
  simp only [stopOne, Option.bind_eq_bind, Option.bind_eq_some_iff, pure, Option.some.injEq,
    Prod.mk.injEq] at hrun
  rcases hrun with ⟨⟨m₁, killed₁⟩, hkill, p, -, rfl, -⟩
  refine (traced_killPlugin hkill).trans ⟨?_, [], ?_, by simp⟩
  · simp only [List.foldl_cons, List.foldl_nil]
    split
    · exact pipes_setPlugin m₁ id _
    · exact pipes_setPlugin m₁ id _
  · -- killed or forced, the plugin ends with the handle closed
    split
    · exact (List.append_nil _).symm
    · exact (List.append_nil _).symm

theorem traced_stopLoop {kills : Nat → KillEnv} {todo : List Nat} {m m' : PluginMan}
    {is_error : Bool} (hrun : stopLoop kills m todo = some (m', is_error)) :
    Traced m m' (stopLoopActs kills m todo) := by
  induction todo generalizing kills m is_error with
  | nil =>
      simp only [stopLoop, Option.some.injEq, Prod.mk.injEq] at hrun
      exact Traced.of_eq hrun.1
  | cons id rest ih =>
      rw [stopLoop_cons] at hrun
      rcases Option.bind_eq_some_iff.1 hrun with ⟨⟨m₁, killed⟩, hone, hmap⟩
      rcases Option.map_eq_some_iff.1 hmap with ⟨⟨m₂, err⟩, hrest, hlast⟩
      rcases Prod.mk.inj hlast with ⟨rfl, -⟩
      have htraced := (traced_stopOne hone).trans (ih hrest)
      simpa only [stopLoopActs, hone, List.append_assoc, List.singleton_append] using htraced

theorem dropForced_frame (m : PluginMan) (entries : List (Pid × Nat)) :
    (m.dropForced entries).plugins = m.plugins ∧ (m.dropForced entries).forked = m.forked := by
  induction entries generalizing m with
  | nil =>
      exact ⟨rfl, rfl⟩
  | cons e rest ih =>
      rcases e with ⟨pid, id⟩
      unfold dropForced
      split
      · exact ih m
      · split
        · exact ih { m with run_plugin := m.run_plugin.erase pid }
        · exact ih m

theorem traced_stopPlugins {kills : Nat → KillEnv} {m m' : PluginMan}
    (hrun : m.stopPlugins kills = some m') : Traced m m' (m.stopPluginsActs kills) := by
  simp only [stopPlugins, Option.bind_eq_bind, Option.bind_eq_some_iff] at hrun
  rcases hrun with ⟨⟨m₁, is_error⟩, hloop, hlast⟩
  have htraced := traced_stopLoop hloop
  split at hlast
  · rw [← Option.some.inj hlast]
    rcases dropForced_frame m₁ m₁.run_plugin.entries with ⟨hplugins, hforked⟩
    -- the last loop takes pids out of `run_plugin` only
    have hdrop : Traced m₁ (m₁.dropForced m₁.run_plugin.entries) [] :=
      Traced.nil (pipes_eq_of_plugins hplugins) hforked
    simpa only [stopPluginsActs, List.append_nil] using htraced.trans hdrop
  · rw [← Option.some.inj hlast]
    exact htraced

theorem pipes_of_find?_none {m : PluginMan} {id : Nat} (hfind : m.plugins.find? id = none) :
    m.pipes id = none := by
  simp [pipes, hfind]

theorem traced_addPluginInfo {m m' : PluginMan} {id : Nat} {p : Plugin} {parse : Bool}
    {pipe : Option Bytes} (hadd : m.addPluginInfo id p parse pipe = some m') : Traced m m' [] := by
  unfold addPluginInfo at hadd
  rcases hfind : m.plugins.find? id with _ | old
  · simp only [hfind] at hadd
    split at hadd
    · exact Traced.of_eq (Option.some.inj hadd)
    · split at hadd
      · rcases pipe with _ | path
        · exact Traced.of_eq (Option.some.inj hadd)
        · -- the new plugin comes without a handle
          rw [← Option.some.inj hadd]
          refine Traced.nil ?_ rfl
          have hnone : m.pipes id = validHandle (p.initAdd path).pipe_input :=
            pipes_of_find?_none hfind
          exact (pipes_setPlugin m id _).trans (by rw [← hnone, Function.update_eq_self])
      · exact Traced.of_eq (Option.some.inj hadd)
  · simp [hfind] at hadd

theorem traced_runAddPlugin {m m' : PluginMan} {id : Nat} {p : Plugin} {env : RunEnv}
    (hadd : m.runAddPlugin id p env = some m') :
    Traced m m' (runPluginActs m.mountpoint env id p) := by
  unfold runAddPlugin at hadd
  rcases hfind : m.plugins.find? id with _ | old
  · simp only [hfind, Option.bind_eq_bind, Option.bind_eq_some_iff] at hadd
    rcases hadd with ⟨m₁, hspawn, hlast⟩
    have hpipes := pipes_eq_of_plugins (spawn_frame hspawn).2.1
    have hforked := forked_spawn hspawn
    by_cases hskip : p.BaseParam = [] ∨ p.not_execute = true
    · simp only [K2hFtFuse.runPlugin, if_pos hskip, Bool.false_eq_true, if_false, pure,
        Option.some.injEq] at hlast hforked
      rw [runPluginActs, if_pos hskip, ← hlast]
      exact Traced.nil hpipes (by simpa using hforked)
    · refine Traced.runPlugin (fun h => absurd h hskip) ?_ ?_
      · cases hres : (K2hFtFuse.runPlugin m.mountpoint env p).result with
        | true =>
            simp only [hres, if_true, pure, Option.some.injEq] at hlast
            rw [← hlast]
            exact (pipes_setPlugin m₁ id _).trans (by rw [hpipes])
        | false =>
            -- the object is deleted, and no pipe was opened for it
            simp only [hres, Bool.false_eq_true, if_false, pure, Option.some.injEq] at hlast
            have hchild : (K2hFtFuse.runPlugin m.mountpoint env p).child ≠
                some K2HFT_INVALID_PID := by
              intro heq
              rw [heq, spawn_none_of_invalid] at hspawn
              cases hspawn
            rw [← hlast, hpipes, runPlugin_failed hskip hres hchild, ← pipes_of_find?_none hfind,
              Function.update_eq_self]
      · cases hres : (K2hFtFuse.runPlugin m.mountpoint env p).result with
        | true =>
            simp only [hres, if_true, pure, Option.some.injEq] at hlast
            rw [← hlast]
            exact hforked
        | false =>
            simp only [hres, Bool.false_eq_true, if_false, pure, Option.some.injEq] at hlast
            rw [← hlast]
            exact hforked
  · simp [hfind] at hadd

theorem traced_write {m m' : PluginMan} {id : Nat} {data : Bytes} {find : Bool} {kill : KillEnv}
    {env : RunEnv} (hwrite : m.write id data find kill env = some m') :
    Traced m m' (m.writeActs id data find kill env) := by
  rcases Option.map_eq_some_iff.1 hwrite with ⟨⟨m₃, ready⟩, hprepare, rfl⟩
  unfold prepareWrite at hprepare
  unfold writeActs
  rcases hfind : m.plugins.find? id with _ | p
  · simp only [hfind] at hprepare
    cases hprepare
    exact Traced.of_eq rfl
  · simp only [hfind] at hprepare ⊢
    split at hprepare
    · rename_i hdata
      rw [if_pos hdata]
      cases hprepare
      exact Traced.of_eq rfl
    · rename_i hdata
      rw [if_neg hdata]
      split at hprepare
      · rename_i hkept
        rw [if_pos hkept]
        cases hprepare
        exact Traced.of_eq rfl
      · rename_i hreplaced
        rw [if_neg hreplaced]
        simp only [restart, Option.bind_eq_bind, Option.bind_eq_some_iff] at hprepare
        rcases hprepare with ⟨⟨m₁, stopped⟩, hstop, hprepare⟩
        refine (traced_stopPlugin hstop).trans ?_
        simp only [hstop]
        cases stopped with
        | false =>
            cases hprepare
            exact Traced.of_eq rfl
        | true =>
            simp only [if_true, Option.bind_eq_some_iff] at hprepare
            rcases hprepare with ⟨q, hq, m₂, hspawn, hlast⟩
            simp only [hq]
            have hplugins := (spawn_frame hspawn).2.1
            have hpipes := (pipes_eq_of_plugins hplugins).trans (pipes_setPlugin m₁ id _)
            have hforked := forked_spawn hspawn
            -- the plugin keeps its slot where it is not executable
            refine Traced.runPlugin (fun _ => by simp [pipes, hq]) ?_ ?_
            · split at hlast
              · cases hlast
                exact hpipes
              · cases hlast
                exact hpipes
            · split at hlast
              · cases hlast
                exact hforked
              · cases hlast
                exact hforked

theorem traced_step {m m' : PluginMan} {op : Op} (hstep : m.step op = some m') :
    Traced m m' (m.acts op) := by
  cases op with
  | addPluginInfo id p parse pipe =>
      exact traced_addPluginInfo hstep
  | runAddPlugin id p env =>
      exact traced_runAddPlugin hstep
  | runPlugins env =>
      exact traced_runPlugins hstep
  | childExit pid exitstatus do_restart env =>
      exact traced_childExit hstep
  | stopPlugins kills =>
      exact traced_stopPlugins hstep
  | write id data find kill env =>
      exact traced_write hstep

/-- `StopPlugins` closes the pipe of every plugin that runs. -/
theorem close_mem_stopLoopActs {kills : Nat → KillEnv} {todo : List Nat} {m m' : PluginMan}
    {is_error : Bool} (hrun : stopLoop kills m todo = some (m', is_error)) {id : Nat}
    (hid : id ∈ todo) : .close id ∈ stopLoopActs kills m todo := by
  induction todo generalizing kills m m' is_error with
  | nil =>
      cases hid
  | cons id' rest ih =>
      rw [stopLoop_cons] at hrun
      rcases Option.bind_eq_some_iff.1 hrun with ⟨⟨m₁, killed⟩, hone, hmap⟩
      rcases Option.map_eq_some_iff.1 hmap with ⟨⟨m₂, err⟩, hrest, -⟩
      simp only [stopLoopActs, hone]
      rcases List.mem_cons.1 hid with rfl | hid
      · simp
      · have hmem := ih hrest hid
        simp [hmem]

theorem close_mem_stopPluginsActs {kills : Nat → KillEnv} {m m' : PluginMan}
    (hrun : m.stopPlugins kills = some m') {id : Nat} (hid : id ∈ m.run_plugin.values) :
    .close id ∈ m.stopPluginsActs kills := by
  simp only [stopPlugins, Option.bind_eq_bind, Option.bind_eq_some_iff] at hrun
  rcases hrun with ⟨⟨m₁, is_error⟩, hloop, -⟩
  exact close_mem_stopLoopActs hloop hid

end PluginMan

/-! ## The manager with its descriptors -/

structure HandleMan where
  man : PluginMan
  opened : OrdMap Int32 Nat

namespace HandleMan

open PluginMan

def start (mountpoint : Bytes) : HandleMan :=
  { man := PluginMan.start mountpoint
    opened := ∅ }

/-- The plugins as owners of the descriptors behind their handles. -/
def table (h : HandleMan) : HandleTable Nat Int32 :=
  { held := h.man.pipes
    opened := h.opened }

/-- An operation of the manager and its acts. The system opens no descriptor that is open. -/
def step (h : HandleMan) (op : Op) : Option HandleMan := do
  let man ← h.man.step op
  let t ← Transition.run HandleTable.step h.table (h.man.acts op)
  some
    { man := man
      opened := t.opened }

/-- The number of write descriptors of the plugin's pipe. -/
def handles (h : HandleMan) (id : Nat) : Nat := h.opened.values.count id

/-- At most one descriptor, and one exactly when `pipe_input` is not the invalid handle. -/
def OneHandle (h : HandleMan) : Prop :=
  ∀ id, h.handles id ≤ 1 ∧
    (h.handles id = 1 ↔
      ∃ p, h.man.plugins.find? id = some p ∧ p.pipe_input ≠ K2HFT_INVALID_HANDLE)

/-- `StopPlugins` leaves no descriptor for a plugin that ran and that it does not start again. -/
def LeavesNone (h : HandleMan) (op : Op) (h' : HandleMan) : Prop :=
  ∀ kills, op = .stopPlugins kills → ∀ id ∈ h.man.run_plugin.values,
    (∀ pid, (pid, id) ∉ h'.man.forked.drop h.man.forked.length) → h'.handles id = 0

/-- No `RunPlugin` of the operation resets the handle of a plugin whose pipe is open. -/
def KeepsHandles (h : HandleMan) (op : Op) : Prop :=
  Transition.Guarded HandleTable.step HandleTable.Keeps h.table (h.man.acts op)

instance instDecidableKeepsHandles (h : HandleMan) (op : Op) : Decidable (h.KeepsHandles op) :=
  inferInstanceAs (Decidable (Transition.Guarded _ _ _ _))

/-! ## Runs -/

/-- A step on the level of the owners. -/
theorem table_step {h h' : HandleMan} {op : Op} (hstep : h.step op = some h') :
    h.man.step op = some h'.man ∧
      Transition.run HandleTable.step h.table (h.man.acts op) = some h'.table := by
  simp only [step, Option.bind_eq_bind, Option.bind_eq_some_iff, Option.some.injEq] at hstep
  rcases hstep with ⟨m, hman, t, hrun, rfl⟩
  refine ⟨hman, hrun.trans (congrArg some ?_)⟩
  have hheld := HandleTable.held_run hrun
  rw [table, (traced_step hman).pipes]
  cases t
  simp only [HandleTable.mk.injEq, and_true]
  exact hheld

theorem oneHandle_iff {h : HandleMan} (hsound : h.table.Sound) : h.OneHandle ↔ h.table.Matched := by
  have hheld : ∀ id, h.table.held id = none ↔
      ¬ ∃ p, h.man.plugins.find? id = some p ∧ p.pipe_input ≠ K2HFT_INVALID_HANDLE := by
    intro id
    simp only [table, pipes, validHandle]
    cases h.man.plugins.find? id with
    | none =>
        simp
    | some p =>
        by_cases hinput : p.pipe_input = K2HFT_INVALID_HANDLE <;> simp [hinput]
  rw [hsound.matched_iff_count]
  refine forall_congr' fun id => ?_
  have hcount : h.table.opened.values.count id = h.handles id := rfl
  rw [hcount]
  by_cases hnone : h.table.held id = none
  · rw [if_pos hnone, iff_false_right ((hheld id).1 hnone)]
    omega
  · rw [if_neg hnone, iff_true_right (not_not.1 fun hnot => hnone ((hheld id).2 hnot))]
    omega

theorem matched_start (mountpoint : Bytes) : (start mountpoint).table.Matched := by
  intro d id
  simp [table, start, PluginMan.start, pipes]

/-- A plugin that was closed and has no new fork holds nothing. -/
theorem leavesNone_of_matched {h h' : HandleMan} {op : Op} (hstep : h.step op = some h')
    (hmatched : h'.table.Matched) : h.LeavesNone op h' := by
  rintro kills rfl id hid hforks
  rcases table_step hstep with ⟨hman, hrun⟩
  rcases (traced_step hman).forked with ⟨forks, hforked, hacts⟩
  have hnone : h'.table.held id = none := by
    rw [HandleTable.held_run hrun]
    refine HandleTable.foldl_hold_of_close (close_mem_stopPluginsActs hman hid) ?_ _
    intro fd hmem
    rcases hacts id fd hmem with ⟨pid, hpid⟩
    refine hforks pid ?_
    rwa [hforked, List.drop_left]
  have hcount := hmatched.sound.matched_iff_count.1 hmatched id
  rwa [if_pos hnone] at hcount

theorem sound_step {h h' : HandleMan} {op : Op} (hsound : h.table.Sound)
    (hstep : h.step op = some h') : h'.table.Sound :=
  HandleTable.sound_run hsound (table_step hstep).2

theorem leaked_step {h h' : HandleMan} {op : Op} (hsound : h.table.Sound)
    (hleaked : h.table.Leaked) (hstep : h.step op = some h') : h'.table.Leaked :=
  HandleTable.leaked_run hsound hleaked (table_step hstep).2

/-- Where a run ends without a leak, none of its operations reset an open handle. -/
theorem guarded_of_oneHandle {h h' : HandleMan} {ops : List Op} (hmatched : h.table.Matched)
    (hrun : Transition.run step h ops = some h') (hone : h'.OneHandle) :
    Transition.Guarded step KeepsHandles h ops := by
  have hsound' : h'.table.Sound :=
    Transition.invariant_run (fun s op s' hs => sound_step hs) hrun hmatched.sound
  by_contra hnot
  refine hsound'.not_leaked_iff.2 ((oneHandle_iff hsound').1 hone) ?_
  refine Transition.damaged_of_not_guarded (fun s op s' hs => sound_step hs) ?_
    (fun s op s' hs => leaked_step hs) hmatched.sound hnot hrun
  intro s op s' hs hresets hstep
  exact HandleTable.leaked_of_not_guarded hs hresets (table_step hstep).2

/-- In every state of a run each plugin has the one descriptor of its handle, and `StopPlugins`
leaves none, exactly if no operation of the run resets the handle of an open pipe. -/
theorem oneHandle_throughout_iff (mountpoint : Bytes) (ops : List Op) (h : HandleMan)
    (hrun : Transition.run step (start mountpoint) ops = some h) :
    Transition.Throughout step OneHandle LeavesNone (start mountpoint) ops ↔
      Transition.Guarded step KeepsHandles (start mountpoint) ops := by
  constructor
  · intro hthroughout
    exact guarded_of_oneHandle (matched_start mountpoint) hrun (hthroughout.last hrun)
  · intro hguard
    have hpres : ∀ (s : HandleMan) (op : Op) (s' : HandleMan), s.table.Matched →
        s.KeepsHandles op → s.step op = some s' → s'.table.Matched ∧ s.LeavesNone op s' := by
      intro s op s' hmatched hkeeps hstep
      have hmatched' := HandleTable.matched_run hmatched hkeeps (table_step hstep).2
      exact ⟨hmatched', leavesNone_of_matched hstep hmatched'⟩
    have hone : ∀ s : HandleMan, s.table.Matched → s.OneHandle := by
      intro s hmatched
      exact (oneHandle_iff hmatched.sound).2 hmatched
    exact Transition.throughout_of_guarded hpres hone hguard (matched_start mountpoint)

/-- A plugin is started, stopped, and started again by a `Write`, with the same descriptor. -/
def rewrittenRun : List Op :=
  [.runAddPlugin 0 outPlugin (startsAs 10),
    .stopPlugins fun _ => .exits 0 true fun _ => startsAs 20,
    .write 0 (ascii "a") false .refused (startsAs 11)]

theorem oneHandle_throughout_iff_rewritten :
    ∃ h, Transition.run step (start []) rewrittenRun = some h ∧ h.handles 0 = 1 ∧
      Transition.Throughout step OneHandle LeavesNone (start []) rewrittenRun := by
  have hends : ((Transition.run step (start []) rewrittenRun).map fun h => h.handles 0) =
      some 1 := by
    decide +kernel
  rcases Option.map_eq_some_iff.1 hends with ⟨h, hrun, hcount⟩
  refine ⟨h, hrun, hcount, (oneHandle_throughout_iff [] rewrittenRun h hrun).2 ?_⟩
  decide +kernel

/-- The child exits and is restarted, and the pipe that was open stays open. -/
def restartedRun : List Op :=
  [.runAddPlugin 0 outPlugin (startsAs 10),
    .childExit 10 0 true fun _ => { startsAs 11 with openPipe := some 4 }]

theorem restart_leaks :
    ¬ ∀ mountpoint ops h, Transition.run step (start mountpoint) ops = some h →
      Transition.Throughout step OneHandle LeavesNone (start mountpoint) ops := by
  intro hall
  have hends : ((Transition.run step (start []) restartedRun).map fun h => h.handles 0) =
      some 2 := by
    decide +kernel
  rcases Option.map_eq_some_iff.1 hends with ⟨h, hrun, hcount⟩
  have hone := (hall [] restartedRun h hrun).last hrun
  have hle := (hone 0).1
  omega

end HandleMan

end K2hFtFuse
