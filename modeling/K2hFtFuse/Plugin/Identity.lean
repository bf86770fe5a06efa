import K2hFtFuse.Plugin.Pipe

/-!
# Plugin.Identity — what plugin objects keep

A plugin object gets its command line, its output file and its named pipe when it is made. This file
shows that processes come and go without changing these: every operation of the manager on the objects
that are there leaves `configs` as they are.
-/

namespace K2hFtFuse

open ByteSeq

/-- What a plugin object is made with. -/
structure PluginConfig where
  BaseParam : Bytes
  OutputPath : Bytes
  PipeFilePath : Bytes
  not_execute : Bool
  deriving DecidableEq

def Plugin.config (p : Plugin) : PluginConfig :=
  { BaseParam := p.BaseParam
    OutputPath := p.OutputPath
    PipeFilePath := p.PipeFilePath
    not_execute := p.not_execute }

theorem checkOutput_config {mountpoint : Bytes} {env : RunEnv} {p p' : Plugin}
    (h : checkOutput mountpoint env p = some p') : p'.config = p.config := by
  unfold checkOutput at h
  split at h
  · rw [← Option.some.inj h]
    rfl
  · split at h
    · rw [Option.some.inj h]
    · rcases Option.map_eq_some_iff.1 h with ⟨made, -, rfl⟩
      rfl

/-- A plugin runs as the plugin that it is. -/
theorem runPlugin_config (mountpoint : Bytes) (env : RunEnv) (p : Plugin) :
    (runPlugin mountpoint env p).plugin.config = p.config := by
  unfold runPlugin
  split
  · rfl
  · split
    · rfl
    · rename_i p' hcheck
      have hconfig : p'.config = p.config := checkOutput_config (p := p.initRun) hcheck
      dsimp only
      split
      · exact hconfig
      · exact hconfig

namespace PluginMan

/-- The objects that there are, by their addresses. -/
def configs (m : PluginMan) (id : Nat) : Option PluginConfig := (m.plugins.find? id).map Plugin.config

theorem configs_eq_of_plugins {m m' : PluginMan} (h : m'.plugins = m.plugins) :
    m'.configs = m.configs := by
  funext id
  rw [configs, configs, h]

theorem configs_setPlugin (m : PluginMan) (id : Nat) (p : Plugin) :
    (m.setPlugin id p).configs = Function.update m.configs id (some p.config) := by
  funext id'
  simp only [configs, setPlugin, OrdMap.find?_insert, Function.update_apply]
  split
  · rfl
  · rfl

/-- A change to an object that leaves its configuration. -/
theorem configs_setPlugin_of_eq {m : PluginMan} {id : Nat} {p p' : Plugin}
    (hfind : m.plugins.find? id = some p) (hconfig : p'.config = p.config) :
    (m.setPlugin id p').configs = m.configs := by
  have hold : m.configs id = some p'.config := by rw [configs, hfind, Option.map_some, hconfig]
  rw [configs_setPlugin, ← hold, Function.update_eq_self]

theorem configs_spawn {m m' : PluginMan} {id : Nat} {child : Option Pid}
    (h : m.spawn id child = some m') : m'.configs = m.configs :=
  configs_eq_of_plugins (spawn_frame h).2.1

/-! ## Starting -/

theorem configs_runOne {m m' : PluginMan} {env : RunEnv} {id : Nat} {moved : Bool}
    (h : m.runOne env id = some (m', moved)) : m'.configs = m.configs := by
  unfold runOne at h
  split at h
  · cases h
    rfl
  · rename_i p hfind
    split at h
    · rcases Option.bind_eq_some_iff.1 h with ⟨m₁, hspawn, hlast⟩
      have hfind₁ : m₁.plugins.find? id = some p := by rw [(spawn_frame hspawn).2.1, hfind]
      split at hlast
      · cases hlast
        exact (configs_setPlugin_of_eq hfind₁ (runPlugin_config _ _ _)).trans (configs_spawn hspawn)
      · cases hlast
        refine (configs_setPlugin_of_eq hfind₁ ?_).trans (configs_spawn hspawn)
        exact runPlugin_config m.mountpoint env p
    · cases h
      rfl

theorem configs_runStopped {env : Nat → RunEnv} {todo kept : List Nat} {m m' : PluginMan}
    (h : runStopped env m todo = some (m', kept)) : m'.configs = m.configs := by
  induction todo generalizing env m kept with
  | nil =>
      cases h
      rfl
  | cons id rest ih =>
      rcases Option.bind_eq_some_iff.1 h with ⟨⟨m₁, moved⟩, hone, hmore⟩
      rcases Option.bind_eq_some_iff.1 hmore with ⟨⟨m₂, kept₂⟩, hrest, hlast⟩
      cases hlast
      exact (ih hrest).trans (configs_runOne hone)

theorem configs_runPlugins {env : Nat → RunEnv} {m m' : PluginMan}
    (h : m.runPlugins env = some m') : m'.configs = m.configs := by
  rcases Option.bind_eq_some_iff.1 h with ⟨⟨m₁, kept⟩, hloop, hlast⟩
  cases hlast
  have hstarted := configs_runStopped hloop
  exact hstarted

/-! ## Exits and kills -/

theorem configs_moveToStop (m : PluginMan) (childpid : Pid) (exitstatus : Int32) :
    (m.moveToStop childpid exitstatus).1.configs = m.configs := by
  unfold moveToStop
  split
  · rfl
  · dsimp only
    split
    · rfl
    · rename_i p hfind
      exact configs_setPlugin_of_eq (m := { m with run_plugin := m.run_plugin.erase childpid }) hfind
        rfl

theorem configs_childExit {m m' : PluginMan} {childpid : Pid} {exitstatus : Int32}
    {do_restart : Bool} {env : Nat → RunEnv}
    (h : m.childExit childpid exitstatus do_restart env = some m') : m'.configs = m.configs := by
  unfold childExit at h
  split at h
  · cases h
  · have hmoved := configs_moveToStop { m with live := m.live.erase childpid } childpid exitstatus
    rcases hmove : ({ m with live := m.live.erase childpid } : PluginMan).moveToStop childpid
      exitstatus with ⟨m₁, found⟩
    rw [hmove] at h hmoved
    dsimp only at h
    split at h
    · exact (configs_runPlugins h).trans hmoved
    · rw [← Option.some.inj h]
      exact hmoved

theorem configs_killPlugin {m m' : PluginMan} {id : Nat} {kill : KillEnv} {killed : Bool}
    (h : m.killPlugin id kill = some (m', killed)) : m'.configs = m.configs := by
  rcases Option.bind_eq_some_iff.1 h with ⟨p, hfind, hkill⟩
  have hflag : (m.setPlugin id { p with auto_restart := false }).configs = m.configs :=
    configs_setPlugin_of_eq hfind rfl
  split at hkill
  · cases hkill
    rfl
  · cases kill with
    | refused =>
        cases hkill
        rfl
    | refusedHup =>
        cases hkill
        exact hflag
    | gaveUp =>
        cases hkill
        exact hflag
    | exits exitstatus do_restart env =>
        rcases Option.bind_eq_some_iff.1 hkill with ⟨m₁, hexit, hlast⟩
        rcases Option.bind_eq_some_iff.1 hlast with ⟨q, -, hresult⟩
        cases hresult
        exact (configs_childExit hexit).trans hflag

theorem configs_stopPlugin {m m' : PluginMan} {id : Nat} {kill : KillEnv} {stopped : Bool}
    (h : m.stopPlugin id kill = some (m', stopped)) : m'.configs = m.configs := by
  unfold stopPlugin at h
  split at h
  · cases h
    rfl
  · split at h
    · cases h
      rfl
    · split at h
      · cases h
        rfl
      · split at h
        · rcases Option.map_eq_some_iff.1 h with ⟨⟨m₁, killed⟩, hkill, hlast⟩
          cases hlast
          exact configs_killPlugin hkill
        · cases h
          rfl

/-! ## Writing -/

/-- A write may stop the process of the object and start another one. -/
theorem configs_prepareWrite {m m' : PluginMan} {id : Nat} {data : Bytes} {find : Bool}
    {kill : KillEnv} {env : RunEnv} {ready : Bool}
    (h : m.prepareWrite id data find kill env = some (m', ready)) : m'.configs = m.configs := by
  unfold prepareWrite at h
  split at h
  · cases h
    rfl
  · split at h
    · cases h
      rfl
    · split at h
      · cases h
        rfl
      · rcases Option.bind_eq_some_iff.1 h with ⟨⟨m₁, stopped⟩, hstop, hstart⟩
        have hstopped := configs_stopPlugin hstop
        dsimp only at hstart
        split at hstart
        · rcases Option.bind_eq_some_iff.1 hstart with ⟨p, hfind, hspawned⟩
          rcases Option.bind_eq_some_iff.1 hspawned with ⟨m₂, hspawn, hlast⟩
          have hrun := (configs_spawn hspawn).trans
            ((configs_setPlugin_of_eq hfind (runPlugin_config _ _ _)).trans hstopped)
          split at hlast
          · cases hlast
            exact hrun
          · cases hlast
            exact hrun
        · cases hstart
          exact hstopped

theorem configs_writePlugin {m m' : PluginMan} {id : Nat} {data : Bytes} {find : Bool}
    {kill : KillEnv} {env : RunEnv} {answers : Nat → WriteAnswer} {write : PipeWrite}
    (h : m.writePlugin id data find kill env answers = some (m', write)) :
    m'.configs = m.configs := by
  rcases Option.bind_eq_some_iff.1 h with ⟨⟨m₁, ready⟩, hprepare, hwrite⟩
  have hprepared := configs_prepareWrite hprepare
  dsimp only at hwrite
  split at hwrite
  · rcases Option.bind_eq_some_iff.1 hwrite with ⟨p, -, hpipe⟩
    split at hpipe
    · cases hpipe
      exact hprepared
    · cases hpipe
      exact hprepared
  · cases hwrite
    exact hprepared

/-! ## New objects -/

/-- `RunAddPlugin` adds the object, or the object is gone when it returns. -/
theorem configs_runAddPlugin {m m' : PluginMan} {id : Nat} {p : Plugin} {env : RunEnv}
    (h : m.runAddPlugin id p env = some m') :
    m.configs id = none ∧
      m'.configs =
        if (K2hFtFuse.runPlugin m.mountpoint env p).result then
          Function.update m.configs id (some p.config)
        else m.configs := by
  unfold runAddPlugin at h
  split at h
  · cases h
  · rename_i hnone
    refine ⟨by rw [configs, hnone]; rfl, ?_⟩
    rcases Option.bind_eq_some_iff.1 h with ⟨m₁, hspawn, hlast⟩
    have hspawned := configs_spawn hspawn
    split at hlast
    · rename_i hresult
      cases hlast
      rw [if_pos hresult, ← hspawned]
      calc ((m₁.setPlugin id (K2hFtFuse.runPlugin m.mountpoint env p).plugin).setRunning _ id).configs
          = (m₁.setPlugin id (K2hFtFuse.runPlugin m.mountpoint env p).plugin).configs := rfl
        _ = Function.update m₁.configs id (some p.config) := by
            rw [configs_setPlugin, runPlugin_config]
    · rename_i hresult
      cases hlast
      rw [if_neg hresult, hspawned]

/-- `AddPluginInfo` adds the object with the pipe that was made for it, or nothing. -/
theorem configs_addPluginInfo {m m' : PluginMan} {id : Nat} {p : Plugin} {parse : Bool}
    {pipe : Option Bytes} (h : m.addPluginInfo id p parse pipe = some m') :
    m'.configs = m.configs ∨
      ∃ PipeFilePath, pipe = some PipeFilePath ∧
        m'.configs = Function.update m.configs id
          (some { p.config with PipeFilePath := PipeFilePath }) := by
  unfold addPluginInfo at h
  split at h
  · cases h
  · split at h
    · cases h
      exact .inl rfl
    · split at h
      · split at h
        · cases h
          exact .inl rfl
        · rename_i PipeFilePath
          cases h
          exact .inr ⟨PipeFilePath, rfl, configs_setPlugin m id _⟩
      · cases h
        exact .inl rfl

end PluginMan

end K2hFtFuse
