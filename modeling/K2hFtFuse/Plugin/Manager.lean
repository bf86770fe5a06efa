import K2hFtFuse.Lib.OrdMap
import K2hFtFuse.Structure

/-!
# Plugin.Manager — running, stopping and restarting plugin processes

`K2hFtPluginMan` keeps a map from the pid of a running child to its plugin (`run_plugin`) and a list
of the plugins that do not run (`stop_plugin`). A plugin object is named by a number that stands for
its address. What the system answers (the fd cache, `fork`, `open`, `kill`) is a parameter of each
operation; the processes that exist are part of the state.
-/

namespace K2hFtFuse

open ByteSeq

def K2HFT_INVALID_HANDLE : Int32 := -1

/-- `K2HFT_PLUGIN`. -/
structure Plugin where
  BaseParam : Bytes
  OutputPath : Bytes
  PipeFilePath : Bytes
  st_dev : UInt64
  st_ino : UInt64
  pid : Pid
  pipe_input : Int32
  last_status : Int32
  exit_count : Nat
  not_execute : Bool
  auto_restart : Bool
  deriving DecidableEq

/-- The constructor of `K2HFT_PLUGIN`. -/
def Plugin.fresh : Plugin :=
  { BaseParam := []
    OutputPath := []
    PipeFilePath := []
    st_dev := 0
    st_ino := 0
    pid := K2HFT_INVALID_PID
    pipe_input := K2HFT_INVALID_HANDLE
    last_status := 0
    exit_count := 0
    not_execute := false
    auto_restart := true }

/-- What the system answers to one `RunPlugin`: whether the fd cache knows the output file, the
device and inode of the file that is made otherwise, the child of `fork`, and the named pipe. -/
structure RunEnv where
  find : Bool
  makeFile : Option (UInt64 × UInt64)
  fork : Option Pid
  openPipe : Option Int32

/-- The outcome of `RunPlugin`; the child exists even where the result is false. -/
structure RunResult where
  result : Bool
  plugin : Plugin
  child : Option Pid

/-- The output file lies under the mount point, or there is none. -/
def needsNoOutput (mountpoint : Bytes) (p : Plugin) : Bool :=
  decide (p.OutputPath = []) || (decide (mountpoint ≠ []) && mountpoint.isPrefixOf p.OutputPath)

/-- The output check of `RunPlugin`. -/
def checkOutput (mountpoint : Bytes) (env : RunEnv) (p : Plugin) : Option Plugin :=
  if needsNoOutput mountpoint p then
    some { p with
      st_dev := 0
      st_ino := 0 }
  else if env.find then
    -- the file is in the fd cache, so `st_dev` and `st_ino` are known
    some p
  else
    env.makeFile.map fun (st_dev, st_ino) =>
      { p with
        st_dev := st_dev
        st_ino := st_ino }

/-- `RunPluginProcess` in the parent: the pid it returns, the pipe, and the child it leaves. -/
def runPluginProcess (env : RunEnv) (p : Plugin) : Pid × Int32 × Option Pid :=
  if p.BaseParam = [] ∨ p.PipeFilePath = [] then
    (K2HFT_INVALID_PID, p.pipe_input, none)
  else
    match env.fork with
    | none => (K2HFT_INVALID_PID, p.pipe_input, none)
    | some childpid =>
        if p.pipe_input = K2HFT_INVALID_HANDLE then
          -- a pipe that is open already is used again
          match env.openPipe with
          -- the child runs, and its pid is lost
          | none => (K2HFT_INVALID_PID, K2HFT_INVALID_HANDLE, some childpid)
          | some pipe_input => (childpid, pipe_input, some childpid)
        else
          (childpid, p.pipe_input, some childpid)

/-- `ofile` in `RunPluginProcess`: the file that the child opens as its stdout. -/
def Plugin.ofile (p : Plugin) : Bytes :=
  if p.OutputPath = [] then ascii "/dev/null" else p.OutputPath

/-- What `AddPluginInfo` sets. -/
def Plugin.initAdd (p : Plugin) (PipeFilePath : Bytes) : Plugin :=
  { p with
    pid := K2HFT_INVALID_PID
    pipe_input := K2HFT_INVALID_HANDLE
    last_status := 0
    exit_count := 0
    st_dev := 0
    st_ino := 0
    PipeFilePath := PipeFilePath }

/-- What `CleanupChildExit` notes at the plugin. -/
def Plugin.exited (p : Plugin) (exitstatus : Int32) : Plugin :=
  { p with
    pid := K2HFT_INVALID_PID
    last_status := exitstatus
    exit_count := p.exit_count + 1 }

/-- What `StopPlugins` sets where the kill failed. -/
def Plugin.forced (p : Plugin) : Plugin :=
  { p with
    pid := K2HFT_INVALID_PID
    last_status := -1
    exit_count := p.exit_count + 1 }

/-- The named pipe is closed. -/
def Plugin.closePipe (p : Plugin) : Plugin :=
  { p with pipe_input := K2HFT_INVALID_HANDLE }

/-- What `RunPlugin` sets before it looks at the output file. -/
def Plugin.initRun (p : Plugin) : Plugin :=
  { p with
    pid := K2HFT_INVALID_PID
    pipe_input := K2HFT_INVALID_HANDLE
    last_status := 0
    auto_restart := true }

/-- `RunPlugin`. -/
def runPlugin (mountpoint : Bytes) (env : RunEnv) (p : Plugin) : RunResult :=
  if p.BaseParam = [] ∨ p.not_execute then
    { result := false
      plugin := p
      child := none }
  else
    match checkOutput mountpoint env p.initRun with
    | none =>
        { result := false
          plugin := p.initRun
          child := none }
    | some p =>
        let (tmp_pid, pipe_input, child) := runPluginProcess env p
        let p := { p with
          pid := tmp_pid
          pipe_input := pipe_input }
        if tmp_pid = K2HFT_INVALID_PID then
          { result := false
            -- the failed start counts as an exit
            plugin := { p with exit_count := p.exit_count + 1 }
            child := child }
        else
          { result := true
            plugin := p
            child := child }

/-! ## The manager -/

/-- `K2hFtPluginMan` with the plugin objects, the processes that exist (`live`) and all forks so
far. -/
structure PluginMan where
  mountpoint : Bytes
  plugins : OrdMap Nat Plugin
  run_plugin : OrdMap Pid Nat
  stop_plugin : List Nat
  live : OrdMap Pid Nat
  forked : List (Pid × Nat)

namespace PluginMan

def start (mountpoint : Bytes) : PluginMan :=
  { mountpoint := mountpoint
    plugins := ∅
    run_plugin := ∅
    stop_plugin := []
    live := ∅
    forked := [] }

def setPlugin (m : PluginMan) (id : Nat) (p : Plugin) : PluginMan :=
  { m with plugins := m.plugins.insert id p }

@[simp] theorem find?_setPlugin_self (m : PluginMan) (id : Nat) (p : Plugin) :
    (m.setPlugin id p).plugins.find? id = some p :=
  OrdMap.find?_insert_self _ _ _

/-- `run_plugin[pid] = pplugin`. -/
def setRunning (m : PluginMan) (pid : Pid) (id : Nat) : PluginMan :=
  { m with run_plugin := m.run_plugin.insert pid id }

/-- `stop_plugin.push_back(pplugin)`. -/
def pushStop (m : PluginMan) (id : Nat) : PluginMan :=
  { m with stop_plugin := m.stop_plugin ++ [id] }

@[simp] theorem plugins_pushStop (m : PluginMan) (id : Nat) :
    (m.pushStop id).plugins = m.plugins := rfl

/-- A child comes into being. The system gives it a positive pid that no process has. -/
def spawn (m : PluginMan) (id : Nat) : Option Pid → Option PluginMan
  | none => some m
  | some pid =>
      if 0 < pid ∧ m.live.find? pid = none then
        some { m with
          live := m.live.insert pid id
          forked := m.forked ++ [(pid, id)] }
      else
        none

/-- A new child changes neither the plugins nor the containers. -/
theorem spawn_frame {m m' : PluginMan} {id : Nat} {child : Option Pid}
    (h : m.spawn id child = some m') :
    m'.mountpoint = m.mountpoint ∧ m'.plugins = m.plugins ∧ m'.run_plugin = m.run_plugin ∧
      m'.stop_plugin = m.stop_plugin := by
  rcases child with _ | pid
  · rw [← Option.some.inj h]
    exact ⟨rfl, rfl, rfl, rfl⟩
  · simp only [spawn, Option.ite_none_right_eq_some, Option.some.injEq] at h
    rw [← h.2]
    exact ⟨rfl, rfl, rfl, rfl⟩

/-- `AddPluginInfo` of a new plugin object. -/
def addPluginInfo (m : PluginMan) (id : Nat) (p : Plugin) (parse : Bool) (pipe : Option Bytes) :
    Option PluginMan :=
  match m.plugins.find? id with
  | some _ => none
  | none =>
      if p.BaseParam = [] then
        some m
      else if parse then
        match pipe with
        | none => some m
        | some PipeFilePath =>
            some ((m.setPlugin id (p.initAdd PipeFilePath)).pushStop id)
      else
        some m

/-- `RunAddPlugin` of a new plugin object, whose caller deletes it when the result is false. -/
def runAddPlugin (m : PluginMan) (id : Nat) (p : Plugin) (env : RunEnv) : Option PluginMan :=
  match m.plugins.find? id with
  | some _ => none
  | none => do
      let r := runPlugin m.mountpoint env p
      let m ← m.spawn id r.child
      if r.result then
        return (m.setPlugin id r.plugin).setRunning r.plugin.pid id
      else
        return m

/-- One round of the loop of `RunPlugins`, and whether the plugin leaves the stop list. -/
def runOne (m : PluginMan) (env : RunEnv) (id : Nat) : Option (PluginMan × Bool) :=
  match m.plugins.find? id with
  | none => some (m, false)
  | some p =>
      if p.not_execute = false ∧ p.auto_restart = true then do
        let r := runPlugin m.mountpoint env p
        let m ← m.spawn id r.child
        if r.result then
          return ((m.setPlugin id r.plugin).setRunning r.plugin.pid id, true)
        else
          -- and here it is counted once more
          return (m.setPlugin id { r.plugin with exit_count := r.plugin.exit_count + 1 }, false)
      else
        some (m, false)

/-- The loop of `RunPlugins`: the plugins that stay in the stop list. -/
def runStopped : (Nat → RunEnv) → PluginMan → List Nat → Option (PluginMan × List Nat)
  | _, m, [] => some (m, [])
  | env, m, id :: rest => do
      let (m, moved) ← m.runOne (env 0) id
      let (m, kept) ← runStopped (fun n => env (n + 1)) m rest
      return (m, if moved then kept else id :: kept)

/-- `RunPlugins`. -/
def runPlugins (m : PluginMan) (env : Nat → RunEnv) : Option PluginMan := do
  let (m, kept) ← runStopped env m m.stop_plugin
  return { m with stop_plugin := kept }

/-- The part of `CleanupChildExit` under the lock; the result says whether the pid was found. -/
def moveToStop (m : PluginMan) (childpid : Pid) (exitstatus : Int32) : PluginMan × Bool :=
  match m.run_plugin.find? childpid with
  | none => (m, false)
  | some id =>
      let m := { m with run_plugin := m.run_plugin.erase childpid }
      match m.plugins.find? id with
      | none => (m, false)
      | some p =>
          ((m.setPlugin id (p.exited exitstatus)).pushStop id, true)

/-- A child exits, `waitpid` reaps it and `CleanupChildExit` runs. -/
def childExit (m : PluginMan) (childpid : Pid) (exitstatus : Int32) (do_restart : Bool)
    (env : Nat → RunEnv) : Option PluginMan :=
  match m.live.find? childpid with
  | none => none
  | some _ =>
      let (m, found) := ({ m with live := m.live.erase childpid }).moveToStop childpid exitstatus
      if found && do_restart then m.runPlugins env else some m

/-- How the attempt to kill a plugin's process goes: the first signal is refused, `SIGHUP` is
refused, the child exits within the wait, or the wait ends without it. -/
inductive KillEnv
  | refused
  | refusedHup
  | exits (exitstatus : Int32) (do_restart : Bool) (env : Nat → RunEnv)
  | gaveUp

/-- `KillPlugin`. -/
def killPlugin (m : PluginMan) (id : Nat) (kill : KillEnv) : Option (PluginMan × Bool) := do
  let p ← m.plugins.find? id
  if p.pid = K2HFT_INVALID_PID then
    -- nothing runs for the plugin
    return (m, true)
  else
    match kill with
    -- `auto_restart` is reset only after the first signal
    | .refused => return (m, false)
    | .refusedHup => return (m.setPlugin id { p with auto_restart := false }, false)
    | .gaveUp => return (m.setPlugin id { p with auto_restart := false }, false)
    | .exits exitstatus do_restart env =>
        -- the reaper moves the plugin to the stop list
        let m ← (m.setPlugin id { p with auto_restart := false }).childExit p.pid exitstatus
          do_restart env
        let p ← m.plugins.find? id
        return (m, decide (p.pid = K2HFT_INVALID_PID))

/-- `StopPlugin`. -/
def stopPlugin (m : PluginMan) (id : Nat) (kill : KillEnv) : Option (PluginMan × Bool) :=
  match m.plugins.find? id with
  | none => some (m, false)
  | some p =>
      if p.not_execute then
        some (m, false)
      else if p.pid = K2HFT_INVALID_PID then
        some (m, true)
      else if id ∈ m.run_plugin.values then
        -- the result of the kill is not looked at
        (m.killPlugin id kill).map fun (m, _) => (m, true)
      else
        some (m, true)

/-- The loop of `StopPlugins`, and whether an error occurred. -/
def stopLoop : (Nat → KillEnv) → PluginMan → List Nat → Option (PluginMan × Bool)
  | _, m, [] => some (m, false)
  | kills, m, id :: rest => do
      let (m, killed) ← m.killPlugin id (kills 0)
      let p ← m.plugins.find? id
      let m :=
        if killed then m.setPlugin id p.closePipe
        -- a plugin that could not be killed is stopped by force
        else (m.setPlugin id p.forced.closePipe).pushStop id
      let (m, is_error) ← stopLoop (fun n => kills (n + 1)) m rest
      return (m, is_error || !killed)

/-- The last loop of `StopPlugins`: plugins whose pid was forced leave `run_plugin`. -/
def dropForced (m : PluginMan) : List (Pid × Nat) → PluginMan
  | [] => m
  | (pid, id) :: rest =>
      match m.plugins.find? id with
      | none => m.dropForced rest
      | some p =>
          if p.pid = K2HFT_INVALID_PID then
            ({ m with run_plugin := m.run_plugin.erase pid }).dropForced rest
          else
            m.dropForced rest

/-- `StopPlugins`. -/
def stopPlugins (m : PluginMan) (kills : Nat → KillEnv) : Option PluginMan := do
  let (m, is_error) ← stopLoop kills m (m.run_plugin.values)
  if is_error then
    return m.dropForced m.run_plugin.entries
  else
    return m

/-- What `Write` does for an output file that has changed: the plugin is stopped, and started to open the
new one. -/
def restart (m : PluginMan) (id : Nat) (kill : KillEnv) (env : RunEnv) : Option (PluginMan × Bool) := do
  let (m, stopped) ← m.stopPlugin id kill
  if stopped then
    let p ← m.plugins.find? id
    let r := runPlugin m.mountpoint env p
    let m ← (m.setPlugin id r.plugin).spawn id r.child
    if r.result then
      return (m.setRunning r.plugin.pid id, true)
    else
      -- `RunPlugin` failed
      return (m, false)
  else
    return (m, false)

/-- `Write` up to the pipe, and whether it goes on there: `find` is whether the output file is still the
one that the plugin was started with. -/
def prepareWrite (m : PluginMan) (id : Nat) (data : Bytes) (find : Bool) (kill : KillEnv)
    (env : RunEnv) : Option (PluginMan × Bool) :=
  match m.plugins.find? id with
  | none => some (m, false)
  | some p =>
      if data = [] then
        some (m, false)
      else if needsNoOutput m.mountpoint p || find then
        -- the pipe is written to without a restart
        some (m, true)
      else
        m.restart id kill env

/-- What `Write` does to the manager; what follows at the pipe leaves it alone. -/
def write (m : PluginMan) (id : Nat) (data : Bytes) (find : Bool) (kill : KillEnv) (env : RunEnv) :
    Option PluginMan :=
  (m.prepareWrite id data find kill env).map Prod.fst

/-- A plugin that writes to `/out`. -/
def outPlugin : Plugin :=
  { Plugin.fresh with
    BaseParam := ascii "cat"
    OutputPath := ascii "/out"
    PipeFilePath := ascii "/tmp/pipe" }

/-- Everything succeeds and the child gets the pid. -/
def startsAs (pid : Pid) : RunEnv :=
  { find := false
    makeFile := some (1, 1)
    fork := some pid
    openPipe := some 3 }

end PluginMan

end K2hFtFuse
