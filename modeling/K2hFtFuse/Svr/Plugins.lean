import K2hFtFuse.Lib.Transition
import K2hFtFuse.Plugin.Identity
import K2hFtFuse.Structure.Key
import K2hFtFuse.Svr.Processing

/-!
# Svr.Plugins — one plugin for each output file of a server

`GetPlugin` gives the plugin of an output file, and makes and runs one from the plugin of the base
directory when there is none. Meanwhile the processes of plugins exit and are started again.

This file defines:
* `SvrPlugins`: the path map of `K2hFtSvrInfo` with the plugin manager, and the lines that were put,
* `Separated`: the plugins of different files have nothing in common.

and shows that each line goes to the plugin of its own file (`plugins_separated`), and that of the
lines for a file its plugin misses only those that came before it could be started (`lines_handed`).
-/

namespace K2hFtFuse

open ByteSeq Transition

/-! ## Named pipes -/

def K2HFTFUSE_NPIPE_DIR_PREFIX : Bytes := ascii "/tmp/k2hftfuse_np_"
def K2HFTFUSE_NPIPE_FILE_PREFIX : Bytes := ascii "/np_"

/-- What the system answers to `BuildNamedPipeFile`. -/
structure PipeEnv where
  mkdirByAbsPath : Bool
  mkfifo : Bool

def npPath (pid : Pid) (base_number : Nat) : Bytes :=
  K2HFTFUSE_NPIPE_DIR_PREFIX ++ decimal pid.toInt ++
    (K2HFTFUSE_NPIPE_FILE_PREFIX ++ decimalNat base_number)

/-- `BuildNamedPipeFile`, with the static `base_number`, which starts at the time. -/
def buildNamedPipeFile (env : PipeEnv) (pid : Pid) (base_number : Nat) : Option Bytes × Nat :=
  if !env.mkdirByAbsPath then
    (none, base_number)
  else if !env.mkfifo then
    -- the number is used up
    (none, base_number + 1)
  else
    (some (npPath pid base_number), base_number + 1)

theorem npPath_injective {pid : Pid} {n n' : Nat} (h : npPath pid n = npPath pid n') : n = n' := by
  have hdigits : decimalNat n = decimalNat n' := List.append_cancel_left (List.append_cancel_left h)
  calc n = digitsValue (decimalNat n) := (digitsValue_decimalNat n).symm
    _ = digitsValue (decimalNat n') := by rw [hdigits]
    _ = n' := digitsValue_decimalNat n'

/-! ## Plugins by their paths -/

/-- A line was put: its output file, the plugin that `GetPlugin` gave, the data, and what `Write` did
with it. -/
structure PluginLine where
  OutputFile : Bytes
  plugin : Option Nat
  data : Bytes
  write : PipeWrite
  deriving DecidableEq

/-- The plugins of a server. `next` is the address that the next plugin object gets. -/
structure SvrPlugins where
  pid : Pid
  base_number : Nat
  pluginpathmap : OrdMap Bytes Nat
  man : PluginMan
  next : Nat
  log : List PluginLine

/-- What the system answers while a line is put: to `GetPlugin`, then to `Write`. -/
structure PutEnv where
  pipe : PipeEnv
  run : RunEnv
  find : Bool
  kill : PluginMan.KillEnv
  restart : RunEnv
  answers : Nat → WriteAnswer

namespace SvrPlugins

/-- The end of `Load` with a plugin, for a configuration with one main section: it is run for the unity
file only, and stands for all files of a base directory. (A YAML stream with a second `K2HFTFUSESVR`
mapping makes a second plugin.) The manager of a server has no mount point. -/
def load (pid : Pid) (time : Nat) (IsUnityMode : Bool) (BaseParam OutputPath : Bytes) (parse : Bool)
    (pipe : PipeEnv) : Option SvrPlugins := do
  let (PipeFilePath, base_number) := buildNamedPipeFile pipe pid time
  let man ← (PluginMan.start []).addPluginInfo 0
    { Plugin.fresh with
      BaseParam := BaseParam
      OutputPath := OutputPath
      not_execute := !IsUnityMode } parse PipeFilePath
  if (man.plugins.find? 0).isSome then
    return {
      pid := pid
      base_number := base_number
      pluginpathmap := (∅ : OrdMap Bytes Nat).insert OutputPath 0
      man := man
      next := 1
      log := [] }
  else
    -- the load fails
    none

/-- `FindPlugin`. -/
def findPlugin (s : SvrPlugins) (outputpath : Bytes) : Option Nat := s.pluginpathmap.find? outputpath

/-- `GetPlugin`. A plugin that cannot be run is deleted. -/
def getPlugin (s : SvrPlugins) (outputpath basedir : Bytes) (pipe : PipeEnv) (run : RunEnv) :
    Option (SvrPlugins × Option Nat) :=
  match s.findPlugin outputpath with
  | some pPlugin => some (s, some pPlugin)
  | none =>
      match (s.findPlugin basedir).bind s.man.plugins.find? with
      | none => some (s, none)
      | some pBasePlugin =>
          if !pBasePlugin.not_execute then
            some (s, none)
          else
            match buildNamedPipeFile pipe s.pid s.base_number with
            | (none, base_number) => some ({ s with base_number := base_number }, none)
            | (some PipeFilePath, base_number) => do
                let pPlugin : Plugin :=
                  { Plugin.fresh with
                    BaseParam := pBasePlugin.BaseParam
                    OutputPath := outputpath
                    PipeFilePath := PipeFilePath
                    not_execute := false }
                let man ← s.man.runAddPlugin s.next pPlugin run
                if (runPlugin s.man.mountpoint run pPlugin).result then
                  return (
                    { s with
                      base_number := base_number
                      pluginpathmap := s.pluginpathmap.insert outputpath s.next
                      man := man
                      next := s.next + 1 },
                    some s.next)
                else
                  return ({ s with base_number := base_number, man := man, next := s.next + 1 }, none)

/-- One line of `Processing`, with the data that is put. -/
def putLine (s : SvrPlugins) (OutputFile basedir data : Bytes) (env : PutEnv) :
    Option SvrPlugins := do
  let (s, plugin) ← s.getPlugin OutputFile basedir env.pipe env.run
  match plugin with
  | none =>
      return { s with
        log := s.log ++
          [{ OutputFile := OutputFile
             plugin := none
             data := data
             write := .refused }] }
  | some id =>
      let (man, write) ← s.man.writePlugin id data env.find env.kill env.restart env.answers
      return { s with
        man := man
        log := s.log ++
          [{ OutputFile := OutputFile
             plugin := some id
             data := data
             write := write }] }

end SvrPlugins

/-- A line is put, a process exits, or stopped plugins are run. -/
inductive PluginLabel
  | line (OutputFile data : Bytes) (env : PutEnv)
  | childExit (pid : Pid) (exitstatus : Int32) (do_restart : Bool) (env : Nat → RunEnv)
  | runPlugins (env : Nat → RunEnv)

namespace SvrPlugins

def step (basedir : Bytes) (s : SvrPlugins) : PluginLabel → Option SvrPlugins
  | .line OutputFile data env => s.putLine OutputFile basedir data env
  | .childExit pid exitstatus do_restart env =>
      (s.man.childExit pid exitstatus do_restart env).map fun man => { s with man := man }
  | .runPlugins env => (s.man.runPlugins env).map fun man => { s with man := man }

end SvrPlugins

/-! ## What the operations do -/

namespace SvrPlugins

variable {s t : SvrPlugins}

theorem buildNamedPipeFile_eq {env : PipeEnv} {pid : Pid} {base_number n : Nat}
    {path : Option Bytes} (h : buildNamedPipeFile env pid base_number = (path, n)) :
    base_number ≤ n ∧
      ∀ PipeFilePath, path = some PipeFilePath →
        PipeFilePath = npPath pid base_number ∧ n = base_number + 1 := by
  unfold buildNamedPipeFile at h
  split at h
  · cases h
    exact ⟨Nat.le_refl _, by simp⟩
  · split at h
    · cases h
      exact ⟨Nat.le_succ _, by simp⟩
    · cases h
      refine ⟨Nat.le_succ _, ?_⟩
      intro PipeFilePath hpath
      exact ⟨(Option.some.inj hpath).symm, rfl⟩

/-- The objects and their paths are the same; addresses and numbers may be used up. -/
structure Unchanged (s t : SvrPlugins) : Prop where
  pid : t.pid = s.pid
  pluginpathmap : t.pluginpathmap = s.pluginpathmap
  configs : t.man.configs = s.man.configs
  base_number : s.base_number ≤ t.base_number
  next : s.next ≤ t.next

/-- A new object has been made for the path, like the one of the base directory. -/
structure Added (path basedir : Bytes) (s t : SvrPlugins) : Prop where
  pid : t.pid = s.pid
  absent : s.findPlugin path = none
  pluginpathmap : t.pluginpathmap = s.pluginpathmap.insert path s.next
  configs : ∃ base c, s.findPlugin basedir = some base ∧ s.man.configs base = some c ∧
    t.man.configs = Function.update s.man.configs s.next
      (some
        { BaseParam := c.BaseParam
          OutputPath := path
          PipeFilePath := npPath s.pid s.base_number
          not_execute := false })
  base_number : t.base_number = s.base_number + 1
  next : t.next = s.next + 1

theorem Unchanged.refl (s : SvrPlugins) : Unchanged s s :=
  ⟨rfl, rfl, rfl, Nat.le_refl _, Nat.le_refl _⟩

/-- `GetPlugin` gives the plugin of the path, or none; a plugin that it has made is under the path. -/
theorem getPlugin_eq_some {outputpath basedir : Bytes} {pipe : PipeEnv} {run : RunEnv}
    {plugin : Option Nat} (h : s.getPlugin outputpath basedir pipe run = some (t, plugin)) :
    t.log = s.log ∧ plugin = t.findPlugin outputpath ∧
      (Unchanged s t ∨ Added outputpath basedir s t) := by
  unfold getPlugin at h
  split at h
  · rename_i pPlugin hfind
    cases h
    exact ⟨rfl, hfind.symm, .inl (.refl s)⟩
  · rename_i hfind
    split at h
    · cases h
      exact ⟨rfl, hfind.symm, .inl (.refl s)⟩
    · rename_i pBasePlugin hbase
      split at h
      · cases h
        exact ⟨rfl, hfind.symm, .inl (.refl s)⟩
      · split at h
        · rename_i base_number hpipe
          cases h
          refine ⟨rfl, hfind.symm, .inl ⟨rfl, rfl, rfl, ?_, Nat.le_refl _⟩⟩
          exact (buildNamedPipeFile_eq hpipe).1
        · rename_i PipeFilePath base_number hpipe
          rcases (buildNamedPipeFile_eq hpipe).2 _ rfl with ⟨rfl, rfl⟩
          rcases Option.bind_eq_some_iff.1 h with ⟨man, hadd, hlast⟩
          rcases PluginMan.configs_runAddPlugin hadd with ⟨-, hconfigs⟩
          split at hlast
          · rename_i hresult
            cases hlast
            rw [if_pos hresult] at hconfigs
            rcases Option.bind_eq_some_iff.1 hbase with ⟨base, hmapped, hobject⟩
            refine ⟨rfl, (OrdMap.find?_insert_self _ _ _).symm, .inr ?_⟩
            exact ⟨rfl, hfind, rfl, ⟨base, pBasePlugin.config, hmapped, by
              rw [PluginMan.configs, hobject, Option.map_some], hconfigs⟩, rfl, rfl⟩
          · rename_i hresult
            cases hlast
            rw [if_neg hresult] at hconfigs
            exact ⟨rfl, hfind.symm, .inl ⟨rfl, rfl, hconfigs, Nat.le_succ _, Nat.le_succ _⟩⟩

/-- A line is noted with the plugin that its file has then. -/
theorem putLine_eq_some {OutputFile basedir data : Bytes} {env : PutEnv}
    (h : s.putLine OutputFile basedir data env = some t) :
    (∃ write, t.log = s.log ++
        [{ OutputFile := OutputFile
           plugin := t.findPlugin OutputFile
           data := data
           write := write }]) ∧
      (Unchanged s t ∨ Added OutputFile basedir s t) := by
  rcases Option.bind_eq_some_iff.1 h with ⟨⟨s₁, plugin⟩, hget, hput⟩
  rcases getPlugin_eq_some hget with ⟨hlog, hplugin, heffect⟩
  cases plugin with
  | none =>
      cases hput
      refine ⟨⟨.refused, ?_⟩, ?_⟩
      · simp only [findPlugin, hlog] at hplugin ⊢
        rw [← hplugin]
      · rcases heffect with hsame | hadded
        · exact .inl ⟨hsame.pid, hsame.pluginpathmap, hsame.configs, hsame.base_number, hsame.next⟩
        · exact .inr ⟨hadded.pid, hadded.absent, hadded.pluginpathmap, hadded.configs,
            hadded.base_number, hadded.next⟩
  | some id =>
      rcases Option.bind_eq_some_iff.1 hput with ⟨⟨man, write⟩, hwrite, hlast⟩
      cases hlast
      have hconfigs := PluginMan.configs_writePlugin hwrite
      refine ⟨⟨write, ?_⟩, ?_⟩
      · simp only [findPlugin, hlog] at hplugin ⊢
        rw [← hplugin]
      · rcases heffect with hsame | hadded
        · exact .inl ⟨hsame.pid, hsame.pluginpathmap, hconfigs.trans hsame.configs,
            hsame.base_number, hsame.next⟩
        · rcases hadded.configs with ⟨base, c, hmapped, hbase, hupdate⟩
          exact .inr ⟨hadded.pid, hadded.absent, hadded.pluginpathmap,
            ⟨base, c, hmapped, hbase, hconfigs.trans hupdate⟩, hadded.base_number, hadded.next⟩

/-- What a step does: a line is put, with a new plugin or without, or nothing that can be seen here. -/
theorem step_eq_some {basedir : Bytes} {l : PluginLabel} (h : step basedir s l = some t) :
    (Unchanged s t ∨ ∃ path, Added path basedir s t) ∧
      (t.log = s.log ∨
        ∃ e, e.plugin = t.findPlugin e.OutputFile ∧ t.log = s.log ++ [e]) := by
  cases l with
  | line OutputFile data env =>
      rcases putLine_eq_some h with ⟨⟨write, hlog⟩, heffect⟩
      exact ⟨heffect.imp_right fun hadded => ⟨OutputFile, hadded⟩, .inr ⟨_, rfl, hlog⟩⟩
  | childExit pid exitstatus do_restart env =>
      rcases Option.map_eq_some_iff.1 h with ⟨man, hexit, rfl⟩
      exact ⟨.inl ⟨rfl, rfl, PluginMan.configs_childExit hexit, Nat.le_refl _, Nat.le_refl _⟩,
        .inl rfl⟩
  | runPlugins env =>
      rcases Option.map_eq_some_iff.1 h with ⟨man, hrun, rfl⟩
      exact ⟨.inl ⟨rfl, rfl, PluginMan.configs_runPlugins hrun, Nat.le_refl _, Nat.le_refl _⟩,
        .inl rfl⟩

/-! ## Plugins of different files -/

/-- What is known of a server that was loaded with a command line. -/
structure Inv (BaseParam : Bytes) (s : SvrPlugins) : Prop where
  mapped : ∀ path id, s.findPlugin path = some id →
    ∃ c, s.man.configs id = some c ∧ c.OutputPath = path
  known : ∀ id c, s.man.configs id = some c →
    s.findPlugin c.OutputPath = some id ∧ c.BaseParam = BaseParam ∧ id < s.next ∧
      ∃ n, n < s.base_number ∧ c.PipeFilePath = npPath s.pid n
  pipes : ∀ i j c d, s.man.configs i = some c → s.man.configs j = some d →
    c.PipeFilePath = d.PipeFilePath → i = j
  log : ∀ e ∈ s.log, ∀ id, e.plugin = some id → s.findPlugin e.OutputFile = some id

theorem inv_load {pid : Pid} {time : Nat} {IsUnityMode : Bool} {BaseParam OutputPath : Bytes}
    {parse : Bool} {pipe : PipeEnv}
    (h : load pid time IsUnityMode BaseParam OutputPath parse pipe = some s) :
    Inv BaseParam s ∧ s.log = [] := by
  unfold load at h
  rcases hpipe : buildNamedPipeFile pipe pid time with ⟨path, base_number⟩
  rw [hpipe] at h
  rcases Option.bind_eq_some_iff.1 h with ⟨man, hadd, hlast⟩
  split at hlast
  · rename_i hobject
    cases hlast
    rcases PluginMan.configs_addPluginInfo hadd with hsame | ⟨PipeFilePath, rfl, hconfigs⟩
    · -- the object would be there
      rcases Option.isSome_iff_exists.1 hobject with ⟨p, hp⟩
      have hnone : man.configs 0 = none := by rw [hsame]; rfl
      rw [PluginMan.configs, hp] at hnone
      cases hnone
    · rcases (buildNamedPipeFile_eq hpipe).2 _ rfl with ⟨rfl, rfl⟩
      -- there is the one object, under the path that it was loaded for
      have honly : ∀ id c, man.configs id = some c → id = 0 ∧
          c = { BaseParam := BaseParam
                OutputPath := OutputPath
                PipeFilePath := npPath pid time
                not_execute := !IsUnityMode } := by
        intro id c hc
        rw [hconfigs, Function.update_apply] at hc
        split at hc
        · rename_i hid
          exact ⟨hid, (Option.some.inj hc).symm⟩
        · cases hc
      refine ⟨⟨?_, ?_, ?_, ?_⟩, rfl⟩
      · intro path id hfind
        simp only [findPlugin, OrdMap.find?_insert] at hfind
        split at hfind
        · rename_i hpath
          obtain rfl := Option.some.inj hfind
          exact ⟨_, by rw [hconfigs, Function.update_self], hpath.symm⟩
        · simp at hfind
      · intro id c hc
        rcases honly id c hc with ⟨rfl, rfl⟩
        exact ⟨OrdMap.find?_insert_self _ _ _, rfl, Nat.zero_lt_one, time, Nat.lt_succ_self _, rfl⟩
      · intro i j c d hc hd _
        rw [(honly i c hc).1, (honly j d hd).1]
      · intro e he
        cases he
  · cases hlast

/-- A path keeps the plugin that it has. -/
theorem findPlugin_mono {basedir : Bytes} (h : Unchanged s t ∨ ∃ path, Added path basedir s t)
    {path : Bytes} {id : Nat} (hfind : s.findPlugin path = some id) :
    t.findPlugin path = some id := by
  rcases h with hsame | ⟨path', hadded⟩
  · rw [findPlugin, hsame.pluginpathmap]
    exact hfind
  · have hne : path ≠ path' := by
      rintro rfl
      rw [hadded.absent] at hfind
      cases hfind
    rw [findPlugin, hadded.pluginpathmap, OrdMap.find?_insert_ne _ _ hne]
    exact hfind

theorem Inv.unchanged {BaseParam : Bytes} (hinv : Inv BaseParam s) (h : Unchanged s t)
    (hlog : ∀ e ∈ t.log, ∀ id, e.plugin = some id → t.findPlugin e.OutputFile = some id) :
    Inv BaseParam t := by
  have hfind : ∀ path, t.findPlugin path = s.findPlugin path := by
    intro path
    rw [findPlugin, h.pluginpathmap, findPlugin]
  refine ⟨?_, ?_, ?_, hlog⟩
  · intro path id hmapped
    rw [h.configs]
    exact hinv.mapped path id (by rw [← hfind, hmapped])
  · intro id c hc
    rw [h.configs] at hc
    rcases hinv.known id c hc with ⟨hmapped, hbase, hid, n, hn, hpipe⟩
    exact ⟨by rw [hfind, hmapped], hbase, Nat.lt_of_lt_of_le hid h.next, n,
      Nat.lt_of_lt_of_le hn h.base_number, by rw [h.pid, hpipe]⟩
  · rw [h.configs]
    exact hinv.pipes

theorem Inv.added {BaseParam path basedir : Bytes} (hinv : Inv BaseParam s)
    (h : Added path basedir s t)
    (hlog : ∀ e ∈ t.log, ∀ id, e.plugin = some id → t.findPlugin e.OutputFile = some id) :
    Inv BaseParam t := by
  rcases h.configs with ⟨base, b, -, hbase, hconfigs⟩
  -- the objects before have other addresses, other files and older pipes
  have hold : ∀ {id c}, t.man.configs id = some c → id ≠ s.next → s.man.configs id = some c := by
    intro id c hc hid
    rwa [hconfigs, Function.update_of_ne hid] at hc
  have hnew : ∀ {c}, t.man.configs s.next = some c →
      c.BaseParam = b.BaseParam ∧ c.OutputPath = path ∧
        c.PipeFilePath = npPath s.pid s.base_number := by
    intro c hc
    rw [hconfigs, Function.update_self] at hc
    obtain rfl := Option.some.inj hc
    exact ⟨rfl, rfl, rfl⟩
  have holder : ∀ {id c d}, s.man.configs id = some c → t.man.configs s.next = some d →
      c.PipeFilePath ≠ d.PipeFilePath := by
    intro id c d hc hd heq
    rcases hinv.known id c hc with ⟨-, -, -, n, hn, hpipe⟩
    rw [hpipe, (hnew hd).2.2] at heq
    exact absurd (npPath_injective heq) (Nat.ne_of_lt hn)
  refine ⟨?_, ?_, ?_, hlog⟩
  · intro path' id hmapped
    rw [findPlugin, h.pluginpathmap, OrdMap.find?_insert] at hmapped
    split at hmapped
    · rename_i hpath
      obtain rfl := Option.some.inj hmapped
      exact ⟨_, by rw [hconfigs, Function.update_self], hpath.symm⟩
    · rcases hinv.mapped path' id hmapped with ⟨c, hc, hout⟩
      have hid : id ≠ s.next := Nat.ne_of_lt (hinv.known id c hc).2.2.1
      exact ⟨c, by rw [hconfigs, Function.update_of_ne hid, hc], hout⟩
  · intro id c hc
    by_cases hid : id = s.next
    · subst hid
      rcases hnew hc with ⟨hparam, hout, hpipe⟩
      refine ⟨?_, hparam.trans (hinv.known base b hbase).2.1, ?_, s.base_number, ?_, ?_⟩
      · rw [hout, findPlugin, h.pluginpathmap, OrdMap.find?_insert_self]
      · rw [h.next]
        exact Nat.lt_succ_self _
      · rw [h.base_number]
        exact Nat.lt_succ_self _
      · rw [h.pid, hpipe]
    · rcases hinv.known id c (hold hc hid) with ⟨hmapped, hparam, hlt, n, hn, hpipe⟩
      refine ⟨findPlugin_mono (.inr ⟨path, h⟩) hmapped, hparam, ?_, n, ?_, by rw [h.pid, hpipe]⟩
      · rw [h.next]
        exact Nat.lt_succ_of_lt hlt
      · rw [h.base_number]
        exact Nat.lt_succ_of_lt hn
  · intro i j c d hc hd heq
    by_cases hi : i = s.next
    · by_cases hj : j = s.next
      · rw [hi, hj]
      · subst hi
        exact absurd heq.symm (holder (hold hd hj) hc)
    · by_cases hj : j = s.next
      · subst hj
        exact absurd heq (holder (hold hc hi) hd)
      · exact hinv.pipes i j c d (hold hc hi) (hold hd hj) heq

theorem inv_step {BaseParam basedir : Bytes} {l : PluginLabel} (hinv : Inv BaseParam s)
    (h : step basedir s l = some t) : Inv BaseParam t := by
  rcases step_eq_some h with ⟨heffect, hline⟩
  have hlog : ∀ e ∈ t.log, ∀ id, e.plugin = some id → t.findPlugin e.OutputFile = some id := by
    intro e he id hid
    rcases hline with hsame | ⟨e', hplugin, hnew⟩
    · rw [hsame] at he
      exact findPlugin_mono heffect (hinv.log e he id hid)
    · rw [hnew] at he
      rcases List.mem_append.1 he with hbefore | hnow
      · exact findPlugin_mono heffect (hinv.log e hbefore id hid)
      · obtain rfl := List.mem_singleton.1 hnow
        rw [← hplugin, hid]
  rcases heffect with hsame | ⟨path, hadded⟩
  · exact hinv.unchanged hsame hlog
  · exact hinv.added hadded hlog

/-- Lines go to the plugin of their own file, which runs the configured command line; no two plugins
have the output file or the named pipe in common. -/
structure Separated (BaseParam : Bytes) (s : SvrPlugins) : Prop where
  own : ∀ e ∈ s.log, ∀ id, e.plugin = some id →
    ∃ c, s.man.configs id = some c ∧ c.OutputPath = e.OutputFile ∧ c.BaseParam = BaseParam
  files : ∀ i j c d, s.man.configs i = some c → s.man.configs j = some d →
    c.OutputPath = d.OutputPath → i = j
  pipes : ∀ i j c d, s.man.configs i = some c → s.man.configs j = some d →
    c.PipeFilePath = d.PipeFilePath → i = j

theorem Inv.separated {BaseParam : Bytes} (hinv : Inv BaseParam s) : Separated BaseParam s := by
  refine ⟨?_, ?_, hinv.pipes⟩
  · intro e he id hid
    rcases hinv.mapped _ id (hinv.log e he id hid) with ⟨c, hc, hout⟩
    exact ⟨c, hc, hout, (hinv.known id c hc).2.1⟩
  · intro i j c d hc hd hout
    have hi := (hinv.known i c hc).1
    rw [hout, (hinv.known j d hd).1] at hi
    exact (Option.some.inj hi).symm

/-- Whatever is put, and whichever processes exit and are started meanwhile, the plugins of a server
are separated. -/
theorem plugins_separated {pid : Pid} {time : Nat} {IsUnityMode parse : Bool}
    {BaseParam OutputPath : Bytes} {pipe : PipeEnv} {labels : List PluginLabel}
    (hload : load pid time IsUnityMode BaseParam OutputPath parse pipe = some s)
    (hrun : run (step OutputPath) s labels = some t) : Separated BaseParam t :=
  (invariant_run (fun _ _ _ => inv_step) hrun (inv_load hload).1).separated

/-- Everything succeeds, and a plugin that is started gets the pid. -/
def startsWith (pid : Pid) : PutEnv :=
  { pipe :=
      { mkdirByAbsPath := true
        mkfifo := true }
    run := PluginMan.startsAs pid
    find := true
    kill := .refused
    restart := PluginMan.startsAs pid
    answers := fun _ => .accepts 1 }

/-- A line for a file whose plugin cannot be started at first, one for another file, the exit and the
restart of a plugin, then both files again. -/
def twoFiles : List PluginLabel :=
  [.line (ascii "/out/a") [97] { startsWith 10 with run := { PluginMan.startsAs 10 with fork := none } },
    .line (ascii "/out/b") [98] (startsWith 11),
    .childExit 11 0 true (fun _ => PluginMan.startsAs 12),
    .line (ascii "/out/a") [99] (startsWith 13),
    .line (ascii "/out/b") [100] (startsWith 14)]

theorem plugins_separated_two_files :
    ∃ s t, load 7 1000 false (ascii "cat") (ascii "/out/") true ⟨true, true⟩ = some s ∧
      run (step (ascii "/out/")) s twoFiles = some t ∧
      t.log.map PluginLine.plugin = [none, some 2, some 3, some 2] ∧ Separated (ascii "cat") t := by
  have hrun : ((load 7 1000 false (ascii "cat") (ascii "/out/") true ⟨true, true⟩).bind fun s =>
      run (step (ascii "/out/")) s twoFiles).map (fun t => t.log.map PluginLine.plugin) =
      some [none, some 2, some 3, some 2] := by
    decide +kernel
  rcases Option.map_eq_some_iff.1 hrun with ⟨t, ht, hlog⟩
  rcases Option.bind_eq_some_iff.1 ht with ⟨s, hs, hsteps⟩
  exact ⟨s, t, hs, hsteps, hlog, plugins_separated hs hsteps⟩

/-! ## The lines of a file -/

/-- The lines for a path: first those without a plugin, then those with the one that it has. -/
def Handed (path : Bytes) (s : SvrPlugins) : Prop :=
  ∃ missed handed, s.log.filter (fun e => e.OutputFile = path) = missed ++ handed ∧
    (∀ e ∈ missed, e.plugin = none) ∧
    ∀ e ∈ handed, e.plugin.isSome = true ∧ e.plugin = s.findPlugin path

theorem handed_step {path basedir : Bytes} {l : PluginLabel} (hinv : Handed path s)
    (h : step basedir s l = some t) : Handed path t := by
  rcases hinv with ⟨missed, handed, hsplit, hmissed, hhanded⟩
  rcases step_eq_some h with ⟨heffect, hline⟩
  have hkeeps : ∀ e ∈ handed, e.plugin.isSome = true ∧ e.plugin = t.findPlugin path := by
    intro e he
    rcases hhanded e he with ⟨hsome, hplugin⟩
    rcases Option.isSome_iff_exists.1 hsome with ⟨id, hid⟩
    refine ⟨hsome, ?_⟩
    rw [hid, findPlugin_mono heffect (hplugin.symm.trans hid)]
  rcases hline with hsame | ⟨e, hplugin, hnew⟩
  · exact ⟨missed, handed, by rw [hsame, hsplit], hmissed, hkeeps⟩
  · by_cases hpath : e.OutputFile = path
    · subst hpath
      have hfilter : t.log.filter (fun e' => e'.OutputFile = e.OutputFile) =
          missed ++ handed ++ [e] := by
        rw [hnew, List.filter_append, hsplit]
        simp
      cases hfind : t.findPlugin e.OutputFile with
      | none =>
          -- there is no plugin yet, so none of the lines has been handed
          have hnone : handed = [] := by
            refine List.eq_nil_iff_forall_not_mem.2 ?_
            intro e' he'
            rcases hkeeps e' he' with ⟨hsome, hplugin'⟩
            rw [hplugin', hfind] at hsome
            cases hsome
          refine ⟨missed ++ [e], [], by rw [hfilter, hnone]; simp, ?_, by simp⟩
          intro e' he'
          rcases List.mem_append.1 he' with hbefore | hnow
          · exact hmissed e' hbefore
          · rw [List.mem_singleton.1 hnow, hplugin, hfind]
      | some id =>
          refine ⟨missed, handed ++ [e], by rw [hfilter, List.append_assoc], hmissed, ?_⟩
          intro e' he'
          rcases List.mem_append.1 he' with hbefore | hnow
          · exact hkeeps e' hbefore
          · rw [List.mem_singleton.1 hnow, hplugin, hfind]
            exact ⟨rfl, rfl⟩
    · refine ⟨missed, handed, ?_, hmissed, hkeeps⟩
      rw [hnew, List.filter_append, hsplit]
      simp [hpath]

/-- In every run, the plugin of a path is handed the lines for that path and no others, in their order,
from the first one on that found it running or started it. -/
theorem lines_handed {pid : Pid} {time : Nat} {IsUnityMode parse : Bool}
    {BaseParam OutputPath : Bytes} {pipe : PipeEnv} {labels : List PluginLabel}
    (hload : load pid time IsUnityMode BaseParam OutputPath parse pipe = some s)
    (hrun : run (step OutputPath) s labels = some t) {path : Bytes} {id : Nat}
    (hfind : t.findPlugin path = some id) :
    ∃ missed, t.log.filter (fun e => e.OutputFile = path) =
        missed ++ t.log.filter (fun e => e.plugin = some id) ∧
      ∀ e ∈ missed, e.plugin = none := by
  rcases inv_load hload with ⟨hstart, hempty⟩
  have hinv : Inv BaseParam t := invariant_run (fun _ _ _ => inv_step) hrun hstart
  have hhanded : Handed path t := by
    have hnone : Handed path s := ⟨[], [], by rw [hempty]; rfl, by simp, by simp⟩
    exact invariant_run (fun _ _ _ => handed_step) hrun hnone
  rcases hhanded with ⟨missed, handed, hsplit, hmissed, hplugin⟩
  refine ⟨missed, ?_, hmissed⟩
  -- a line with the plugin of the path is a line for the path
  have hown : ∀ e ∈ t.log, e.plugin = some id → e.OutputFile = path := by
    intro e he hid
    rcases hinv.mapped _ id (hinv.log e he id hid) with ⟨c, hc, hout⟩
    rcases hinv.mapped path id hfind with ⟨d, hd, hout'⟩
    obtain rfl : c = d := Option.some.inj (hc.symm.trans hd)
    rw [← hout, hout']
  have hfilter : t.log.filter (fun e => e.plugin = some id) = handed := by
    calc t.log.filter (fun e => e.plugin = some id)
        = (t.log.filter (fun e => e.OutputFile = path)).filter (fun e => e.plugin = some id) := by
          rw [List.filter_filter]
          refine List.filter_congr fun e he => ?_
          rw [← Bool.decide_and]
          exact decide_eq_decide.2 ⟨fun hid => ⟨hid, hown e he hid⟩, And.left⟩
      _ = (missed ++ handed).filter (fun e => e.plugin = some id) := by rw [hsplit]
      _ = handed := by
          rw [List.filter_append, List.filter_eq_nil_iff.2, List.filter_eq_self.2, List.nil_append]
          · intro e he
            rw [(hplugin e he).2, hfind]
            simp
          · intro e he
            simp [hmissed e he]
  rw [hsplit, hfilter]

/-! ## The lines of messages -/

/-- With a plugin, the walk over the lines stacks nothing and hands over their data. -/
theorem runRecords_of_plugin {env : SvrEnv} {info : K2hFtSvrInfo} {filepath OutputFile : Bytes}
    (hplugin : info.isPluginEmpty = false) (hget : env.getPlugin OutputFile = true)
    {lines : List K2hFtLine} (hlines : ∀ r ∈ lines, ReadsInside info r) (b : FileOutput)
    (pw : List Bytes) :
    runRecords env info filepath OutputFile lines ⟨b, pw⟩ =
      some ⟨b, pw ++ putList env info filepath lines⟩ := by
  induction lines generalizing pw with
  | nil => simp [runRecords, putList]
  | cons r rest ih =>
      have hr : (recordData env info filepath r).isSome = true :=
        (recordData_isSome_iff env filepath).2 (hlines r List.mem_cons_self)
      rcases hdata : recordData env info filepath r with _ | _ | data
      · rw [hdata] at hr
        cases hr
      · simp [runRecords, putList, hdata]
      · have hrest := ih (fun q hq => hlines q (List.mem_cons_of_mem _ hq))
          (pw ++ [putData info data])
        simp [runRecords, putList, hdata, LoopState.put, hplugin, hget, hrest]

/-- `Processing` of a packed value puts these lines, where its file has a plugin, and no file. -/
theorem processFile_of_plugin {env : SvrEnv} {info : K2hFtSvrInfo} {key value filepath ppid : Bytes}
    (hplugin : info.isPluginEmpty = false) (hkey : parseK2hFtKey key = some (filepath, ppid))
    {lines : List K2hFtLine} (hvalue : buildK2hFtValue lines = some value)
    (hlines : ∀ r ∈ lines, ReadsInside info r) (OutputPath : Bytes)
    (hget : env.getPlugin (OutputPath ++ filepath) = true) :
    processFile env info false OutputPath key value =
      some
        { fileWrites := []
          pluginWrites := putList env info filepath lines
          transSets := [] } := by
  rcases buildK2hFtValue_eq_some hvalue with ⟨-, hfit, hbytes⟩
  have hvalue' : value = (encodeLE 8 (totallen lines) ++ encodeLE 8 lines.length) ++
      lines.flatMap K2hFtLine.byLine := by simp [hbytes]
  have hpre : sizeofValueHead =
      (encodeLE 8 (totallen lines) ++ encodeLE 8 lines.length).length := by simp [sizeofValueHead]
  have hlen : ((encodeLE 8 (totallen lines) ++ encodeLE 8 lines.length) ++
      lines.flatMap K2hFtLine.byLine).length < SIZE_LIMIT := by
    rw [List.length_append, ← hpre, length_flatMap_byLine]
    omega
  have hwalk := processLines_byLine env filepath (OutputPath ++ filepath) hlines
    (encodeLE 8 (totallen lines) ++ encodeLE 8 lines.length) hlen LoopState.start
  rw [← hvalue', ← hpre, LoopState.start, runRecords_of_plugin hplugin hget hlines] at hwalk
  simp [processFile, getK2hFtLines_buildK2hFtValue hvalue, hkey, LoopState.start, hwalk,
    FileOutput.finish]

/-- The line that a step puts. -/
def lineOf : PluginLabel → Option (Bytes × Bytes)
  | .line OutputFile data _ => some (OutputFile, data)
  | .childExit _ _ _ _ => none
  | .runPlugins _ => none

/-- Every line that is put is noted. -/
theorem log_run {basedir : Bytes} {labels : List PluginLabel}
    (hrun : run (step basedir) s labels = some t) :
    t.log.map (fun e => (e.OutputFile, e.data)) =
      s.log.map (fun e => (e.OutputFile, e.data)) ++ labels.filterMap lineOf := by
  induction labels generalizing s with
  | nil =>
      obtain rfl := Option.some.inj hrun
      simp
  | cons l labels ih =>
      rcases Option.bind_eq_some_iff.1 hrun with ⟨u, hstep, hrest⟩
      rw [ih hrest]
      cases l with
      | line OutputFile data env =>
          rcases putLine_eq_some hstep with ⟨⟨write, hlog⟩, -⟩
          rw [hlog]
          simp [lineOf]
      | childExit pid exitstatus do_restart env =>
          rcases Option.map_eq_some_iff.1 hstep with ⟨man, -, rfl⟩
          rfl
      | runPlugins env =>
          rcases Option.map_eq_some_iff.1 hstep with ⟨man, -, rfl⟩
          rfl

/-- The lines that messages with a file path and records put below the base directory. -/
def messageLines (env : SvrEnv) (info : K2hFtSvrInfo) (OutputPath : Bytes)
    (messages : List (Bytes × List K2hFtLine)) : List (Bytes × Bytes) :=
  messages.flatMap fun m => (putList env info m.1 m.2).map fun data => (OutputPath ++ m.1, data)

/-- The data of the lines for one file. -/
theorem filter_messageLines (env : SvrEnv) (info : K2hFtSvrInfo) (OutputPath filepath : Bytes)
    (messages : List (Bytes × List K2hFtLine)) :
    ((messageLines env info OutputPath messages).filter
        (fun line => line.1 = OutputPath ++ filepath)).map Prod.snd =
      (messages.filter (fun m => m.1 = filepath)).flatMap fun m => putList env info m.1 m.2 := by
  induction messages with
  | nil =>
      rfl
  | cons m messages ih =>
      have hcons : messageLines env info OutputPath (m :: messages) =
          (putList env info m.1 m.2).map (fun data => (OutputPath ++ m.1, data)) ++
            messageLines env info OutputPath messages := by
        simp [messageLines]
      rw [hcons, List.filter_append, List.map_append, ih]
      by_cases hpath : m.1 = filepath
      · subst hpath
        simp [List.filter_map, Function.comp_def]
      · simp [List.filter_map, Function.comp_def, hpath]

/-- In every run in which the lines of messages are put, the plugin of a file gets the records of the
messages for that file, as they were converted, in the order of the messages. It misses those that came
while no plugin could be started for the file. -/
theorem messages_handed (env : SvrEnv) (info : K2hFtSvrInfo) {pid : Pid} {time : Nat} {parse : Bool}
    {BaseParam OutputPath : Bytes} {pipe : PipeEnv} {labels : List PluginLabel}
    {messages : List (Bytes × List K2hFtLine)}
    (hload : load pid time false BaseParam OutputPath parse pipe = some s)
    (hlines : labels.filterMap lineOf = messageLines env info OutputPath messages)
    (hrun : run (step OutputPath) s labels = some t) {filepath : Bytes} {id : Nat}
    (hfind : t.findPlugin (OutputPath ++ filepath) = some id) :
    ∃ missed : List PluginLine,
      (messages.filter (fun m => m.1 = filepath)).flatMap (fun m => putList env info m.1 m.2) =
          missed.map PluginLine.data ++
            (t.log.filter (fun e => e.plugin = some id)).map PluginLine.data ∧
        ∀ e ∈ missed, e ∈ t.log ∧ e.plugin = none := by
  rcases lines_handed hload hrun hfind with ⟨missed, hsplit, hmissed⟩
  have hlog : t.log.map (fun e => (e.OutputFile, e.data)) = messageLines env info OutputPath messages := by
    rw [log_run hrun, (inv_load hload).2, hlines]
    rfl
  refine ⟨missed, ?_, ?_⟩
  · rw [← filter_messageLines env info OutputPath, ← hlog, List.filter_map, List.map_map,
      ← List.map_append, ← hsplit]
    rfl
  · intro e he
    have hmem : e ∈ t.log.filter fun e => e.OutputFile = OutputPath ++ filepath := by
      rw [hsplit]
      exact List.mem_append_left _ he
    exact ⟨List.mem_of_mem_filter hmem, hmissed e he⟩

/-- A server with a plugin for each file below `/out/`, in text mode without conversion. -/
def pluginInfo : K2hFtSvrInfo :=
  { OutputType := K2HFTFSVR_FILE_TYPE
    IsBinaryMode := false
    IsNoConvert := true
    TimeFormat := []
    OutputFormat := []
    pluginpathmap := [ascii "/out/"] }

/-- The record is put twice for the file `a`, and its plugin can be started at the second time. -/
def lateStart : List PluginLabel :=
  [.line (ascii "/out/a") [97] { startsWith 10 with run := { PluginMan.startsAs 10 with fork := none } },
    .line (ascii "/out/a") [97] (startsWith 11)]

theorem late_start_misses_first :
    ∃ s t missed, load 7 1000 false (ascii "cat") (ascii "/out/") true ⟨true, true⟩ = some s ∧
      run (step (ascii "/out/")) s lateStart = some t ∧ t.findPlugin (ascii "/out/a") = some 2 ∧
      putList (SvrEnv.framed .returnsBlock) pluginInfo (ascii "a") [lineA, lineA] =
        List.map PluginLine.data missed ++
          (t.log.filter (fun e => e.plugin = some 2)).map PluginLine.data ∧
      missed ≠ [] ∧ ∀ e ∈ missed, e ∈ t.log ∧ e.plugin = none := by
  have hrun : ((load 7 1000 false (ascii "cat") (ascii "/out/") true ⟨true, true⟩).bind fun s =>
      run (step (ascii "/out/")) s lateStart).map (fun t =>
        (t.findPlugin (ascii "/out/a"),
          (t.log.filter (fun e => e.plugin = some 2)).map PluginLine.data)) =
      some (some 2, [[97]]) := by
    decide +kernel
  rcases Option.map_eq_some_iff.1 hrun with ⟨t, ht, hends⟩
  rcases Option.bind_eq_some_iff.1 ht with ⟨s, hs, hsteps⟩
  have hfind : t.findPlugin (ascii "/out/" ++ ascii "a") = some 2 := congrArg Prod.fst hends
  have hlines : lateStart.filterMap lineOf = messageLines (SvrEnv.framed .returnsBlock) pluginInfo
      (ascii "/out/") [(ascii "a", [lineA]), (ascii "a", [lineA])] := by
    decide +kernel
  rcases messages_handed _ _ hs hlines hsteps hfind with ⟨missed, hsplit, hmissed⟩
  have hputs : (([(ascii "a", [lineA]), (ascii "a", [lineA])] : List (Bytes × List K2hFtLine)).filter
      (fun m => m.1 = ascii "a")).flatMap (fun m =>
        putList (SvrEnv.framed .returnsBlock) pluginInfo m.1 m.2) = [[97], [97]] := by
    decide +kernel
  have hwhole : putList (SvrEnv.framed .returnsBlock) pluginInfo (ascii "a") [lineA, lineA] =
      [[97], [97]] := by
    decide +kernel
  refine ⟨s, t, missed, hs, hsteps, hfind, ?_, ?_, hmissed⟩
  · rw [hwhole, ← hputs, hsplit]
  · rintro rfl
    have hhanded : (t.log.filter (fun e => e.plugin = some 2)).map PluginLine.data = [[97]] :=
      congrArg Prod.snd hends
    rw [hputs, hhanded] at hsplit
    cases hsplit

end SvrPlugins

end K2hFtFuse
