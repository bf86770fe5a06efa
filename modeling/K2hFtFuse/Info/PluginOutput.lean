import K2hFtFuse.Info.Origins
import K2hFtFuse.Plugin.Manager

/-!
# Info.PluginOutput — the output of a rule and of its plugin

The output path of a plugin is set at the end of its section, the one of its rule is prepared by
`InitializeOutputFiles`. Where no output is configured the rule has none, but the path of the plugin
is the mount point with a `/` behind it. So the two agree exactly for rules with an output
(`load_pluginsAgree_iff`).
-/

namespace K2hFtFuse

open ByteSeq SpinLock

/-! ## Plugins -/

/-- The plugin object that a loader fills in. -/
def K2hFtPluginInfo.plugin (info : K2hFtPluginInfo) : Plugin :=
  { Plugin.fresh with
    BaseParam := info.BaseParam
    OutputPath := info.OutputPath
    PipeFilePath := info.PipeFilePath
    not_execute := info.not_execute }

theorem checkOutput_OutputPath {mountpoint : Bytes} {env : RunEnv} {p p' : Plugin}
    (h : checkOutput mountpoint env p = some p') : p'.OutputPath = p.OutputPath := by
  unfold checkOutput at h
  split at h
  · -- no file to watch: `st_dev` and `st_ino` are reset
    rw [← Option.some.inj h]
  · split at h
    · rw [Option.some.inj h]
    · rcases Option.map_eq_some_iff.1 h with ⟨made, -, rfl⟩
      rfl

/-- A plugin runs with the output path that it was given. -/
theorem runPlugin_OutputPath (mountpoint : Bytes) (env : RunEnv) (p : Plugin) :
    (runPlugin mountpoint env p).plugin.OutputPath = p.OutputPath := by
  unfold runPlugin
  split
  · rfl
  · split
    · rfl
    · rename_i p' hcheck
      have hpath := checkOutput_OutputPath hcheck
      dsimp only
      split
      · exact hpath
      · exact hpath

/-! ## One rule -/

/-- The rule and its plugin agree on the output that is configured: neither has one, or the plugin
has its full path. Without an output, a child of the plugin writes to `/dev/null`. -/
structure OutputAgrees (args : LoadArgs) (configured rule : K2hFtRule) (plugin : K2hFtPluginInfo) :
    Prop where
  empty : plugin.OutputPath = [] ↔ rule.OutputPath = []
  path : plugin.OutputPath ≠ [] →
    configured.OutputPath ≠ [] ∧ plugin.OutputPath = fullPath args configured.OutputPath
  stdout : rule.OutputPath = [] → ∀ env childpid,
    (runPlugin args.mountPoint env plugin.plugin).child = some childpid →
      (runPlugin args.mountPoint env plugin.plugin).plugin.ofile = ascii "/dev/null"

theorem fullPath_ne_nil (args : LoadArgs) (path : Bytes) : fullPath args path ≠ [] := by
  unfold fullPath
  split
  · simp
  · rename_i hhead
    rintro rfl
    exact hhead (by simp)

/-- The plugin of a finished section has a full path, whatever is configured. -/
theorem finishRule_pPlugin {args : LoadArgs} {is_dir_rule : Bool} {InitTime : Timespec}
    {pTmpRule : K2hFtRule} {AllowMatchs DenyMatchs : List K2hFtMatchPtn} {plugin : K2hFtPluginInfo}
    (h : (finishRule args is_dir_rule InitTime pTmpRule AllowMatchs DenyMatchs).pPlugin =
      some plugin) :
    plugin.OutputPath = fullPath args
      (finishRule args is_dir_rule InitTime pTmpRule AllowMatchs DenyMatchs).OutputPath := by
  rcases Option.map_eq_some_iff.1 h with ⟨plugin₀, -, rfl⟩
  rfl

/-- A file that is made has the absolute path that `realpath` gives. -/
def AbsoluteFiles (env : LoadEnv) : Prop :=
  ∀ key path mode abspath, path.head? = some SLASH →
    env.makeFileByAbsPath key path mode = some abspath → abspath.head? = some SLASH

/-- The path that is accepted for a rule is empty exactly when none was configured. -/
theorem initOutput_eq_nil_iff {args : LoadArgs} {env : LoadEnv} {RuleMap : OrdMap Bytes K2hFtRule}
    {key : Bytes} {pRule : K2hFtRule} {OutputPath : Bytes} (hfiles : AbsoluteFiles env)
    (h : initOutput args env RuleMap key pRule = .ok (some OutputPath)) :
    OutputPath = [] ↔ pRule.OutputPath = [] := by
  by_cases hdir : IsOutputDir pRule
  · refine iff_of_false ?_ hdir.ne_nil
    -- the directory is made, or it lies under the mount point
    rcases initOutput_dir_cases hdir h with ⟨abspath, -, rfl⟩ | rfl
    · simp
    · exact fullPath_ne_nil args pRule.OutputPath
  · rcases initOutput_file_cases hdir h with
      ⟨hempty, rfl⟩ | ⟨hne, houtside, hmade⟩ | ⟨hne, -, rfl⟩
    · exact iff_of_true rfl hempty
    · refine iff_of_false ?_ hne
      -- the file was made under an absolute name
      have hhead := hfiles _ _ _ _ houtside.1 hmade
      rintro rfl
      cases hhead
    · exact iff_of_false (fullPath_ne_nil args pRule.OutputPath) hne

/-- The rule has the plugin that its section gave it, and an output where an output was configured. -/
structure SameOutput (configured rule : K2hFtRule) : Prop where
  pPlugin : rule.pPlugin = configured.pPlugin
  OutputPath : rule.OutputPath = [] ↔ configured.OutputPath = []

namespace K2hFtInfo

theorem ruleRelation_sameOutput {args : LoadArgs} {envs : List LoadEnv}
    (hfiles : ∀ env ∈ envs, AbsoluteFiles env) : RuleRelation args envs SameOutput where
  refl _ := ⟨rfl, .rfl⟩
  output env henv _ _ _ _ _ hcall h :=
    ⟨h.pPlugin, (initOutput_eq_nil_iff (hfiles env henv) hcall).trans h.OutputPath⟩
  clear _ _ h := ⟨h.pPlugin, h.OutputPath⟩

/-! ## All rules -/

section Load

variable {lib : ConfLib} {stack : YamlDataStack} {args : LoadArgs} {config : Bytes}
  {source : ConfSource} {info info' : K2hFtInfo}

theorem mem_foldl_keep {trace : List YamlAt} {rules : List K2hFtRule} {rule : K2hFtRule}
    (h : rule ∈ trace.foldl (YamlAt.keep args) rules) :
    rule ∈ rules ∨ ∃ p ∈ trace, ∃ acl, p.ruleSection args = some (acl, rule) := by
  induction trace generalizing rules with
  | nil =>
      exact .inl h
  | cons p trace ih =>
      rcases ih h with hkept | ⟨q, hq, acl, hsec⟩
      · unfold YamlAt.keep at hkept
        split at hkept
        · cases hkept
        · -- the event refuses nothing, so it adds at most its own rule
          rcases List.mem_append.1 hkept with hold | hnew
          · exact .inl hold
          · rcases hsec : p.ruleSection args with _ | ⟨acl, rule'⟩
            · simp [hsec] at hnew
            · obtain rfl : rule = rule' := by simpa [hsec] using hnew
              exact .inr ⟨p, List.mem_cons_self, acl, hsec⟩
      · exact .inr ⟨q, List.mem_cons_of_mem p hq, acl, hsec⟩

/-- The rules of the sections are finished rules. -/
theorem mem_rules_finished {rule : K2hFtRule} (h : rule ∈ source.rules lib stack args info) :
    ∃ is_dir_rule InitTime pTmpRule AllowMatchs DenyMatchs,
      rule = finishRule args is_dir_rule InitTime pTmpRule AllowMatchs DenyMatchs := by
  cases source with
  | unknown =>
      cases h
  | ini lines env =>
      cases lines with
      | none =>
          cases h
      | some lines =>
          -- every rule section of the file is finished by `finishRule`
          simp only [ConfSource.rules, iniRuleSections, List.map_map, List.mem_map] at h
          rcases h with ⟨sec, -, rfl⟩
          exact ⟨_, _, _, _, _, rfl⟩
  | yaml events env =>
      rcases mem_foldl_keep h with hnil | ⟨p, -, acl, hsec⟩
      · cases hnil
      · unfold YamlAt.ruleSection at hsec
        split at hsec
        · split at hsec
          · -- a map ends inside the rules
            rcases Option.map_eq_some_iff.1 hsec with ⟨pTmpRule, -, hrule⟩
            exact ⟨_, _, _, _, _, (Prod.mk.inj hrule).2.symm⟩
          · cases hsec
        · cases hsec

/-- Every rule with a plugin agrees with it on the output that its section configures. -/
def PluginsAgree (lib : ConfLib) (stack : YamlDataStack) (args : LoadArgs) (source : ConfSource)
    (info info' : K2hFtInfo) : Prop :=
  ∀ target rule plugin, info'.RuleMap.find? target = some rule → rule.pPlugin = some plugin →
    ∃ configured, lastRule (source.rules lib stack args info) target = some configured ∧
      OutputAgrees args configured rule plugin

/-- Every section that names a plugin, and is the last one for its target, configures an output. -/
def OutputsConfigured (lib : ConfLib) (stack : YamlDataStack) (args : LoadArgs)
    (source : ConfSource) (info : K2hFtInfo) : Prop :=
  ∀ target configured, lastRule (source.rules lib stack args info) target = some configured →
    configured.pPlugin ≠ none → configured.OutputPath ≠ []

/-- After a load that returns true, the plugins agree with their rules exactly when every section with
a plugin that is not lost or replaced names an output other than `/dev/null`. -/
theorem load_pluginsAgree_iff {now : Option Timespec} (hfiles : ∀ env ∈ source.envs, AbsoluteFiles env)
    (h : (start now).load lib stack args config source = .ok (true, info')) :
    PluginsAgree lib stack args source (start now) info' ↔
      OutputsConfigured lib stack args source (start now) := by
  have hstems := @load_stems lib stack args config source SameOutput (start now) info' ⟨rfl, rfl⟩
    (ruleRelation_sameOutput hfiles) h
  constructor
  · intro hagree target configured hlast hplugin
    have hrel := hstems target
    rw [hlast] at hrel
    generalize hfind : info'.RuleMap.find? target = found at hrel
    cases hrel with
    | some hsame =>
        rename_i rule
        rcases Option.ne_none_iff_exists'.1 hplugin with ⟨plugin, hsome⟩
        rcases hagree target rule plugin hfind (hsame.pPlugin.trans hsome) with
          ⟨configured', hlast', hout⟩
        obtain rfl : configured = configured' := by
          rw [hlast] at hlast'
          exact Option.some.inj hlast'
        -- the plugin has a path in any case
        rcases mem_rules_finished (lastRule_mem hlast).1 with ⟨_, _, _, _, _, rfl⟩
        have hpath := finishRule_pPlugin hsome
        exact (hout.path (by rw [hpath]; exact fullPath_ne_nil args _)).1
  · intro hconfigured target rule plugin hfind hplugin
    have hrel := hstems target
    rw [hfind] at hrel
    generalize hlast : lastRule (source.rules lib stack args (start now)) target = last at hrel
    cases hrel with
    | some hsame =>
        rename_i configured
        have hsome : configured.pPlugin = some plugin := hsame.pPlugin.symm.trans hplugin
        have hne : configured.OutputPath ≠ [] :=
          hconfigured target configured hlast (by simp [hsome])
        have hpath : plugin.OutputPath = fullPath args configured.OutputPath := by
          rcases mem_rules_finished (lastRule_mem hlast).1 with ⟨_, _, _, _, _, rfl⟩
          exact finishRule_pPlugin hsome
        -- both have a path, and the child opens the one of the plugin
        have hempty : plugin.OutputPath = [] ↔ rule.OutputPath = [] := by
          refine iff_of_false ?_ fun hnil => hne (hsame.OutputPath.1 hnil)
          rw [hpath]
          exact fullPath_ne_nil args _
        refine ⟨configured, rfl, hempty, fun _ => ⟨hne, hpath⟩, ?_⟩
        intro hnil env childpid _
        have hrun := runPlugin_OutputPath args.mountPoint env plugin.plugin
        rw [Plugin.ofile, hrun]
        exact if_pos (hempty.2 hnil)

end Load

theorem absoluteFiles_plainEnv : AbsoluteFiles plainEnv := by
  intro key path mode abspath hhead hmade
  rw [← Option.some.inj hmade]
  exact hhead

/-- A plugin whose output is a file. -/
def pluginIni : ConfSource :=
  iniOf ["[K2HFTFUSE]", "[K2HFTFUSE_RULE]", "TARGET = log/a", "PLUGIN = /bin/cat",
    "OUTPUTFILE = /var/log/a"]

theorem load_pluginsAgree_iff_pluginIni : ∃ info',
    (start none).load plainLib plainStack plainArgs (ascii "/etc/k2hftfuse.ini") pluginIni =
      .ok (true, info') ∧
        PluginsAgree plainLib plainStack plainArgs pluginIni (start none) info' := by
  have hrun : ∃ info', (start none).load plainLib plainStack plainArgs (ascii "/etc/k2hftfuse.ini")
      pluginIni = .ok (true, info') ∧ info'.RuleMap.keys = [ascii "log/a"] :=
    exists_of_toOption (by decide +kernel)
  rcases hrun with ⟨info', hload, -⟩
  have hfiles : ∀ env ∈ pluginIni.envs, AbsoluteFiles env := by
    intro env henv
    obtain rfl : env = plainEnv := by
      simp only [pluginIni, iniOf, ConfSource.envs, Option.getD_some, List.map_map, List.mem_append,
        List.mem_map, List.mem_singleton, Function.comp_apply] at henv
      rcases henv with ⟨line, -, rfl⟩ | rfl
      · rfl
      · rfl
    exact absoluteFiles_plainEnv
  refine ⟨info', hload, (load_pluginsAgree_iff hfiles hload).2 ?_⟩
  intro target configured hlast _
  have houtputs : ∀ rule ∈ pluginIni.rules plainLib plainStack plainArgs (start none),
      rule.OutputPath ≠ [] := by decide +kernel
  exact houtputs configured (lastRule_mem hlast).1

/-- A plugin whose output is thrown away. -/
def discardIni : ConfSource :=
  iniOf ["[K2HFTFUSE]", "[K2HFTFUSE_RULE]", "TARGET = log/a", "PLUGIN = /bin/cat",
    "OUTPUTFILE = /dev/null"]

/-- The rule has no output, and the plugin would write to the mount point. -/
theorem discardIni_opens_mountPoint : ∃ info' rule plugin,
    (start none).load plainLib plainStack plainArgs (ascii "/etc/k2hftfuse.ini") discardIni =
      .ok (true, info') ∧
        info'.RuleMap.find? (ascii "log/a") = some rule ∧ rule.pPlugin = some plugin ∧
        rule.OutputPath = [] ∧ plugin.plugin.ofile = ascii "/mnt/k2hftfuse/" ∧
        ¬ PluginsAgree plainLib plainStack plainArgs discardIni (start none) info' := by
  have hrun : ∃ info', (start none).load plainLib plainStack plainArgs (ascii "/etc/k2hftfuse.ini")
      discardIni = .ok (true, info') ∧
        (info'.RuleMap.find? (ascii "log/a")).map (fun rule =>
          (rule.OutputPath, rule.pPlugin.map fun plugin => plugin.plugin.ofile)) =
          some ([], some (ascii "/mnt/k2hftfuse/")) :=
    exists_of_toOption (by decide +kernel)
  rcases hrun with ⟨info', hload, hresult⟩
  rcases Option.map_eq_some_iff.1 hresult with ⟨rule, hrule, hpaths⟩
  obtain ⟨houtput, hofile⟩ := Prod.mk.inj hpaths
  rcases Option.map_eq_some_iff.1 hofile with ⟨plugin, hplugin, hfile⟩
  refine ⟨info', rule, plugin, hload, hrule, hplugin, houtput, hfile, ?_⟩
  intro hagree
  rcases hagree _ rule plugin hrule hplugin with ⟨configured, -, hout⟩
  have hempty : plugin.plugin.OutputPath = [] := hout.empty.2 houtput
  rw [Plugin.ofile, if_pos hempty] at hfile
  exact absurd hfile (by decide +kernel)

end K2hFtInfo

end K2hFtFuse
