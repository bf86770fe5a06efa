import K2hFtFuse.Info.Client

/-!
# Info.Readings — what a load of a client configuration comes to

The run of each loader over a written configuration is reduced to what it does with the main settings
and the rules:

- both read the main settings in the same way (`loadMain`);
- the INI loader registers all rules and prepares the outputs once (`load_ini_iff`);
- the YAML loader does so at the end of every group (`yamlGroups`), and goes on with an empty object
  when the outputs are refused (`load_yaml_iff`).
-/

namespace K2hFtFuse

open ByteSeq SpinLock

namespace K2hFtInfo

/-! ## Settings and rules -/

/-- The main settings in their order, until one is refused. -/
def loadMain (lib : ConfLib) (env : LoadEnv) : List (Bytes × Bytes) → K2hFtInfo → Bool × K2hFtInfo
  | [], info => (true, info)
  | (key, value) :: rest, info =>
      match info.loadMainKey lib env (fun name => strcasecmp name key) value with
      | (true, info) => loadMain lib env rest info
      | (false, info) => (false, info)

/-- The rules of sections that are registered one after the other. -/
def registerAll (rules : List (List AclEntry × K2hFtRule)) (info : K2hFtInfo) : K2hFtInfo :=
  rules.foldl (fun info r => info.register r.1 r.2) info

end K2hFtInfo

/-- The rule of an INI section, with what the section says about lines. -/
def iniRuleOf (lib : ConfLib) (args : LoadArgs) (env : LoadEnv) (InitTime : Timespec)
    (sec : Bool × List RuleEntry) : List AclEntry × K2hFtRule :=
  let s := iniSection lib env sec.2
  (s.acl, finishRule args sec.1 InitTime s.pTmpRule s.AllowMatchs s.DenyMatchs)

/-- The rule of a mapping in a YAML sequence: it is never one for directories. -/
def yamlRuleOf (lib : ConfLib) (args : LoadArgs) (env : LoadEnv) (InitTime : Timespec)
    (entries : List RuleEntry) : List AclEntry × K2hFtRule :=
  let s := yamlSection lib env entries
  (s.acl, finishRule args false InitTime s.pTmpRule s.AllowMatchs s.DenyMatchs)

namespace K2hFtInfo

/-- A whole group in the YAML loader: the end of its sequence prepares the outputs of all rules. -/
def yamlGroup (lib : ConfLib) (args : LoadArgs) (env : LoadEnv) (g : RuleGroup) (info : K2hFtInfo) :
    Except Stop K2hFtInfo := do
  let info := info.registerAll (g.rules.map (yamlRuleOf lib args env info.InitTime))
  let (result, info) ← info.initializeOutputFiles args env
  if !result then
    info.clean (env.now 0)
  else
    info.checkBinaryMode

def yamlGroups (lib : ConfLib) (args : LoadArgs) (env : LoadEnv) :
    List RuleGroup → K2hFtInfo → Except Stop K2hFtInfo
  | [], info => .ok info
  | g :: groups, info => do
      let info ← info.yamlGroup lib args env g
      yamlGroups lib args env groups info

/-- The main settings, which no rule changes. -/
structure SameMain (info info' : K2hFtInfo) : Prop where
  IsMemType : info'.IsMemType = info.IsMemType
  K2hFilePath : info'.K2hFilePath = info.K2hFilePath
  IsInitialize : info'.IsInitialize = info.IsInitialize
  IsFullmap : info'.IsFullmap = info.IsFullmap
  MaskBitCnt : info'.MaskBitCnt = info.MaskBitCnt
  CMaskBitCnt : info'.CMaskBitCnt = info.CMaskBitCnt
  MaxElementCnt : info'.MaxElementCnt = info.MaxElementCnt
  PageSize : info'.PageSize = info.PageSize
  DtorThreadCnt : info'.DtorThreadCnt = info.DtorThreadCnt
  DtorCtpPath : info'.DtorCtpPath = info.DtorCtpPath
  IsBinaryMode : info'.IsBinaryMode = info.IsBinaryMode
  ExpireTime : info'.ExpireTime = info.ExpireTime
  limits : info'.limits = info.limits

theorem SameMain.refl (info : K2hFtInfo) : SameMain info info := by
  constructor <;> rfl

theorem SameMain.trans {info₁ info₂ info₃ : K2hFtInfo} (h : SameMain info₁ info₂)
    (h' : SameMain info₂ info₃) : SameMain info₁ info₃ :=
  ⟨h'.1.trans h.1, h'.2.trans h.2, h'.3.trans h.3, h'.4.trans h.4, h'.5.trans h.5, h'.6.trans h.6,
    h'.7.trans h.7, h'.8.trans h.8, h'.9.trans h.9, h'.10.trans h.10, h'.11.trans h.11,
    h'.12.trans h.12, h'.13.trans h.13⟩

theorem SameMain.symm {info info' : K2hFtInfo} (h : SameMain info info') : SameMain info' info :=
  ⟨h.1.symm, h.2.symm, h.3.symm, h.4.symm, h.5.symm, h.6.symm, h.7.symm, h.8.symm, h.9.symm,
    h.10.symm, h.11.symm, h.12.symm, h.13.symm⟩

theorem SameMain.mainValuesOk {info info' : K2hFtInfo} (h : SameMain info info') :
    info'.mainValuesOk = info.mainValuesOk := by
  simp only [K2hFtInfo.mainValuesOk, h.IsMemType, h.K2hFilePath, h.IsInitialize, h.IsFullmap]

/-- What registering leaves alone. -/
structure Registered (info info' : K2hFtInfo) : Prop where
  main : SameMain info info'
  prule_lockval : info'.prule_lockval = info.prule_lockval
  Config : info'.Config = info.Config
  InitTime : info'.InitTime = info.InitTime

theorem Registered.trans {info₁ info₂ info₃ : K2hFtInfo} (h : Registered info₁ info₂)
    (h' : Registered info₂ info₃) : Registered info₁ info₃ :=
  ⟨h.main.trans h'.main, h'.prule_lockval.trans h.prule_lockval, h'.Config.trans h.Config,
    h'.InitTime.trans h.InitTime⟩

theorem register_registered (acl : List AclEntry) (rule : K2hFtRule) (info : K2hFtInfo) :
    Registered info (info.register acl rule) :=
  ⟨by constructor <;> rfl, rfl, rfl, rfl⟩

theorem registerAll_registered (rules : List (List AclEntry × K2hFtRule)) (info : K2hFtInfo) :
    Registered info (info.registerAll rules) := by
  induction rules generalizing info with
  | nil => exact ⟨.refl info, rfl, rfl, rfl⟩
  | cons r rules ih => exact (register_registered r.1 r.2 info).trans (ih _)

/-! ## The INI loader -/

section Ini

variable {lib : ConfLib} {args : LoadArgs} {env : LoadEnv} {conf : ClientConf}

/-- The main section. -/
theorem loadIniMainLines_main (hback : conf.ReadsBack lib) {main : List (Bytes × Bytes)}
    (hmain : ∀ p ∈ main, p ∈ conf.main) (info : K2hFtInfo) :
    loadIniMainLines lib (readIni env (main.map fun p => iniText p.1 p.2)) info =
      match info.loadMain lib env main with
      | (true, info) => .ok (true, info)
      | (false, info) => do
          let info ← info.clean (env.now 0)
          return (false, info) := by
  induction main generalizing info with
  | nil => rfl
  | cons p main ih =>
      rcases p with ⟨key, value⟩
      have hread := hback.main (key, value) (hmain _ List.mem_cons_self)
      have hrest := ih fun q hq => hmain q (List.mem_cons_of_mem _ hq)
      have htexts : readIni env (((key, value) :: main).map fun p => iniText p.1 p.2) =
          { text := iniText key value, env := env } ::
            readIni env (main.map fun p => iniText p.1 p.2) := rfl
      rw [htexts]
      simp only [loadIniMainLines, hread.parsed, loadMainKey_upper hback.upper, loadMain]
      rcases info.loadMainKey lib env (fun name => strcasecmp name key) value with ⟨_ | _, info₁⟩
      · rfl
      · exact hrest info₁

/-- The rule sections: their rules are registered. -/
theorem loadIniSections_rules (hconf : conf.WellFormed) (hback : conf.ReadsBack lib)
    {secs : List (Bool × List RuleEntry)} (hsecs : ∀ sec ∈ secs, sec ∈ conf.sections)
    (set_main_sec : Bool) (info : K2hFtInfo) :
    loadIniSections lib args (secs.map (iniSectionOf env)) set_main_sec info =
      .ok (true, info.registerAll (secs.map (iniRuleOf lib args env info.InitTime))) := by
  induction secs generalizing info with
  | nil => rfl
  | cons sec secs ih =>
      have hrest := ih fun s hs => hsecs s (List.mem_cons_of_mem _ hs)
      have hne : ruleHeader sec.1 ≠ INI_K2HFT_MAIN_SEC_STR := by
        cases sec.1 <;> decide
      have hor : ruleHeader sec.1 = INI_K2HFT_RULEDIR_SEC_STR ∨
          ruleHeader sec.1 = INI_K2HFT_RULE_SEC_STR := by
        cases sec.1
        · exact .inr rfl
        · exact .inl rfl
      have hdir : (ruleHeader sec.1 == INI_K2HFT_RULEDIR_SEC_STR) = sec.1 := by
        cases sec.1 <;> decide
      simp only [List.map_cons, loadIniSections, iniSectionOf, if_neg hne, if_pos hor, hdir,
        loadIniRuleSec, loadIniRuleLines_section hconf hback (hsecs sec List.mem_cons_self)]
      exact hrest _

theorem clean_return_ne_true {now : Option Timespec} {info info' : K2hFtInfo} :
    (do
      let info ← info.clean now
      return (false, info) : Except Stop (Bool × K2hFtInfo)) ≠ .ok (true, info') := by
  intro h
  rcases hclean : info.clean now with e | info₁ <;>
    simp [hclean, Bind.bind, Except.bind, pure, Except.pure] at h

theorem finishIni_eq_true_iff {conffile : Bytes} {info info' : K2hFtInfo} :
    finishIni args conffile env info = .ok (true, info') ↔
      info.mainValuesOk = true ∧ ∃ info₁ info₂,
        info.initializeOutputFiles args env = .ok (true, info₁) ∧
        info₁.checkBinaryMode = .ok info₂ ∧ info' = info₂.setLoaded args conffile := by
  unfold finishIni
  cases hvalues : info.mainValuesOk with
  | false =>
      simp only [Bool.not_false, if_true, Bool.false_eq_true, false_and, iff_false]
      exact clean_return_ne_true
  | true =>
      simp only [Bool.not_true, Bool.false_eq_true, if_false, true_and]
      rcases houtputs : info.initializeOutputFiles args env with e | ⟨_ | _, info₁⟩
      · simp [Bind.bind, Except.bind]
      · simpa [Bind.bind, Except.bind] using clean_return_ne_true
      · rcases hbinary : info₁.checkBinaryMode with e | info₂
        · simp [Bind.bind, Except.bind, hbinary]
        · simp [Bind.bind, Except.bind, pure, Except.pure, hbinary, eq_comm]

/-- A load of the INI file that returns true. -/
theorem load_ini_iff {stack : YamlDataStack} {config : Bytes} {info info' : K2hFtInfo}
    (hconf : conf.WellFormed) (hback : conf.ReadsBack lib) (hconfig : config ≠ [])
    (hunloaded : info.Config = []) :
    info.load lib stack args config (conf.ini env) = .ok (true, info') ↔
      ∃ info₀, info.loadMain lib env conf.main = (true, info₀) ∧ info₀.mainValuesOk = true ∧
        ∃ info₁ info₂,
          (info₀.registerAll
            (conf.sections.map (iniRuleOf lib args env info₀.InitTime))).initializeOutputFiles args env =
              .ok (true, info₁) ∧
          info₁.checkBinaryMode = .ok info₂ ∧ info' = info₂.setLoaded args config := by
  have hsections : iniSections (conf.iniTexts.map fun text => { text := text, env := env }) = _ :=
    iniSections_iniTexts hback env
  simp only [load, ClientConf.ini, loadIni, if_neg hconfig, hunloaded, ne_eq, not_true_eq_false,
    if_false, hsections, loadIniSections, if_true, Bool.false_eq_true,
    loadIniMainLines_main hback (fun p hp => hp)]
  rcases info.loadMain lib env conf.main with ⟨_ | _, info₀⟩
  · -- a main setting was refused
    rcases hclean : info₀.clean (env.now 0) with e | info₁ <;>
      simp [hclean, Bind.bind, Except.bind, pure, Except.pure]
  · have hrules := registerAll_registered
      (conf.sections.map (iniRuleOf lib args env info₀.InitTime)) info₀
    by_cases htype : (info₀.IsMemType && !info₀.K2hFilePath.isEmpty) = true
    · -- the check at the end of the main section is one of the later checks
      have hvalues : info₀.mainValuesOk = false := by
        simp [mainValuesOk, htype]
      rcases hclean : info₀.clean (env.now 0) with e | info₁ <;>
        simp [hclean, Bind.bind, Except.bind, pure, Except.pure, htype, hvalues]
    · simp only [Bind.bind, Except.bind, Bool.not_true, Bool.false_eq_true, if_false, if_neg htype,
        loadIniSections_rules hconf hback (fun sec hsec => hsec)]
      rw [finishIni_eq_true_iff, hrules.main.mainValuesOk]
      simp

end Ini

/-! ## The YAML loader -/

end K2hFtInfo

/-- An open mapping of a rule sequence, by what it says. -/
def IniRule.opened (s : IniRule) : YamlRule :=
  { in_mapping := true
    pTmpRule := some s.pTmpRule
    AllowMatchs := s.AllowMatchs
    DenyMatchs := s.DenyMatchs
    key := []
    acl := s.acl }

/-- In the mapping at the top of a document. -/
def YamlTop.inMapping : YamlTop :=
  { other_stack := []
    in_stream := true
    in_document := true
    in_toplevel := true }

/-- The keys of settings are not empty, and not those of values. -/
def EntriesOk (entries : List RuleEntry) : Prop :=
  ∀ key value, .setting key value ∈ entries →
    key ≠ [] ∧ strcasecmp (ascii "ALLOW") key = false ∧ strcasecmp (ascii "DENY") key = false

def readYaml (env : LoadEnv) (events : List YamlEvent) : List YamlRead :=
  events.map fun event => { event := event, env := env }

namespace K2hFtInfo

theorem pushMatch_opened (env : LoadEnv) (s : IniRule) (allow : Bool) (v : AclValue) :
    pushMatch allow s.opened (v.yamlPattern env) = (s.yamlValue env (allow, v)).opened := by
  have hdeny : strcasecmp (ascii "ALLOW") [] = false := by decide
  unfold pushMatch IniRule.yamlValue
  cases v.yamlPattern env with
  | none => rfl
  | some pMatchPtn =>
      simp only [hdeny, Bool.false_eq_true, if_false]
      rfl

section Yaml

variable {lib : ConfLib} {stack : YamlDataStack} {args : LoadArgs} {env env' : LoadEnv}
  {rest : List YamlRead} {top : YamlTop} {info : K2hFtInfo}

/-- One event that the loader goes on after. -/
theorem loadYamlEvents_continue {event : YamlEvent} {top' : YamlTop} {phase phase' : YamlPhase}
    {info' : K2hFtInfo}
    (hstep : yamlStep lib stack args env top phase event info =
      .ok (.continue top' phase', info')) :
    loadYamlEvents lib stack args env' ({ event := event, env := env } :: rest) top phase info =
      loadYamlEvents lib stack args env' rest top' phase' info' := by
  simp only [loadYamlEvents, hstep]

/-- A value in the sequence of `ALLOW` or `DENY`. -/
theorem loadYamlEvents_value (s : IniRule) (allow : Bool) (v : AclValue) :
    loadYamlEvents lib stack args env' (readYaml env v.events ++ rest) top
        (.acl allow s.opened (.part true)) info =
      loadYamlEvents lib stack args env' rest top
        (.acl allow (s.yamlValue env (allow, v)).opened (.part true)) info := by
  rw [← pushMatch_opened]
  cases v with
  | text a => rfl
  | replace expression replacement => rfl

theorem loadYamlEvents_values (s : IniRule) (allow : Bool) (values : List AclValue) :
    loadYamlEvents lib stack args env' (readYaml env (values.flatMap AclValue.events) ++ rest) top
        (.acl allow s.opened (.part true)) info =
      loadYamlEvents lib stack args env' rest top
        (.acl allow ((values.map fun v => (allow, v)).foldl (IniRule.yamlValue env) s).opened
          (.part true)) info := by
  induction values generalizing s with
  | nil => rfl
  | cons v values ih =>
      have hevents : readYaml env ((v :: values).flatMap AclValue.events) ++ rest =
          readYaml env v.events ++ (readYaml env (values.flatMap AclValue.events) ++ rest) := by
        simp [readYaml]
      rw [hevents, loadYamlEvents_value]
      exact ih _

/-- An entry of an open mapping. -/
theorem loadYamlEvents_entry (s : IniRule) {entry : RuleEntry}
    (hentry : ∀ key value, entry = .setting key value →
      key ≠ [] ∧ strcasecmp (ascii "ALLOW") key = false ∧ strcasecmp (ascii "DENY") key = false) :
    loadYamlEvents lib stack args env' (readYaml env entry.events ++ rest) top (.rule s.opened) info =
      loadYamlEvents lib stack args env' rest top
        (.rule (IniRule.entry lib env (IniRule.yamlValue env) s entry).opened) info := by
  cases entry with
  | setting key value =>
      rcases hentry key value rfl with ⟨hkey, hallow, hdeny⟩
      have hname : yamlStep lib stack args env top (.rule s.opened) (.scalar key) info =
          .ok (.continue top (.rule { s.opened with key := key }), info) := by
        simp [yamlStep, yamlRuleStep, yamlRuleScalar, IniRule.opened, hallow, hdeny]
      have hvalue : yamlStep lib stack args env top (.rule { s.opened with key := key })
          (.scalar value) info =
            .ok (.continue top (.rule (s.setting lib env key value).opened), info) := by
        simp [yamlStep, yamlRuleStep, yamlRuleScalar, IniRule.opened, IniRule.setting, hkey]
      exact (loadYamlEvents_continue hname).trans (loadYamlEvents_continue hvalue)
  | acl allow value =>
      have hname : yamlStep lib stack args env top (.rule s.opened) (.scalar (aclKey allow)) info =
          .ok (.continue top (.acl allow s.opened (.part false)), info) := by
        cases allow <;> rfl
      have hvalue : yamlStep lib stack args env top (.acl allow s.opened (.part false))
          (.scalar value.yaml) info =
            .ok (.continue top (.rule (s.yamlValue env (allow, .text value)).opened), info) := by
        rw [← pushMatch_opened]
        rfl
      exact (loadYamlEvents_continue hname).trans (loadYamlEvents_continue hvalue)
  | aclList allow values =>
      have hname : yamlStep lib stack args env top (.rule s.opened) (.scalar (aclKey allow)) info =
          .ok (.continue top (.acl allow s.opened (.part false)), info) := by
        cases allow <;> rfl
      have hevents : readYaml env (RuleEntry.aclList allow values).events ++ rest =
          { event := .scalar (aclKey allow), env := env } :: { event := .sequenceStart, env := env } ::
            (readYaml env (values.flatMap AclValue.events) ++
              { event := .sequenceEnd, env := env } :: rest) := by
        simp [readYaml, RuleEntry.events]
      rw [hevents, loadYamlEvents_continue hname, loadYamlEvents_continue rfl,
        loadYamlEvents_values, loadYamlEvents_continue rfl]
      rfl

theorem loadYamlEvents_entries {entries : List RuleEntry} (hentries : EntriesOk entries)
    (s : IniRule) :
    loadYamlEvents lib stack args env' (readYaml env (entries.flatMap RuleEntry.events) ++ rest) top
        (.rule s.opened) info =
      loadYamlEvents lib stack args env' rest top
        (.rule (entries.foldl (IniRule.entry lib env (IniRule.yamlValue env)) s).opened) info := by
  induction entries generalizing s with
  | nil => rfl
  | cons entry entries ih =>
      have hevents : readYaml env ((entry :: entries).flatMap RuleEntry.events) ++ rest =
          readYaml env entry.events ++
            (readYaml env (entries.flatMap RuleEntry.events) ++ rest) := by
        simp [readYaml]
      rw [hevents, loadYamlEvents_entry s
        (fun key value heq => hentries key value (heq ▸ List.mem_cons_self))]
      exact ih (fun key value hmem => hentries key value (List.mem_cons_of_mem _ hmem)) _

/-- A mapping of a rule sequence registers its rule. -/
theorem loadYamlEvents_mapping {entries : List RuleEntry} (hentries : EntriesOk entries) :
    loadYamlEvents lib stack args env' (readYaml env (ruleEvents entries) ++ rest) top
        (.rule YamlRule.fresh) info =
      loadYamlEvents lib stack args env' rest top (.rule YamlRule.fresh)
        (info.register (yamlRuleOf lib args env info.InitTime entries).1
          (yamlRuleOf lib args env info.InitTime entries).2) := by
  have hevents : readYaml env (ruleEvents entries) ++ rest =
      { event := .mappingStart, env := env } ::
        (readYaml env (entries.flatMap RuleEntry.events) ++
          { event := .mappingEnd, env := env } :: rest) := by
    simp [readYaml, ruleEvents]
  have hstart : yamlStep lib stack args env top (.rule YamlRule.fresh) .mappingStart info =
      .ok (.continue top (.rule IniRule.fresh.opened), info) := rfl
  rw [hevents, loadYamlEvents_continue hstart, loadYamlEvents_entries hentries]
  exact loadYamlEvents_continue rfl

theorem loadYamlEvents_mappings {rules : List (List RuleEntry)}
    (hrules : ∀ entries ∈ rules, EntriesOk entries) (info : K2hFtInfo) :
    loadYamlEvents lib stack args env' (readYaml env (rules.flatMap ruleEvents) ++ rest) top
        (.rule YamlRule.fresh) info =
      loadYamlEvents lib stack args env' rest top (.rule YamlRule.fresh)
        (info.registerAll (rules.map (yamlRuleOf lib args env info.InitTime))) := by
  induction rules generalizing info with
  | nil => rfl
  | cons entries rules ih =>
      have hevents : readYaml env ((entries :: rules).flatMap ruleEvents) ++ rest =
          readYaml env (ruleEvents entries) ++ (readYaml env (rules.flatMap ruleEvents) ++ rest) := by
        simp [readYaml]
      rw [hevents, loadYamlEvents_mapping (hrules entries List.mem_cons_self)]
      exact ih (fun e he => hrules e (List.mem_cons_of_mem _ he)) _

/-- A group. -/
theorem loadYamlEvents_group {g : RuleGroup} (hrules : ∀ entries ∈ g.rules, EntriesOk entries) :
    loadYamlEvents lib stack args env' (readYaml env g.events ++ rest) top (.main []) info =
      info.yamlGroup lib args env g >>= loadYamlEvents lib stack args env' rest top (.main []) := by
  have hevents : readYaml env g.events ++ rest =
      { event := .scalar (groupKey g.is_dir), env := env } ::
        { event := .sequenceStart, env := env } ::
          (readYaml env (g.rules.flatMap ruleEvents) ++
            { event := .sequenceEnd, env := env } :: rest) := by
    simp [readYaml, RuleGroup.events]
  have hname : yamlStep lib stack args env top (.main []) (.scalar (groupKey g.is_dir)) info =
      .ok (.continue top .ruleStart, info) := by
    cases g.is_dir <;> rfl
  rw [hevents, loadYamlEvents_continue hname, loadYamlEvents_continue rfl,
    loadYamlEvents_mappings hrules]
  -- the end of the sequence
  simp only [loadYamlEvents, yamlStep, yamlRuleStep, YamlRule.fresh, yamlGroup, Bool.false_eq_true,
    if_false, Bind.bind, Except.bind]
  rcases (info.registerAll (g.rules.map (yamlRuleOf lib args env info.InitTime))).initializeOutputFiles
    args env with e | ⟨_ | _, info₁⟩
  · rfl
  · rcases hclean : info₁.clean (env.now 0) with e | info₂ <;>
      simp [hclean, pure, Except.pure]
  · rcases hbinary : info₁.checkBinaryMode with e | info₂ <;>
      simp [hbinary, pure, Except.pure]

theorem loadYamlEvents_groups {groups : List RuleGroup}
    (hgroups : ∀ g ∈ groups, ∀ entries ∈ g.rules, EntriesOk entries) (info : K2hFtInfo) :
    loadYamlEvents lib stack args env' (readYaml env (groups.flatMap RuleGroup.events) ++ rest) top
        (.main []) info =
      yamlGroups lib args env groups info >>=
        loadYamlEvents lib stack args env' rest top (.main []) := by
  induction groups generalizing info with
  | nil => rfl
  | cons g groups ih =>
      have hevents : readYaml env ((g :: groups).flatMap RuleGroup.events) ++ rest =
          readYaml env g.events ++ (readYaml env (groups.flatMap RuleGroup.events) ++ rest) := by
        simp [readYaml]
      rw [hevents, loadYamlEvents_group (hgroups g List.mem_cons_self)]
      simp only [yamlGroups, Bind.bind, Except.bind]
      cases info.yamlGroup lib args env g with
      | error e => rfl
      | ok info₁ => exact ih (fun h hh => hgroups h (List.mem_cons_of_mem _ hh)) info₁

/-- A pair of the main mapping. -/
theorem loadYamlEvents_pair {key : Bytes} (hkey : key ≠ []) (hrule : isRuleKey key = false)
    (value : Bytes) :
    loadYamlEvents lib stack args env'
        ({ event := .scalar key, env := env } :: { event := .scalar value, env := env } :: rest) top
        (.main []) info =
      match info.loadMainKey lib env (fun name => strcasecmp name key) value with
      | (true, info) => loadYamlEvents lib stack args env' rest top (.main []) info
      | (false, info) => do
          let info ← info.clean (env.now 0)
          return (false, info) := by
  have hname : yamlStep lib stack args env top (.main []) (.scalar key) info =
      .ok (.continue top (.main key), info) := by
    have hno : ¬ (strcasecmp (ascii "K2HFTFUSE_RULE_DIR") key = true ∨
        strcasecmp (ascii "K2HFTFUSE_RULE") key = true) := by
      simpa [isRuleKey] using hrule
    simp only [yamlStep, yamlMainStep, if_true, if_neg hno]
  rw [loadYamlEvents_continue hname]
  simp only [loadYamlEvents, yamlStep, yamlMainStep, if_neg hkey]
  rcases info.loadMainKey lib env (fun name => strcasecmp name key) value with ⟨_ | _, info₁⟩
  · simp only [failYamlMain, Bind.bind, Except.bind]
    cases info₁.clean (env.now 0) <;> rfl
  · rfl

theorem readYaml_pairs (p : Bytes × Bytes) (main : List (Bytes × Bytes)) :
    readYaml env ((p :: main).flatMap fun p => [.scalar p.1, .scalar p.2]) ++ rest =
      { event := .scalar p.1, env := env } :: { event := .scalar p.2, env := env } ::
        (readYaml env (main.flatMap fun p => [.scalar p.1, .scalar p.2]) ++ rest) := by
  simp [readYaml]

/-- The main settings. -/
theorem loadYamlEvents_main {main : List (Bytes × Bytes)} (hmain : ∀ p ∈ main, p.1 ≠ [])
    (hrule : ∀ p ∈ main, isRuleKey p.1 = false) (info : K2hFtInfo) :
    loadYamlEvents lib stack args env'
        (readYaml env (main.flatMap fun p => [.scalar p.1, .scalar p.2]) ++ rest) top (.main []) info =
      match info.loadMain lib env main with
      | (true, info) => loadYamlEvents lib stack args env' rest top (.main []) info
      | (false, info) => do
          let info ← info.clean (env.now 0)
          return (false, info) := by
  induction main generalizing info with
  | nil => rfl
  | cons p main ih =>
      have hrest := ih (fun q hq => hmain q (List.mem_cons_of_mem _ hq))
        (fun q hq => hrule q (List.mem_cons_of_mem _ hq))
      rw [readYaml_pairs,
        loadYamlEvents_pair (hmain p List.mem_cons_self) (hrule p List.mem_cons_self)]
      simp only [loadMain]
      rcases info.loadMainKey lib env (fun name => strcasecmp name p.1) p.2 with ⟨_ | _, info₁⟩
      · rfl
      · exact hrest info₁

/-- A pair with the key of rule sections, whose value is no sequence. -/
theorem loadYamlEvents_ruleKey {main : List (Bytes × Bytes)} (hmain : ∀ p ∈ main, p.1 ≠ [])
    (hrule : ∃ p ∈ main, isRuleKey p.1 = true) (info info' : K2hFtInfo) :
    loadYamlEvents lib stack args env'
        (readYaml env (main.flatMap fun p => [.scalar p.1, .scalar p.2]) ++ rest) top (.main []) info ≠
      .ok (true, info') := by
  induction main generalizing info with
  | nil =>
      rcases hrule with ⟨p, hp, -⟩
      cases hp
  | cons p main ih =>
      rw [readYaml_pairs]
      cases hkey : isRuleKey p.1 with
      | true =>
          -- the scalar stands where the sequence must start
          have hname : yamlStep lib stack args env top (.main []) (.scalar p.1) info =
              .ok (.continue top .ruleStart, info) := by
            have hor : strcasecmp (ascii "K2HFTFUSE_RULE_DIR") p.1 = true ∨
                strcasecmp (ascii "K2HFTFUSE_RULE") p.1 = true := by
              simpa [isRuleKey] using hkey
            simp only [yamlStep, yamlMainStep, if_true, if_pos hor]
          rw [loadYamlEvents_continue hname]
          intro h
          rcases hclean : info.clean (env.now 0) with e | info₁ <;>
            simp [loadYamlEvents, yamlStep, failYamlMain, hclean, Bind.bind, Except.bind, pure,
              Except.pure] at h
      | false =>
          rw [loadYamlEvents_pair (hmain p List.mem_cons_self) hkey]
          rcases info.loadMainKey lib env (fun name => strcasecmp name p.1) p.2 with ⟨_ | _, info₁⟩
          · exact clean_return_ne_true
          · refine ih (fun q hq => hmain q (List.mem_cons_of_mem _ hq)) ?_ info₁
            rcases hrule with ⟨q, hq, hqkey⟩
            rcases List.mem_cons.1 hq with rfl | hq
            · rw [hkey] at hqkey
              cases hqkey
            · exact ⟨q, hq, hqkey⟩

end Yaml

section Stream

variable {lib : ConfLib} {stack : YamlDataStack} {args : LoadArgs} {env : LoadEnv}
  {conf : ClientConf} {config : Bytes} {info info' : K2hFtInfo}

/-- The stream is read up to the main settings. -/
theorem loadYamlEvents_stream :
    loadYamlEvents lib stack args env
        (readYaml env (yamlStream conf.mainEvents)) YamlTop.fresh .top info =
      loadYamlEvents lib stack args env
        (readYaml env (conf.main.flatMap fun p => [.scalar p.1, .scalar p.2]) ++
          (readYaml env (conf.groups.flatMap RuleGroup.events) ++
            readYaml env [.mappingEnd, .mappingEnd, .documentEnd, .streamEnd]))
        YamlTop.inMapping (.main []) info := by
  have hevents : readYaml env (yamlStream conf.mainEvents) =
      readYaml env [.streamStart, .documentStart, .mappingStart, .scalar (ascii "K2HFTFUSE"),
        .mappingStart] ++
        (readYaml env (conf.main.flatMap fun p => [.scalar p.1, .scalar p.2]) ++
          (readYaml env (conf.groups.flatMap RuleGroup.events) ++
            readYaml env [.mappingEnd, .mappingEnd, .documentEnd, .streamEnd])) := by
    simp [yamlStream, ClientConf.mainEvents, readYaml]
  rw [hevents]
  rfl

/-- The ends of the mappings, of the document and of the stream. -/
theorem loadYamlEvents_end (info : K2hFtInfo) :
    loadYamlEvents lib stack args env
        (readYaml env [.mappingEnd, .mappingEnd, .documentEnd, .streamEnd]) YamlTop.inMapping
        (.main []) info =
      if info.mainValuesOk then .ok (true, info)
      else do
        let info ← info.clean (env.now 0)
        return (false, info) := by
  simp only [readYaml, List.map_cons, loadYamlEvents, yamlStep, yamlMainStep]
  cases info.mainValuesOk with
  | true => rfl
  | false =>
      rcases hclean : info.clean (env.now 0) with e | info₁ <;>
        simp [failYamlMain, hclean, Bind.bind, Except.bind, pure, Except.pure]

theorem load_yaml_eq_true_iff :
    info.load lib stack args config (conf.yaml env) = .ok (true, info') ↔
      ∃ info₁, loadYamlEvents lib stack args env
        (readYaml env (conf.main.flatMap fun p => [.scalar p.1, .scalar p.2]) ++
          (readYaml env (conf.groups.flatMap RuleGroup.events) ++
            readYaml env [.mappingEnd, .mappingEnd, .documentEnd, .streamEnd]))
        YamlTop.inMapping (.main []) info = .ok (true, info₁) ∧
          info' = info₁.setLoaded args config := by
  have hstream : (yamlStream conf.mainEvents).map (fun event => { event := event, env := env }) =
      readYaml env (yamlStream conf.mainEvents) := rfl
  simp only [load, ClientConf.yaml, yamlOf, loadYaml, hstream, loadYamlEvents_stream]
  generalize loadYamlEvents lib stack args env _ YamlTop.inMapping (.main []) info = run
  rcases run with e | ⟨_ | _, info₁⟩
  · simp [Bind.bind, Except.bind]
  · simp [Bind.bind, Except.bind, pure, Except.pure]
  · simp only [Bind.bind, Except.bind, if_true, pure, Except.pure, Except.ok.injEq, Prod.mk.injEq,
      true_and, exists_eq_left']
    exact eq_comm

/-- A load of the YAML stream that returns true. -/
theorem load_yaml_iff (hconf : conf.WellFormed) :
    info.load lib stack args config (conf.yaml env) = .ok (true, info') ↔
      (∀ p ∈ conf.main, isRuleKey p.1 = false) ∧
        ∃ info₀, info.loadMain lib env conf.main = (true, info₀) ∧
          ∃ info₁, yamlGroups lib args env conf.groups info₀ = .ok info₁ ∧
            info₁.mainValuesOk = true ∧ info' = info₁.setLoaded args config := by
  have hgroups : ∀ g ∈ conf.groups, ∀ entries ∈ g.rules, EntriesOk entries := by
    intro g hg entries hentries key value hmem
    refine hconf.setting (g.is_dir, entries) ?_ key value hmem
    exact List.mem_flatMap.2 ⟨g, hg, List.mem_map.2 ⟨entries, hentries, rfl⟩⟩
  rw [load_yaml_eq_true_iff]
  by_cases hrule : ∀ p ∈ conf.main, isRuleKey p.1 = false
  · rw [loadYamlEvents_main hconf.main hrule, and_iff_right hrule]
    rcases info.loadMain lib env conf.main with ⟨_ | _, info₀⟩
    · -- a main setting was refused
      rcases hclean : info₀.clean (env.now 0) with e | info₁ <;>
        simp [hclean, Bind.bind, Except.bind, pure, Except.pure]
    · dsimp only
      rw [loadYamlEvents_groups hgroups]
      rcases hrun : yamlGroups lib args env conf.groups info₀ with e | info₁
      · simp [hrun, Bind.bind, Except.bind]
      · simp only [Bind.bind, Except.bind, loadYamlEvents_end]
        cases hvalues : info₁.mainValuesOk with
        | true => simp [hrun, hvalues]
        | false => cases info₁.clean (env.now 0) <;> simp [pure, Except.pure, hvalues, hrun]
  · constructor
    · rintro ⟨info₁, hrun, -⟩
      exact absurd hrun (loadYamlEvents_ruleKey hconf.main (by simpa using hrule) info info₁)
    · rintro ⟨hno, -⟩
      exact absurd hno hrule

end Stream

end K2hFtInfo

end K2hFtFuse
