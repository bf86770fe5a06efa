import K2hFtFuse.Info.Agreement
import K2hFtFuse.Lib.Outcome

/-!
# Info.Alike — objects that differ in clock values only

A load looks at the clock, and it keeps a history for the proofs. On two objects that are the same
apart from these, it returns the same result and leaves such objects again.
-/

namespace K2hFtFuse

open ByteSeq SpinLock Outcome

/-- A rule without what the clock said. -/
def K2hFtRule.timeless (rule : K2hFtRule) : K2hFtRule :=
  { rule with
    StartTime := common_init_time
    LastTime := common_init_time }

namespace K2hFtInfo

/-- The object with other rules, another start time and another history. -/
def withRules (info : K2hFtInfo) (RuleMap : OrdMap Bytes K2hFtRule) (InitTime : Timespec)
    (acts : List LoadAct) : K2hFtInfo :=
  { info with
    RuleMap := RuleMap
    InitTime := InitTime
    acts := acts }

/-- The settings are the same, and the rules are the same apart from clock values. -/
def Alike (info info' : K2hFtInfo) : Prop :=
  ∃ RuleMap InitTime acts, info' = info.withRules RuleMap InitTime acts ∧
    RuleMap.mapVals K2hFtRule.timeless = info.RuleMap.mapVals K2hFtRule.timeless

/-- Results that go with objects: the same result, and objects that are alike. -/
def AlikeWith {α : Type} (p q : α × K2hFtInfo) : Prop := p.1 = q.1 ∧ Alike p.2 q.2

theorem AlikeWith.mk {α : Type} (a : α) {info info' : K2hFtInfo} (h : Alike info info') :
    AlikeWith (a, info) (a, info') :=
  ⟨rfl, h⟩

/-! ## Operations of a load -/

section Operations

variable {args : LoadArgs} {env : LoadEnv} {info info' : K2hFtInfo}

/-- A setting is written whatever the rules are. -/
theorem withRules_ite {c : Prop} [Decidable c] {x y x' y' : Bool × K2hFtInfo}
    {RuleMap : OrdMap Bytes K2hFtRule} {InitTime : Timespec} {acts : List LoadAct}
    (hx : x' = (x.1, x.2.withRules RuleMap InitTime acts))
    (hy : y' = (y.1, y.2.withRules RuleMap InitTime acts)) :
    (if c then x' else y') =
      ((if c then x else y).1, (if c then x else y).2.withRules RuleMap InitTime acts) := by
  split
  · exact hx
  · exact hy

theorem loadMainKey_withRules (lib : ConfLib) (env : LoadEnv) (is : Bytes → Bool) (value : Bytes)
    (info : K2hFtInfo) (RuleMap : OrdMap Bytes K2hFtRule) (InitTime : Timespec)
    (acts : List LoadAct) :
    (info.withRules RuleMap InitTime acts).loadMainKey lib env is value =
      ((info.loadMainKey lib env is value).1,
        (info.loadMainKey lib env is value).2.withRules RuleMap InitTime acts) := by
  unfold loadMainKey
  -- the keys in their order, each a write to one setting
  repeat' first | refine withRules_ite ?_ ?_ | rfl
  · cases env.checkPathRealPath value <;> rfl
  · cases nonnegative value <;> rfl
  · cases nonnegative value <;> rfl

theorem Alike.loadMainKey (h : Alike info info') (lib : ConfLib) (env : LoadEnv)
    (is : Bytes → Bool) (value : Bytes) :
    AlikeWith (info.loadMainKey lib env is value) (info'.loadMainKey lib env is value) := by
  rcases h with ⟨RuleMap, InitTime, acts, rfl, hrules⟩
  rw [loadMainKey_withRules]
  refine ⟨rfl, RuleMap, InitTime, acts, rfl, ?_⟩
  rw [hrules, (loadMainKey_sameRules lib env is value info).RuleMap]

theorem Alike.mainValuesOk (h : Alike info info') : info'.mainValuesOk = info.mainValuesOk := by
  rcases h with ⟨RuleMap, InitTime, acts, rfl, -⟩
  rfl

theorem Alike.setLoaded (h : Alike info info') (args : LoadArgs) (config : Bytes) :
    Alike (info.setLoaded args config) (info'.setLoaded args config) := by
  rcases h with ⟨RuleMap, InitTime, acts, rfl, hrules⟩
  exact ⟨RuleMap, InitTime, acts, rfl, hrules⟩

theorem clean_of_held {now : Option Timespec} (hheld : info.prule_lockval = true) :
    info.clean now = .error .spin := by
  simp [K2hFtInfo.clean, K2hFtInfo.lock, hheld, Bind.bind, Except.bind]

theorem clean_of_freed {now : Option Timespec} (hfree : info.prule_lockval = false)
    (hfreed : info.freedRules ≠ []) : info.clean now = .error .fault := by
  simp [K2hFtInfo.clean, K2hFtInfo.lock, hfree, derefAll, hfreed, locked, Bind.bind, Except.bind]

theorem Alike.clean (h : Alike info info') (now : Option Timespec) :
    Related Alike (info.clean now) (info'.clean now) := by
  rcases h with ⟨RuleMap, InitTime, acts, rfl, hrules⟩
  have hlock' : (info.withRules RuleMap InitTime acts).prule_lockval = info.prule_lockval := rfl
  have hfreed' : (info.withRules RuleMap InitTime acts).freedRules = info.freedRules := rfl
  -- lock and deleted rules are the same, so both calls stop or both come through
  cases hlock : info.prule_lockval with
  | true =>
      rw [clean_of_held hlock, clean_of_held (hlock'.trans hlock)]
      exact .error Stop.spin
  | false =>
      by_cases hlive : info.freedRules = []
      · rw [clean_eq_cleaned hlock hlive,
          clean_eq_cleaned (hlock'.trans hlock) (hfreed'.trans hlive)]
        exact .ok ⟨∅, _, _, rfl, rfl⟩
      · rw [clean_of_freed hlock hlive,
          clean_of_freed (hlock'.trans hlock) (hfreed' ▸ hlive)]
        exact .error Stop.fault

theorem Alike.register (h : Alike info info') (acl : List AclEntry) {rule rule' : K2hFtRule}
    (hrule : rule'.timeless = rule.timeless) :
    Alike (info.register acl rule) (info'.register acl rule') := by
  rcases h with ⟨RuleMap, InitTime, acts, rfl, hrules⟩
  have htarget : rule'.TargetPath = rule.TargetPath := by
    have htimeless := congrArg (fun rule : K2hFtRule => rule.TargetPath) hrule
    exact htimeless
  refine ⟨RuleMap.insert rule.TargetPath rule', InitTime, acts ++ [.register acl rule'], ?_, ?_⟩
  · simp only [K2hFtInfo.register, htarget]
    rfl
  · calc
      (RuleMap.insert rule.TargetPath rule').mapVals K2hFtRule.timeless
          = (RuleMap.mapVals K2hFtRule.timeless).insert rule.TargetPath rule'.timeless :=
            OrdMap.mapVals_insert _ _ _ _
      _ = (info.RuleMap.mapVals K2hFtRule.timeless).insert rule.TargetPath rule.timeless := by
            rw [hrules, hrule]
      _ = (info.RuleMap.insert rule.TargetPath rule).mapVals K2hFtRule.timeless :=
            (OrdMap.mapVals_insert _ _ _ _).symm

/-! ## Outputs -/

theorem findOutputDir_timeless (args : LoadArgs) (OutputPath tmppath : Bytes)
    (entries : List (Bytes × K2hFtRule)) :
    findOutputDir args OutputPath tmppath (entries.map fun e => (e.1, e.2.timeless)) =
      findOutputDir args OutputPath tmppath entries := by
  induction entries with
  | nil =>
      rfl
  | cons e rest ih =>
      simp only [List.map_cons, findOutputDir, ih]
      rfl

/-- The search among the rules does not look at clock values. -/
theorem initOutput_timeless (args : LoadArgs) (env : LoadEnv) (RuleMap : OrdMap Bytes K2hFtRule)
    (key : Bytes) (pRule : K2hFtRule) :
    initOutput args env (RuleMap.mapVals K2hFtRule.timeless) key pRule.timeless =
      initOutput args env RuleMap key pRule := by
  have hany : ∀ path, ((RuleMap.mapVals K2hFtRule.timeless).entries.any
      fun e => isOutputFile path e.2) = RuleMap.entries.any fun e => isOutputFile path e.2 := by
    intro path
    rw [OrdMap.mapVals, List.any_map]
    rfl
  have hdir : ∀ OutputPath tmppath,
      findOutputDir args OutputPath tmppath (RuleMap.mapVals K2hFtRule.timeless).entries =
        findOutputDir args OutputPath tmppath RuleMap.entries :=
    fun OutputPath tmppath => findOutputDir_timeless args OutputPath tmppath RuleMap.entries
  rw [initOutput_congr (show pRule.timeless.OutputPath = pRule.OutputPath from rfl)
    (show pRule.timeless.Mode = pRule.Mode from rfl)]
  unfold initOutput
  simp only [hany, hdir]

/-- The loop over the rules, on rules that are the same apart from clock values. -/
theorem initOutputs_related (args : LoadArgs) (env : LoadEnv)
    {entries entries' : List (Bytes × K2hFtRule)} {RuleMap RuleMap' : OrdMap Bytes K2hFtRule}
    (hentries : (entries'.map fun e => (e.1, e.2.timeless)) =
      entries.map fun e => (e.1, e.2.timeless))
    (hrules : RuleMap'.mapVals K2hFtRule.timeless = RuleMap.mapVals K2hFtRule.timeless) :
    Related (fun result result' : Option (OrdMap Bytes K2hFtRule) =>
        result'.map (OrdMap.mapVals K2hFtRule.timeless) =
          result.map (OrdMap.mapVals K2hFtRule.timeless))
      (initOutputs args env entries RuleMap) (initOutputs args env entries' RuleMap') := by
  induction entries generalizing entries' RuleMap RuleMap' with
  | nil =>
      obtain rfl := List.map_eq_nil_iff.1 hentries
      exact .ok (congrArg some hrules)
  | cons e rest ih =>
      rcases entries' with _ | ⟨e', rest'⟩
      · cases hentries
      · rcases e with ⟨key, pRule⟩
        rcases e' with ⟨key', pRule'⟩
        simp only [List.map_cons, List.cons.injEq, Prod.mk.injEq] at hentries
        rcases hentries with ⟨⟨rfl, htimeless⟩, hrest⟩
        -- the answer for this rule is computed from maps that differ in clock values only
        have houtput : initOutput args env RuleMap' key' pRule' =
            initOutput args env RuleMap key' pRule := by
          rw [← initOutput_timeless args env RuleMap', hrules, htimeless, initOutput_timeless]
        simp only [initOutputs, houtput]
        rcases initOutput args env RuleMap key' pRule with e | _ | OutputPath
        · exact .error e
        · exact .ok rfl
        · apply ih hrest
          rw [OrdMap.mapVals_insert, OrdMap.mapVals_insert, hrules]
          congr 1
          exact congrArg (fun rule : K2hFtRule => { rule with OutputPath := OutputPath }) htimeless

theorem Alike.initializeOutputFiles (h : Alike info info') (args : LoadArgs) (env : LoadEnv) :
    Related AlikeWith (info.initializeOutputFiles args env)
      (info'.initializeOutputFiles args env) := by
  rcases h with ⟨RuleMap, InitTime, acts, rfl, hrules⟩
  have hentries : (RuleMap.entries.map fun e => (e.1, e.2.timeless)) =
      info.RuleMap.entries.map fun e => (e.1, e.2.timeless) :=
    congrArg OrdMap.entries hrules
  have houtputs := initOutputs_related args env hentries hrules
  have hderef : (info.withRules RuleMap InitTime acts).derefAll = info.derefAll := rfl
  simp only [K2hFtInfo.initializeOutputFiles, hderef]
  refine .bind (.same info.derefAll) fun _ _ _ => .bind houtputs ?_
  intro result result' hresult
  cases result with
  | none =>
      obtain rfl : result' = none := Option.map_eq_none_iff.1 hresult
      exact .ok (.mk false ⟨RuleMap, InitTime, acts ++ [.output false], rfl, hrules⟩)
  | some map =>
      rcases Option.map_eq_some_iff.1 hresult with ⟨map', rfl, hmap⟩
      exact .ok (.mk true ⟨map', InitTime, acts ++ [.output true], rfl, hmap⟩)

/-- The patterns can be taken away before or after the clock values. -/
theorem timeless_clearPatterns (RuleMap : OrdMap Bytes K2hFtRule) :
    (RuleMap.mapVals clearPatterns).mapVals K2hFtRule.timeless =
      (RuleMap.mapVals K2hFtRule.timeless).mapVals clearPatterns := by
  apply OrdMap.ext_find?
  intro key
  simp only [OrdMap.find?_mapVals, Option.map_map]
  rfl

theorem Alike.checkBinaryMode (h : Alike info info') :
    Related Alike info.checkBinaryMode info'.checkBinaryMode := by
  rcases h with ⟨RuleMap, InitTime, acts, rfl, hrules⟩
  have hmode : (info.withRules RuleMap InitTime acts).IsBinaryMode = info.IsBinaryMode := rfl
  have hderef : (info.withRules RuleMap InitTime acts).derefAll = info.derefAll := rfl
  simp only [K2hFtInfo.checkBinaryMode, hmode, hderef]
  refine .ite (.ok ⟨RuleMap, InitTime, acts ++ [.binary false], rfl, hrules⟩) ?_
  refine .bind (.same info.derefAll) fun _ _ _ => .ok ?_
  refine ⟨RuleMap.mapVals clearPatterns, InitTime, acts ++ [.binary true], rfl, ?_⟩
  calc
    (RuleMap.mapVals clearPatterns).mapVals K2hFtRule.timeless
        = (RuleMap.mapVals K2hFtRule.timeless).mapVals clearPatterns := timeless_clearPatterns _
    _ = (info.RuleMap.mapVals K2hFtRule.timeless).mapVals clearPatterns := by rw [hrules]
    _ = (info.RuleMap.mapVals clearPatterns).mapVals K2hFtRule.timeless :=
          (timeless_clearPatterns _).symm

/-! ## The INI loader -/

theorem Alike.loadIniRuleSec (h : Alike info info') (lib : ConfLib) (args : LoadArgs)
    (is_dir_rule : Bool) (body : List IniLine) :
    Alike (info.loadIniRuleSec lib args is_dir_rule body)
      (info'.loadIniRuleSec lib args is_dir_rule body) :=
  h.register _ rfl

theorem Alike.loadIniMainLines (lib : ConfLib) {body : List IniLine} (h : Alike info info') :
    Related AlikeWith (loadIniMainLines lib body info) (loadIniMainLines lib body info') := by
  induction body generalizing info info' with
  | nil =>
      exact .ok (.mk true h)
  | cons line rest ih =>
      have hkey := h.loadMainKey lib line.env (fun name => name == (parseIniLine lib line.text).1)
        (parseIniLine lib line.text).2
      simp only [K2hFtInfo.loadIniMainLines]
      revert hkey
      generalize info.loadMainKey lib line.env (fun name => name == (parseIniLine lib line.text).1)
        (parseIniLine lib line.text).2 = result
      generalize info'.loadMainKey lib line.env (fun name => name == (parseIniLine lib line.text).1)
        (parseIniLine lib line.text).2 = result'
      intro hkey
      rcases result with ⟨ok, info₁⟩
      rcases result' with ⟨ok', info₁'⟩
      obtain rfl : ok = ok' := hkey.1
      cases ok with
      | false => exact .bind (hkey.2.clean _) fun _ _ hclean => .ok (.mk false hclean)
      | true => exact ih hkey.2

theorem Alike.loadIniSections (lib : ConfLib) (args : LoadArgs) {secs : List IniSection}
    {set_main_sec : Bool} (h : Alike info info') :
    Related AlikeWith (loadIniSections lib args secs set_main_sec info)
      (loadIniSections lib args secs set_main_sec info') := by
  induction secs generalizing set_main_sec info info' with
  | nil =>
      exact .ok (.mk true h)
  | cons sec rest ih =>
      simp only [K2hFtInfo.loadIniSections]
      refine .ite (.ite ?_ ?_) (.ite ?_ ?_)
      · exact .bind (h.clean _) fun _ _ hclean => .ok (.mk false hclean)
      · refine .bind (h.loadIniMainLines lib) ?_
        rintro ⟨result, info₁⟩ ⟨result', info₁'⟩ ⟨rfl, hmain⟩
        cases result with
        | false =>
            exact .ok (.mk false hmain)
        | true =>
            have hsame : (info₁'.IsMemType && !info₁'.K2hFilePath.isEmpty) =
                (info₁.IsMemType && !info₁.K2hFilePath.isEmpty) := by
              rcases hmain with ⟨RuleMap, InitTime, acts, rfl, -⟩
              rfl
            simp only [hsame]
            refine .ite (.ok (.mk false hmain)) (.ite ?_ (ih hmain))
            exact .bind (hmain.clean _) fun _ _ hclean => .ok (.mk false hclean)
      · exact ih (h.loadIniRuleSec lib args _ sec.body)
      · exact ih h

theorem Alike.finishIni (args : LoadArgs) (conffile : Bytes) (env : LoadEnv) (h : Alike info info') :
    Related AlikeWith (finishIni args conffile env info) (finishIni args conffile env info') := by
  simp only [K2hFtInfo.finishIni, h.mainValuesOk]
  refine .ite ?_ (.bind (h.initializeOutputFiles args env) ?_)
  · exact .bind (h.clean _) fun _ _ hclean => .ok (.mk false hclean)
  · rintro ⟨result, info₁⟩ ⟨result', info₁'⟩ ⟨rfl, houtputs⟩
    refine .ite ?_ ?_
    · exact .bind (houtputs.clean _) fun _ _ hclean => .ok (.mk false hclean)
    · exact .bind houtputs.checkBinaryMode fun _ _ hbinary =>
        .ok (.mk true (hbinary.setLoaded args conffile))

theorem Alike.loadIni (lib : ConfLib) (args : LoadArgs) (conffile : Bytes)
    (lines : Option (List IniLine)) (env : LoadEnv) (h : Alike info info') :
    Related AlikeWith (loadIni lib args conffile lines env info)
      (loadIni lib args conffile lines env info') := by
  have hconfig : info'.Config = info.Config := by
    rcases h with ⟨RuleMap, InitTime, acts, rfl, -⟩
    rfl
  simp only [K2hFtInfo.loadIni, hconfig]
  refine .ite (.ok (.mk false h)) (.ite (.ok (.mk false h)) ?_)
  cases lines with
  | none =>
      exact .ok (.mk false h)
  | some lines =>
      refine .bind (h.loadIniSections lib args) ?_
      rintro ⟨result, info₁⟩ ⟨result', info₁'⟩ ⟨rfl, hsections⟩
      exact .ite (.ok (.mk false hsections)) (hsections.finishIni args conffile env)

/-! ## The YAML loader -/

section Yaml

variable {env : LoadEnv} {top : YamlTop} {event : YamlEvent}

theorem Alike.next (next : YamlNext) (h : Alike info info') :
    Related AlikeWith (.ok (next, info) : Except Stop (YamlNext × K2hFtInfo)) (.ok (next, info')) :=
  .ok (.mk next h)

theorem Alike.failYamlMain (h : Alike info info') (env : LoadEnv) (n : Nat) :
    Related AlikeWith (info.failYamlMain env n) (info'.failYamlMain env n) :=
  .bind (h.clean _) fun _ _ hclean => hclean.next (.done false)

theorem Alike.failYamlRule (h : Alike info info') (env : LoadEnv) :
    Related AlikeWith (info.failYamlRule env) (info'.failYamlRule env) :=
  .bind (h.clean _) fun _ _ hclean => hclean.failYamlMain env 1

theorem Alike.yamlAclStep (h : Alike info info') (is_key_allow : Bool) (sec : YamlRule)
    (phase : YamlAclPhase) :
    Related AlikeWith (yamlAclStep env top is_key_allow sec phase event info)
      (yamlAclStep env top is_key_allow sec phase event info') := by
  unfold K2hFtInfo.yamlAclStep
  split
  all_goals first | exact h.next _ | exact h.failYamlRule env

theorem Alike.yamlRuleScalar (h : Alike info info') (lib : ConfLib) (sec : YamlRule)
    (value : Bytes) :
    Related AlikeWith (yamlRuleScalar lib env top sec value info)
      (yamlRuleScalar lib env top sec value info') := by
  unfold K2hFtInfo.yamlRuleScalar
  refine .ite (.ite (h.next _) (h.next _)) ?_
  cases sec.pTmpRule with
  | none => exact .ite (.error _) (h.next _)
  | some pTmpRule => exact h.next _

theorem Alike.yamlRuleStep (h : Alike info info') (lib : ConfLib) (args : LoadArgs)
    (sec : YamlRule) :
    Related AlikeWith (yamlRuleStep lib args env top sec event info)
      (yamlRuleStep lib args env top sec event info') := by
  cases event with
  | mappingStart =>
      exact .ite (h.failYamlRule env) (h.next _)
  | mappingEnd =>
      refine .ite (h.failYamlRule env) ?_
      cases sec.pTmpRule with
      | none => exact .error _
      | some pTmpRule => exact .ok ⟨rfl, h.register sec.acl rfl⟩
  | sequenceEnd =>
      refine .ite (h.failYamlRule env) (.bind (h.initializeOutputFiles args env) ?_)
      rintro ⟨result, info₁⟩ ⟨result', info₁'⟩ ⟨rfl, houtputs⟩
      refine .ite ?_ ?_
      · exact .bind (houtputs.clean _) fun _ _ hclean => hclean.next _
      · exact .bind houtputs.checkBinaryMode fun _ _ hbinary => hbinary.next _
  | scalar value =>
      exact h.yamlRuleScalar lib sec value
  | noEvent | streamStart | streamEnd | documentStart | documentEnd | sequenceStart | aliasNode =>
      exact h.failYamlRule env

theorem Alike.yamlMainStep (h : Alike info info') (lib : ConfLib) (key : Bytes) :
    Related AlikeWith (yamlMainStep lib env top key event info)
      (yamlMainStep lib env top key event info') := by
  cases event with
  | mappingEnd =>
      simp only [K2hFtInfo.yamlMainStep, h.mainValuesOk]
      exact .ite (h.next _) (h.failYamlMain env 0)
  | scalar value =>
      have hkey := h.loadMainKey lib env (fun name => strcasecmp name key) value
      refine .ite (.ite (h.next _) (h.next _)) ?_
      revert hkey
      generalize info.loadMainKey lib env (fun name => strcasecmp name key) value = result
      generalize info'.loadMainKey lib env (fun name => strcasecmp name key) value = result'
      intro hkey
      rcases result with ⟨ok, info₁⟩
      rcases result' with ⟨ok', info₁'⟩
      obtain rfl : ok = ok' := hkey.1
      cases ok with
      | false => exact hkey.2.failYamlMain env 0
      | true => exact hkey.2.next _
  | noEvent | streamStart | streamEnd | documentStart | documentEnd | mappingStart | sequenceStart
  | sequenceEnd | aliasNode =>
      exact h.failYamlMain env 0

theorem Alike.yamlStep (h : Alike info info') (lib : ConfLib) (stack : YamlDataStack)
    (args : LoadArgs) (phase : YamlPhase) :
    Related AlikeWith (yamlStep lib stack args env top phase event info)
      (yamlStep lib stack args env top phase event info') := by
  cases phase with
  | top => exact h.next _
  | mainStart => exact .ite (h.next _) (h.next _)
  | main key => exact h.yamlMainStep lib key
  | ruleStart => exact .ite (h.next _) (h.failYamlMain env 0)
  | rule sec => exact h.yamlRuleStep lib args sec
  | acl is_key_allow sec aclPhase => exact h.yamlAclStep is_key_allow sec aclPhase

theorem Alike.yamlParseError (h : Alike info info') (env : LoadEnv) (phase : YamlPhase) :
    Related AlikeWith (info.yamlParseError env phase) (info'.yamlParseError env phase) := by
  cases phase with
  | top | mainStart =>
      exact .ok (.mk false h)
  | main | ruleStart =>
      exact .bind (h.clean _) fun _ _ hclean => .ok (.mk false hclean)
  | rule | acl =>
      exact .bind (h.clean _) fun _ _ hclean =>
        .bind (hclean.clean _) fun _ _ hclean' => .ok (.mk false hclean')

theorem Alike.loadYamlEvents (lib : ConfLib) (stack : YamlDataStack) (args : LoadArgs)
    {events : List YamlRead} {phase : YamlPhase} (h : Alike info info') :
    Related AlikeWith (loadYamlEvents lib stack args env events top phase info)
      (loadYamlEvents lib stack args env events top phase info') := by
  induction events generalizing top phase info info' with
  | nil =>
      exact h.yamlParseError env phase
  | cons read rest ih =>
      have hstep : Related AlikeWith (info.yamlStep lib stack args read.env top phase read.event)
          (info'.yamlStep lib stack args read.env top phase read.event) :=
        h.yamlStep lib stack args phase
      simp only [K2hFtInfo.loadYamlEvents]
      revert hstep
      generalize info.yamlStep lib stack args read.env top phase read.event = step
      generalize info'.yamlStep lib stack args read.env top phase read.event = step'
      intro hstep
      cases hstep with
      | error e =>
          exact .error e
      | @ok result result' hresult =>
          rcases result with ⟨next, info₁⟩
          rcases result' with ⟨next', info₁'⟩
          obtain rfl : next = next' := hresult.1
          cases next with
          | done result => exact .ok (.mk result hresult.2)
          | «continue» top phase => exact ih hresult.2

theorem Alike.loadYaml (lib : ConfLib) (stack : YamlDataStack) (args : LoadArgs) (config : Bytes)
    (events : Option (List YamlRead)) (env : LoadEnv) (h : Alike info info') :
    Related AlikeWith (loadYaml lib stack args config events env info)
      (loadYaml lib stack args config events env info') := by
  cases events with
  | none =>
      exact .ok (.mk false h)
  | some events =>
      refine .bind (h.loadYamlEvents lib stack args) ?_
      rintro ⟨result, info₁⟩ ⟨result', info₁'⟩ ⟨rfl, hevents⟩
      exact .ite (.ok (.mk true (hevents.setLoaded args config))) (.ok (.mk false hevents))

end Yaml

/-- On objects that are alike, a load has the same result and leaves objects that are alike. -/
theorem Alike.load (h : Alike info info') (lib : ConfLib) (stack : YamlDataStack) (args : LoadArgs)
    (config : Bytes) (source : ConfSource) :
    Related AlikeWith (info.load lib stack args config source)
      (info'.load lib stack args config source) := by
  cases source with
  | unknown => exact .ok (.mk false h)
  | ini lines env => exact h.loadIni lib args config lines env
  | yaml events env => exact h.loadYaml lib stack args config events env

end Operations

end K2hFtInfo

end K2hFtFuse
