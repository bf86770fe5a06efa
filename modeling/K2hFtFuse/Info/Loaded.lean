import K2hFtFuse.Info.History

/-!
# Info.Loaded — what a load that succeeded has left

The history of a load that returned true, for each of the loaders, and what follows from it:

- where no outputs are refused, every rule is prepared, and there are rules for what the sections have
  left as their targets (`load_registeredAll`);
- no rule has patterns in binary mode (`load_noPatterns_iff`).
-/

namespace K2hFtFuse

open ByteSeq SpinLock Outcome

/-! ## Histories -/

/-- After every registered rule, the outputs were prepared. -/
def AllPrepared (acts : List LoadAct) : Prop :=
  ∀ pre acl rule post, acts = pre ++ .register acl rule :: post → ∃ result, .output result ∈ post

theorem allPrepared_append {acts rest : List LoadAct} {result : Bool}
    (hrest : ∀ acl rule, .register acl rule ∉ rest) :
    AllPrepared (acts ++ .output result :: rest) := by
  intro pre acl rule post hsplit
  rcases List.append_eq_append_iff.1 hsplit with ⟨mid, rfl, htail⟩ | ⟨mid, rfl, htail⟩
  · -- the rule would be registered after the outputs
    rcases List.cons_eq_append_iff.1 htail with ⟨-, hcons⟩ | ⟨mid', -, hmid⟩
    · cases hcons
    · exact absurd (hmid ▸ by simp) (hrest acl rule)
  · rcases List.cons_eq_append_iff.1 htail with ⟨-, hcons⟩ | ⟨mid', -, hmid⟩
    · cases hcons
    · exact ⟨result, by simp [hmid]⟩

namespace K2hFtInfo

/-- What is known while the YAML loader runs from an empty history. -/
structure YamlHistory (phase : YamlPhase) (info : K2hFtInfo) : Prop where
  ok : PhaseOk phase
  tracks : Tracks info
  registered : ∀ acl rule, .register acl rule ∈ info.acts → YamlRuleOf acl rule
  cleaned : .clean ∈ info.acts → .output false ∈ info.acts
  prepared : inRule phase = false → AllPrepared info.acts

theorem yamlHistory_step {args : LoadArgs} {p : YamlAt} {phase' : YamlPhase} {info' : K2hFtInfo}
    {top : YamlTop} (h : YamlHistory p.phase p.info)
    (hdid : YamlDid args p (.continue top phase') info') : YamlHistory phase' info' := by
  cases hdid with
  | settings hacts hsame hok hrule =>
      refine ⟨hok, h.tracks.of_sameRules hsame, ?_, ?_, ?_⟩
      · rw [hsame.acts]
        exact h.registered
      · rw [hsame.acts]
        exact h.cleaned
      · intro hout
        rw [hsame.acts]
        refine h.prepared ?_
        by_contra hin
        rw [hrule (by simpa using hin)] at hout
        cases hout
  | register hsec hof hok hrule hrule' =>
      rename_i acl rule
      refine ⟨hok, tracks_register h.tracks acl rule, ?_, ?_, ?_⟩
      · intro acl' rule' hmem
        rcases List.mem_append.1 hmem with hmem | hmem
        · exact h.registered acl' rule' hmem
        · obtain ⟨rfl, rfl⟩ := LoadAct.register.inj (List.mem_singleton.1 hmem)
          exact hof
      · intro hmem
        rcases List.mem_append.1 hmem with hmem | hmem
        · exact List.mem_append_left _ (h.cleaned hmem)
        · cases List.mem_singleton.1 hmem
      · intro hout
        rw [hrule'] at hout
        cases hout
  | prepared hend houtputs hbinary =>
      rcases initializeOutputFiles_eq_ok houtputs with ⟨-, hacts, -⟩
      rcases checkBinaryMode_eq_ok hbinary with ⟨-, hacts', -⟩
      rw [hacts, List.append_assoc] at hacts'
      refine ⟨trivial, tracks_checkBinaryMode (tracks_initializeOutputFiles h.tracks houtputs) hbinary,
        ?_, ?_, ?_⟩
      · intro acl rule hmem
        rw [hacts'] at hmem
        exact h.registered acl rule (by simpa using hmem)
      · intro hmem
        rw [hacts'] at hmem ⊢
        exact List.mem_append_left _ (h.cleaned (by simpa using hmem))
      · intro _
        rw [hacts']
        exact allPrepared_append (by simp)
  | lost hend houtputs hclean =>
      rcases initializeOutputFiles_eq_ok houtputs with ⟨-, hacts, -⟩
      rcases clean_eq_ok hclean with ⟨-, -, -, hacts', -⟩
      rw [hacts, List.append_assoc] at hacts'
      refine ⟨trivial, tracks_clean hclean, ?_, ?_, ?_⟩
      · intro acl rule hmem
        rw [hacts'] at hmem
        exact h.registered acl rule (by simpa using hmem)
      · intro _
        rw [hacts']
        simp
      · intro _
        rw [hacts']
        exact allPrepared_append (by simp)

/-! ## The INI loader -/

/-- The lists of an open section hold the patterns that it has named. -/
structure IniSecOk (sec : IniRule) : Prop where
  AllowMatchs : sec.AllowMatchs = allowPatterns sec.acl
  DenyMatchs : sec.DenyMatchs = denyPatterns sec.acl
  DefaultDenyAll : sec.pTmpRule.DefaultDenyAll = defaultDeny sec.acl
  MatchingList : sec.pTmpRule.MatchingList = []

theorem loadIniRuleLine_ok {lib : ConfLib} {sec : IniRule} (h : IniSecOk sec) (line : IniLine) :
    IniSecOk (loadIniRuleLine lib sec line) := by
  unfold loadIniRuleLine
  rcases parseIniLine lib line.text with ⟨key, value⟩
  dsimp only
  split
  · split
    · exact h
    · rename_i pMatchPtn _
      by_cases hallow : key = ascii "ALLOW"
      · refine ⟨?_, ?_, ?_, h.MatchingList⟩
        · simp [hallow, h.AllowMatchs, allowPatterns]
        · simp [hallow, h.DenyMatchs, denyPatterns]
        · simpa [defaultDeny] using h.DefaultDenyAll
      · refine ⟨?_, ?_, ?_, h.MatchingList⟩
        · simp [hallow, h.AllowMatchs, allowPatterns]
        · simp [hallow, h.DenyMatchs, denyPatterns]
        · simpa [defaultDeny] using h.DefaultDenyAll
  · rcases loadRuleKey_eq lib line.env (fun name => name == key) value h.DefaultDenyAll with
      ⟨hdefault, hlist, hallow, hdeny, -⟩
    refine ⟨?_, ?_, hdefault, hlist.trans h.MatchingList⟩
    · rw [hallow]
      exact h.AllowMatchs
    · rw [hdeny]
      exact h.DenyMatchs

theorem loadIniRuleLines_ok (lib : ConfLib) (body : List IniLine) :
    IniSecOk (loadIniRuleLines lib body) := by
  have hfold : ∀ sec, IniSecOk sec → IniSecOk (body.foldl (loadIniRuleLine lib) sec) := by
    induction body with
    | nil =>
        exact fun sec h => h
    | cons line body ih =>
        exact fun sec h => ih _ (loadIniRuleLine_ok h line)
  exact hfold _ ⟨rfl, rfl, rfl, rfl⟩

/-- A finished rule section: what it says about lines, and its rule. -/
def iniRuleSection (lib : ConfLib) (args : LoadArgs) (InitTime : Timespec) (sec : IniSection) :
    List AclEntry × K2hFtRule :=
  let rule := loadIniRuleLines lib sec.body
  (rule.acl, finishRule args (sec.header.text == INI_K2HFT_RULEDIR_SEC_STR) InitTime rule.pTmpRule
    rule.AllowMatchs rule.DenyMatchs)

theorem iniRuleSection_iniRuleOf (lib : ConfLib) (args : LoadArgs) (InitTime : Timespec)
    (sec : IniSection) :
    IniRuleOf (iniRuleSection lib args InitTime sec).1 (iniRuleSection lib args InitTime sec).2 := by
  have h := loadIniRuleLines_ok lib sec.body
  refine ⟨h.DefaultDenyAll, ?_⟩
  simp only [iniRuleSection, finishRule, matchingList, h.MatchingList, h.DefaultDenyAll,
    h.AllowMatchs, h.DenyMatchs, List.nil_append]

theorem loadIniMainLines_eq_true {lib : ConfLib} {body : List IniLine} {info info' : K2hFtInfo}
    (h : loadIniMainLines lib body info = .ok (true, info')) :
    SameRules info info' ∧ info'.InitTime = info.InitTime := by
  induction body generalizing info with
  | nil =>
      simp only [loadIniMainLines, Except.ok.injEq, Prod.mk.injEq, true_and] at h
      rw [h]
      exact ⟨.refl info', rfl⟩
  | cons line rest ih =>
      simp only [loadIniMainLines] at h
      have hsame := loadMainKey_sameRules lib line.env
        (fun name => name == (parseIniLine lib line.text).1) (parseIniLine lib line.text).2 info
      have htime := loadMainKey_InitTime lib line.env
        (fun name => name == (parseIniLine lib line.text).1) (parseIniLine lib line.text).2 info
      split at h
      · rename_i info₁ _
        rcases bind_eq_ok.1 h with ⟨info₂, -, hresult⟩
        cases hresult
      · rename_i info₁ hkey
        rw [hkey] at hsame htime
        rcases ih h with ⟨hsame', htime'⟩
        exact ⟨hsame.trans hsame', htime'.trans htime⟩

/-- The acts of rule sections that were registered one after the other. -/
def registrations (rules : List (List AclEntry × K2hFtRule)) : List LoadAct :=
  rules.map fun r => .register r.1 r.2

/-- The section gives a rule. -/
def isRuleSection (sec : IniSection) : Bool :=
  sec.header.text == INI_K2HFT_RULEDIR_SEC_STR || sec.header.text == INI_K2HFT_RULE_SEC_STR

/-- The rule sections: what each leaves as its target, and what it says about lines. -/
def iniRules (lib : ConfLib) (secs : List IniSection) : List (Bytes × List AclEntry) :=
  (secs.filter isRuleSection).map fun sec =>
    ((loadIniRuleLines lib sec.body).pTmpRule.TargetPath, (loadIniRuleLines lib sec.body).acl)

/-- The finished rule sections. -/
def iniRuleSections (lib : ConfLib) (args : LoadArgs) (InitTime : Timespec)
    (secs : List IniSection) : List (List AclEntry × K2hFtRule) :=
  (secs.filter isRuleSection).map (iniRuleSection lib args InitTime)

theorem iniRuleSections_targets (lib : ConfLib) (args : LoadArgs) (InitTime : Timespec)
    (secs : List IniSection) :
    (iniRuleSections lib args InitTime secs).map (fun r => (r.2.TargetPath, r.1)) =
      iniRules lib secs := by
  rw [iniRuleSections, List.map_map]
  rfl

/-- The rule for the sections of a file: what every section keeps, with the sections behind it, holds
at the end. -/
theorem loadIniSections_rule {lib : ConfLib} {args : LoadArgs}
    {Inv : List IniSection → K2hFtInfo → Prop}
    (hother : ∀ sec rest info info', isRuleSection sec = false → SameRules info info' →
      info'.InitTime = info.InitTime → Inv (sec :: rest) info → Inv rest info')
    (hrule : ∀ sec rest info, isRuleSection sec = true → Inv (sec :: rest) info →
      Inv rest (info.register (iniRuleSection lib args info.InitTime sec).1
        (iniRuleSection lib args info.InitTime sec).2))
    {secs : List IniSection} {set_main_sec : Bool} {info info' : K2hFtInfo} (hinv : Inv secs info)
    (h : loadIniSections lib args secs set_main_sec info = .ok (true, info')) : Inv [] info' := by
  induction secs generalizing set_main_sec info with
  | nil =>
      simp only [loadIniSections, Except.ok.injEq, Prod.mk.injEq, true_and] at h
      rw [← h]
      exact hinv
  | cons sec rest ih =>
      simp only [loadIniSections] at h
      split at h
      · rename_i hheader
        have hnot : isRuleSection sec = false := by
          rw [isRuleSection, hheader]
          decide
        split at h
        · -- a second main section
          rcases bind_eq_ok.1 h with ⟨info₁, -, hresult⟩
          cases hresult
        · rcases bind_eq_ok.1 h with ⟨⟨result, info₁⟩, hmain, hnext⟩
          cases result with
          | false =>
              cases hnext
          | true =>
              rcases loadIniMainLines_eq_true hmain with ⟨hsame, htime⟩
              simp only [Bool.not_true, Bool.false_eq_true, if_false] at hnext
              split at hnext
              · rcases bind_eq_ok.1 hnext with ⟨info₂, -, hresult⟩
                cases hresult
              · exact ih (hother sec rest info info₁ hnot hsame htime hinv) hnext
      · split at h
        · -- a rule section
          rename_i hheader
          have hsec : isRuleSection sec = true := by simpa [isRuleSection] using hheader
          exact ih (hrule sec rest info hsec hinv) h
        · rename_i hheader
          have hnot : isRuleSection sec = false := by simpa [isRuleSection] using hheader
          exact ih (hother sec rest info info hnot (.refl info) rfl hinv) h

/-- Sections that are all accepted only register their rules. -/
theorem loadIniSections_eq_true {lib : ConfLib} {args : LoadArgs} {secs : List IniSection}
    {set_main_sec : Bool} {info info' : K2hFtInfo} (htracks : Tracks info)
    (h : loadIniSections lib args secs set_main_sec info = .ok (true, info')) :
    Tracks info' ∧
      info'.acts = info.acts ++ registrations (iniRuleSections lib args info.InitTime secs) := by
  have hrun : Tracks info' ∧ info'.InitTime = info.InitTime ∧
      info'.acts ++ registrations (iniRuleSections lib args info.InitTime []) =
        info.acts ++ registrations (iniRuleSections lib args info.InitTime secs) := by
    refine @loadIniSections_rule lib args
      (fun rest now => Tracks now ∧ now.InitTime = info.InitTime ∧
        now.acts ++ registrations (iniRuleSections lib args info.InitTime rest) =
          info.acts ++ registrations (iniRuleSections lib args info.InitTime secs))
      ?_ ?_ secs set_main_sec info info' ⟨htracks, rfl, rfl⟩ h
    · rintro sec rest now now' hnot hsame htime ⟨htracks, hinit, hacts⟩
      refine ⟨htracks.of_sameRules hsame, htime.trans hinit, ?_⟩
      simpa [hsame.acts, iniRuleSections, hnot] using hacts
    · rintro sec rest now hsec ⟨htracks, hinit, hacts⟩
      refine ⟨tracks_register htracks _ _, hinit, ?_⟩
      simpa [register, act, setRule, hinit, registrations, iniRuleSections, hsec] using hacts
  refine ⟨hrun.1, ?_⟩
  simpa [iniRuleSections, registrations] using hrun.2.2

/-- The calls of a load that returns true. -/
theorem loadIni_eq_ok_true {lib : ConfLib} {args : LoadArgs} {conffile : Bytes}
    {lines : Option (List IniLine)} {env : LoadEnv} {info info' : K2hFtInfo}
    (h : loadIni lib args conffile lines env info = .ok (true, info')) :
    ∃ read info₁ info₂ info₃, lines = some read ∧
      loadIniSections lib args (iniSections read) false info = .ok (true, info₁) ∧
      info₁.initializeOutputFiles args env = .ok (true, info₂) ∧
      info₂.checkBinaryMode = .ok info₃ ∧ info' = info₃.setLoaded args conffile := by
  unfold loadIni at h
  split at h
  · cases h
  · split at h
    · cases h
    · split at h
      · cases h
      · rename_i lines
        rcases bind_eq_ok.1 h with ⟨⟨result, info₁⟩, hsections, hfinish⟩
        cases result with
        | false =>
            cases hfinish
        | true =>
            change finishIni args conffile env info₁ = _ at hfinish
            unfold finishIni at hfinish
            split at hfinish
            · rcases bind_eq_ok.1 hfinish with ⟨info₂, -, hresult⟩
              cases hresult
            · rcases bind_eq_ok.1 hfinish with ⟨⟨result, info₂⟩, houtputs, hnext⟩
              cases result with
              | false =>
                  rcases bind_eq_ok.1 hnext with ⟨info₃, -, hresult⟩
                  cases hresult
              | true =>
                  rcases bind_eq_ok.1 hnext with ⟨info₃, hbinary, hresult⟩
                  cases hresult
                  exact ⟨lines, info₁, info₂, info₃, rfl, hsections, houtputs, hbinary, rfl⟩

/-- An INI file that is loaded registers its rules, prepares the outputs and checks the mode. -/
theorem loadIni_acts {lib : ConfLib} {args : LoadArgs} {conffile : Bytes}
    {lines : Option (List IniLine)} {env : LoadEnv} {info info' : K2hFtInfo} (htracks : Tracks info)
    (h : loadIni lib args conffile lines env info = .ok (true, info')) :
    Tracks info' ∧ ∃ read, lines = some read ∧
      info'.acts =
        info.acts ++ registrations (iniRuleSections lib args info.InitTime (iniSections read)) ++
          [.output true, .binary info'.IsBinaryMode] := by
  rcases loadIni_eq_ok_true h with
    ⟨read, info₁, info₂, info₃, rfl, hsections, houtputs, hbinary, rfl⟩
  rcases loadIniSections_eq_true htracks hsections with ⟨htracks₁, hacts₁⟩
  rcases initializeOutputFiles_eq_ok houtputs with ⟨-, hacts₂, -⟩
  rcases checkBinaryMode_eq_ok hbinary with ⟨-, hacts₃, hmode, -⟩
  have htracks₃ : Tracks info₃ :=
    tracks_checkBinaryMode (tracks_initializeOutputFiles htracks₁ houtputs) hbinary
  refine ⟨htracks₃, read, rfl, ?_⟩
  calc info₃.acts
      = info₂.acts ++ [.binary info₂.IsBinaryMode] := hacts₃
    _ = info₁.acts ++ [.output true] ++ [.binary info₃.IsBinaryMode] := by
        rw [hacts₂, hmode]
    _ = info.acts ++ registrations (iniRuleSections lib args info.InitTime (iniSections read)) ++
          [.output true, .binary info₃.IsBinaryMode] := by
        rw [hacts₁, List.append_assoc]
        rfl

theorem loadIni_eq_true {lib : ConfLib} {args : LoadArgs} {conffile : Bytes}
    {lines : Option (List IniLine)} {env : LoadEnv} {info info' : K2hFtInfo} (htracks : Tracks info)
    (h : loadIni lib args conffile lines env info = .ok (true, info')) :
    Tracks info' ∧ ∃ rules,
      info'.acts = info.acts ++ registrations rules ++ [.output true, .binary info'.IsBinaryMode] ∧
        (∀ r ∈ rules, IniRuleOf r.1 r.2) ∧
        ∃ read, lines = some read ∧
          rules.map (fun r => (r.2.TargetPath, r.1)) = iniRules lib (iniSections read) := by
  rcases loadIni_acts htracks h with ⟨htracks', read, hread, hacts⟩
  refine ⟨htracks', _, hacts, ?_, read, hread, iniRuleSections_targets lib args _ _⟩
  intro r hr
  rcases List.mem_map.1 hr with ⟨sec, -, rfl⟩
  exact iniRuleSection_iniRuleOf lib args info.InitTime sec

/-! ## Both loaders -/

/-- Before a load: there are no rules, and nothing was done. -/
structure Unloaded (info : K2hFtInfo) : Prop where
  RuleMap : info.RuleMap = ∅
  acts : info.acts = []

theorem Unloaded.tracks {info : K2hFtInfo} (h : Unloaded info) : Tracks info := by
  intro target
  rw [h.RuleMap, h.acts]
  rfl

/-- A YAML stream that is loaded. -/
theorem loadYaml_eq_true {lib : ConfLib} {stack : YamlDataStack} {args : LoadArgs} {config : Bytes}
    {events : Option (List YamlRead)} {env : LoadEnv} {info info' : K2hFtInfo} (hfresh : Unloaded info)
    (h : loadYaml lib stack args config events env info = .ok (true, info')) :
    ∃ read phase, events = some read ∧ YamlHistory phase info' ∧ inRule phase = false ∧
      info'.acts =
        (yamlTrace lib stack args read YamlTop.fresh .top info).flatMap (YamlAt.acts args) := by
  have hstart : YamlHistory .top info := by
    refine ⟨trivial, hfresh.tracks, ?_, ?_, ?_⟩
    · simp [hfresh.acts]
    · simp [hfresh.acts]
    · intro _ pre acl rule post hsplit
      rw [hfresh.acts] at hsplit
      exact absurd hsplit (by simp)
  unfold loadYaml at h
  split at h
  · cases h
  · rename_i events
    rcases bind_eq_ok.1 h with ⟨⟨result, info₁⟩, hevents, hresult⟩
    cases result with
    | false =>
        cases hresult
    | true =>
        cases hresult
        rcases loadYamlEvents_rule (fun phase info => YamlHistory.ok)
          (fun _ _ _ _ _ hinv hdid => yamlHistory_step hinv hdid) hstart hevents with
          ⟨phase, hinv, hrule⟩
        have hacts := loadYamlEvents_acts hstart.ok hevents
        rw [hfresh.acts, List.nil_append] at hacts
        exact ⟨events, phase, rfl,
          ⟨hinv.ok, hinv.tracks, hinv.registered, hinv.cleaned, hinv.prepared⟩, hrule, hacts⟩

end K2hFtInfo

/-- The events that the YAML loader reads of a configuration. -/
def ConfSource.trace (lib : ConfLib) (stack : YamlDataStack) (args : LoadArgs) (info : K2hFtInfo) :
    ConfSource → List YamlAt
  | .yaml (some events) _ => K2hFtInfo.yamlTrace lib stack args events YamlTop.fresh .top info
  | _ => []

/-- What the rule sections of a configuration leave as their targets. -/
def ConfSource.targets (lib : ConfLib) (stack : YamlDataStack) (args : LoadArgs) (info : K2hFtInfo) :
    ConfSource → List Bytes
  | .ini (some lines) _ => (K2hFtInfo.iniRules lib (iniSections lines)).map fun r => r.1
  | .yaml events env =>
      ((ConfSource.yaml events env).trace lib stack args info).filterMap fun p =>
        (p.ruleSection args).map fun sec => sec.2.TargetPath
  | _ => []

/-! ## What a trace does -/

namespace YamlAt

variable {args : LoadArgs} {p : YamlAt}

/-- The acts of an event, by what it is. -/
theorem mem_acts_iff {a : LoadAct} :
    a ∈ p.acts args ↔
      (∃ acl rule, p.ruleSection args = some (acl, rule) ∧ a = .register acl rule) ∨
      (p.endsRules = true ∧ p.outputs args = some true ∧
        (a = .output true ∨ a = .binary p.info.IsBinaryMode)) ∨
      (p.endsRules = true ∧ p.outputs args = some false ∧ (a = .output false ∨ a = .clean)) := by
  cases hend : p.endsRules with
  | true =>
      have hsec : p.ruleSection args = none := ruleSection_of_endsRules hend
      unfold acts
      rcases houtputs : p.outputs args with _ | _ | _ <;> simp [hsec, hend]
  | false =>
      unfold acts
      rcases hsec : p.ruleSection args with _ | ⟨acl, rule⟩ <;> simp [hend]

theorem acts_of_ruleSection {acl : List AclEntry} {rule : K2hFtRule}
    (h : p.ruleSection args = some (acl, rule)) : p.acts args = [.register acl rule] := by
  simp [acts, h]

theorem register_mem_acts_iff {acl : List AclEntry} {rule : K2hFtRule} :
    .register acl rule ∈ p.acts args ↔ p.ruleSection args = some (acl, rule) := by
  rw [mem_acts_iff]
  constructor
  · rintro (⟨acl', rule', hsec, heq⟩ | ⟨-, -, heq | heq⟩ | ⟨-, -, heq | heq⟩)
    · obtain ⟨rfl, rfl⟩ := LoadAct.register.inj heq
      exact hsec
    all_goals cases heq
  · exact fun hsec => .inl ⟨acl, rule, hsec, rfl⟩

/-- The rules of the sequence that ends are checked in binary mode. -/
def checksBinary (args : LoadArgs) (p : YamlAt) : Bool :=
  p.endsRules && p.outputs args == some true && p.info.IsBinaryMode

/-- The outputs of the rules are refused when the sequence ends. -/
def refuses (args : LoadArgs) (p : YamlAt) : Bool := p.endsRules && p.outputs args == some false

theorem binary_mem_acts_iff : .binary true ∈ p.acts args ↔ p.checksBinary args = true := by
  rw [mem_acts_iff]
  cases hmode : p.info.IsBinaryMode <;> simp [checksBinary, hmode]

theorem output_mem_acts_iff : .output false ∈ p.acts args ↔ p.refuses args = true := by
  rw [mem_acts_iff]
  simp [refuses]

theorem clean_mem_acts_iff : .clean ∈ p.acts args ↔ p.refuses args = true := by
  rw [mem_acts_iff]
  simp [refuses]

/-- The event takes the patterns of an earlier rule of `target` away. -/
def takesPatterns (args : LoadArgs) (target : Bytes) (p : YamlAt) : Prop :=
  p.checksBinary args = true ∨ p.refuses args = true ∨
    ∃ acl rule, p.ruleSection args = some (acl, rule) ∧ rule.TargetPath = target

theorem takesPatterns_iff {target : Bytes} :
    p.takesPatterns args target ↔
      .binary true ∈ p.acts args ∨ .clean ∈ p.acts args ∨
        ∃ acl rule, .register acl rule ∈ p.acts args ∧ rule.TargetPath = target := by
  simp only [takesPatterns, binary_mem_acts_iff, clean_mem_acts_iff, register_mem_acts_iff]

end YamlAt

/-- The registration of a rule in a history is the end of a section in the trace. -/
theorem flatMap_acts_eq_split {args : LoadArgs} {trace : List YamlAt} {before after : List LoadAct}
    {acl : List AclEntry} {rule : K2hFtRule} :
    trace.flatMap (YamlAt.acts args) = before ++ .register acl rule :: after ↔
      ∃ pre p post, trace = pre ++ p :: post ∧ p.ruleSection args = some (acl, rule) ∧
        before = pre.flatMap (YamlAt.acts args) ∧ after = post.flatMap (YamlAt.acts args) := by
  constructor
  · intro h
    induction trace generalizing before with
    | nil =>
        simp at h
    | cons p trace ih =>
        rw [List.flatMap_cons] at h
        rcases List.append_eq_append_iff.1 h with ⟨mid, rfl, htail⟩ | ⟨mid, hacts, htail⟩
        · rcases ih htail with ⟨pre, q, post, rfl, hsec, rfl, rfl⟩
          exact ⟨p :: pre, q, post, rfl, hsec, by simp, rfl⟩
        · rcases List.cons_eq_append_iff.1 htail with ⟨rfl, htrace⟩ | ⟨mid', rfl, hafter⟩
          · rcases @ih [] (by simpa using htrace) with ⟨pre, q, post, rfl, hsec, hpre, rfl⟩
            exact ⟨p :: pre, q, post, rfl, hsec, by simp [hacts, ← hpre], rfl⟩
          · -- the acts of the event itself, which are this one alone
            have hsec : p.ruleSection args = some (acl, rule) :=
              YamlAt.register_mem_acts_iff.1 (by simp [hacts])
            rw [YamlAt.acts_of_ruleSection hsec] at hacts
            rcases List.cons_eq_append_iff.1 hacts with ⟨rfl, hrest⟩ | ⟨before', rfl, hrest⟩
            · obtain rfl : mid' = [] := (List.cons.inj hrest).2
              exact ⟨[], p, trace, rfl, hsec, rfl, by simpa using hafter⟩
            · exact absurd hrest (by simp)
  · rintro ⟨pre, p, post, rfl, hsec, rfl, rfl⟩
    simp [YamlAt.acts_of_ruleSection hsec]

namespace K2hFtInfo

theorem Tracks.isSome_iff {info : K2hFtInfo} (h : Tracks info) (target : Bytes) :
    (∃ rule, info.RuleMap.find? target = some rule) ↔
      ∃ pre acl rule post, info.acts = pre ++ .register acl rule :: post ∧
        rule.TargetPath = target ∧ Stays target post := by
  have hsame := congrArg Option.isSome (h target)
  simp only [Option.isSome_map] at hsame
  rw [← Option.isSome_iff_exists, hsame, Option.isSome_iff_exists]
  constructor
  · rintro ⟨rule, hrule⟩
    rcases replay_find?_eq_some_iff.1 hrule with ⟨pre, acl, rule', post, hacts, htarget, hstays, -⟩
    exact ⟨pre, acl, rule', post, hacts, htarget, hstays⟩
  · rintro ⟨pre, acl, rule, post, hacts, htarget, hstays⟩
    exact ⟨_, replay_find?_eq_some_iff.2 ⟨pre, acl, rule, post, hacts, htarget, hstays, rfl⟩⟩

/-- Where a target is registered at all, there is a last registration. -/
theorem exists_last_register {acts : List LoadAct} {target : Bytes}
    (h : ∃ acl rule, .register acl rule ∈ acts ∧ rule.TargetPath = target) :
    ∃ pre acl rule post, acts = pre ++ .register acl rule :: post ∧ rule.TargetPath = target ∧
      ∀ acl' rule', .register acl' rule' ∈ post → rule'.TargetPath ≠ target := by
  induction acts with
  | nil =>
      rcases h with ⟨acl, rule, hmem, -⟩
      cases hmem
  | cons a acts ih =>
      by_cases hlater : ∃ acl rule, .register acl rule ∈ acts ∧ rule.TargetPath = target
      · rcases ih hlater with ⟨pre, acl, rule, post, rfl, htarget, hlast⟩
        exact ⟨a :: pre, acl, rule, post, rfl, htarget, hlast⟩
      · rcases h with ⟨acl, rule, hmem, htarget⟩
        rcases List.mem_cons.1 hmem with rfl | hmem
        · refine ⟨[], acl, rule, acts, rfl, htarget, ?_⟩
          intro acl' rule' hmem' htarget'
          exact hlater ⟨acl', rule', hmem', htarget'⟩
        · exact absurd ⟨acl, rule, hmem, htarget⟩ hlater

/-- As long as nothing is cleaned, the map has the targets that were registered. -/
theorem Tracks.targets {info : K2hFtInfo} (h : Tracks info) (hclean : .clean ∉ info.acts)
    (target : Bytes) :
    (∃ rule, info.RuleMap.find? target = some rule) ↔
      ∃ acl rule, .register acl rule ∈ info.acts ∧ rule.TargetPath = target := by
  rw [h.isSome_iff target]
  constructor
  · rintro ⟨pre, acl, rule, post, hacts, htarget, -⟩
    exact ⟨acl, rule, by simp [hacts], htarget⟩
  · intro hregister
    rcases exists_last_register hregister with ⟨pre, acl, rule, post, hacts, htarget, hlast⟩
    refine ⟨pre, acl, rule, post, hacts, htarget, ?_, hlast⟩
    intro hmem
    exact hclean (by simp [hacts, hmem])

/-! ## Refused outputs -/

/-- At the end of every rule sequence, `InitializeOutputFiles` accepts the rules that are there. -/
def OutputsAccepted (args : LoadArgs) (trace : List YamlAt) : Prop :=
  ∀ p ∈ trace, p.refuses args = false

theorem outputsAccepted_iff {args : LoadArgs} {trace : List YamlAt} :
    OutputsAccepted args trace ↔ .output false ∉ trace.flatMap (YamlAt.acts args) := by
  simp only [OutputsAccepted, List.mem_flatMap, YamlAt.output_mem_acts_iff, not_exists, not_and,
    Bool.not_eq_true]

/-- After a load that returns true, no outputs were refused exactly when, in a YAML stream,
`InitializeOutputFiles` accepts the rules at the end of every rule sequence. An INI file has no such
events. -/
theorem load_outputsAccepted_iff {lib : ConfLib} {stack : YamlDataStack} {args : LoadArgs}
    {config : Bytes} {source : ConfSource} {info info' : K2hFtInfo} (hfresh : Unloaded info)
    (h : info.load lib stack args config source = .ok (true, info')) :
    .output false ∉ info'.acts ↔ OutputsAccepted args (source.trace lib stack args info) := by
  cases source with
  | unknown =>
      cases h
  | ini lines env =>
      rcases loadIni_eq_true hfresh.tracks h with ⟨-, rules, hacts, -⟩
      refine iff_of_true ?_ ?_
      · simp [hacts, hfresh.acts, registrations]
      · intro p hp
        cases hp
  | yaml events env =>
      rcases loadYaml_eq_true hfresh h with ⟨read, phase, rfl, -, -, hacts⟩
      rw [outputsAccepted_iff, hacts]
      rfl

/-- The outputs of every rule were prepared, and there are rules for the targets that the sections have
left. -/
structure RegisteredAll (lib : ConfLib) (stack : YamlDataStack) (args : LoadArgs)
    (source : ConfSource) (info info' : K2hFtInfo) : Prop where
  prepared : ∀ pre acl rule post, info'.acts = pre ++ .register acl rule :: post →
    .output true ∈ post
  targets : ∀ target, (∃ rule, info'.RuleMap.find? target = some rule) ↔
    target ∈ source.targets lib stack args info

theorem loadIni_registeredAll {lib : ConfLib} {stack : YamlDataStack} {args : LoadArgs}
    {config : Bytes} {lines : Option (List IniLine)} {env : LoadEnv} {info info' : K2hFtInfo}
    (hfresh : Unloaded info)
    (h : loadIni lib args config lines env info = .ok (true, info')) :
    RegisteredAll lib stack args (.ini lines env) info info' := by
  rcases loadIni_eq_true hfresh.tracks h with ⟨htracks', rules, hacts, -, read, rfl, htargets⟩
  rw [hfresh.acts, List.nil_append] at hacts
  have hclean : .clean ∉ info'.acts := by simp [hacts, registrations]
  refine ⟨?_, ?_⟩
  · intro pre acl rule post hsplit
    have hprepared : AllPrepared info'.acts := by
      rw [hacts]
      exact allPrepared_append (by simp)
    rcases hprepared pre acl rule post hsplit with ⟨result, hresult⟩
    -- the outputs are prepared once, behind all registrations, and were accepted
    have hmem : .output result ∈ info'.acts := by simp [hsplit, hresult]
    have htrue : result = true := by simpa [hacts, registrations] using hmem
    rw [← htrue]
    exact hresult
  · intro target
    rw [htracks'.targets hclean]
    simp only [ConfSource.targets, ← htargets, hacts, registrations, List.map_map,
      List.mem_append, List.mem_map, List.mem_cons, reduceCtorEq, List.not_mem_nil, or_false,
      LoadAct.register.injEq, Function.comp_apply, Prod.exists]
    constructor
    · rintro ⟨acl, rule, ⟨acl', rule', hmem, rfl, rfl⟩, htarget⟩
      exact ⟨acl', rule', hmem, htarget⟩
    · rintro ⟨acl, rule, hmem, htarget⟩
      exact ⟨acl, rule, ⟨acl, rule, hmem, rfl, rfl⟩, htarget⟩

theorem loadYaml_registeredAll {lib : ConfLib} {stack : YamlDataStack} {args : LoadArgs}
    {config : Bytes} {events : Option (List YamlRead)} {env : LoadEnv} {info info' : K2hFtInfo}
    (hfresh : Unloaded info)
    (h : loadYaml lib stack args config events env info = .ok (true, info'))
    (hnone : .output false ∉ info'.acts) :
    RegisteredAll lib stack args (.yaml events env) info info' := by
  rcases loadYaml_eq_true hfresh h with ⟨read, phase, rfl, hinv, hrule, hacts⟩
  have hclean : .clean ∉ info'.acts := fun hmem => hnone (hinv.cleaned hmem)
  refine ⟨?_, ?_⟩
  · intro pre acl rule post hsplit
    rcases hinv.prepared hrule pre acl rule post hsplit with ⟨result, hresult⟩
    cases result with
    | true => exact hresult
    | false => exact absurd (by simp [hsplit, hresult]) hnone
  · intro target
    rw [hinv.tracks.targets hclean, hacts]
    simp only [List.mem_flatMap, YamlAt.register_mem_acts_iff, ConfSource.targets, ConfSource.trace,
      List.mem_filterMap, Option.map_eq_some_iff, Prod.exists]
    constructor
    · rintro ⟨acl, rule, ⟨p, hp, hsec⟩, htarget⟩
      exact ⟨p, hp, acl, rule, hsec, htarget⟩
    · rintro ⟨p, hp, acl, rule, hsec, htarget⟩
      exact ⟨acl, rule, ⟨p, hp, hsec⟩, htarget⟩

/-- Where no outputs were refused, nothing that the sections have left is missing. -/
theorem load_registeredAll {lib : ConfLib} {stack : YamlDataStack} {args : LoadArgs} {config : Bytes}
    {source : ConfSource} {info info' : K2hFtInfo} (hfresh : Unloaded info)
    (h : info.load lib stack args config source = .ok (true, info'))
    (hnone : .output false ∉ info'.acts) : RegisteredAll lib stack args source info info' := by
  cases source with
  | unknown =>
      cases h
  | ini lines env =>
      exact loadIni_registeredAll hfresh h
  | yaml events env =>
      exact loadYaml_registeredAll hfresh h hnone

/-! ## Binary mode -/

def NoPatterns (info : K2hFtInfo) : Prop :=
  ∀ target rule, info.RuleMap.find? target = some rule → rule.MatchingList = []

/-- Every registration of a rule with patterns is followed by a check in binary mode, by a
registration of the same target or by a `Clean`. -/
def Covered (acts : List LoadAct) : Prop :=
  ∀ pre acl rule post, acts = pre ++ .register acl rule :: post → rule.MatchingList ≠ [] →
    .binary true ∈ post ∨ ¬ Stays rule.TargetPath post

theorem Tracks.noPatterns_iff {info : K2hFtInfo} (h : Tracks info) :
    NoPatterns info ↔ Covered info.acts := by
  -- a rule that is left has the patterns of the rule that a replay leaves
  have hlist : NoPatterns info ↔
      ∀ target rule, (replay info.acts).find? target = some rule → rule.MatchingList = [] := by
    constructor
    · intro hno target rule hrule
      have hsame := h target
      rw [hrule] at hsame
      rcases Option.map_eq_some_iff.1 hsame with ⟨rule', hrule', hfilter⟩
      have hpatterns : rule'.MatchingList = rule.MatchingList := congrArg Prod.snd hfilter
      rw [← hpatterns]
      exact hno target rule' hrule'
    · intro hno target rule hrule
      have hsame := h target
      rw [hrule] at hsame
      rcases Option.map_eq_some_iff.1 hsame.symm with ⟨rule', hrule', hfilter⟩
      have hpatterns : rule'.MatchingList = rule.MatchingList := congrArg Prod.snd hfilter
      rw [← hpatterns]
      exact hno target rule' hrule'
  rw [hlist]
  constructor
  · intro hno pre acl rule post hacts hpatterns
    by_contra huncovered
    rw [not_or, not_not] at huncovered
    have hfind := replay_find?_eq_some_iff.2
      ⟨pre, acl, rule, post, hacts, rfl, huncovered.2, (if_neg huncovered.1).symm⟩
    exact hpatterns (hno _ _ hfind)
  · intro hcovered target rule hrule
    rcases replay_find?_eq_some_iff.1 hrule with ⟨pre, acl, rule', post, hacts, rfl, hstays, hresult⟩
    by_cases hbinary : .binary true ∈ post
    · rw [hresult, if_pos hbinary]
      rfl
    · rw [hresult, if_neg hbinary]
      by_contra hpatterns
      exact (hcovered pre acl rule' post hacts hpatterns).elim hbinary fun hnot => hnot hstays

/-- Every section whose rule has patterns is followed by an event that takes them away. -/
def PatternsCovered (args : LoadArgs) (trace : List YamlAt) : Prop :=
  ∀ pre p post acl rule, trace = pre ++ p :: post → p.ruleSection args = some (acl, rule) →
    rule.MatchingList ≠ [] → ∃ q ∈ post, q.takesPatterns args rule.TargetPath

theorem covered_flatMap_iff {args : LoadArgs} {trace : List YamlAt} :
    Covered (trace.flatMap (YamlAt.acts args)) ↔ PatternsCovered args trace := by
  have htaken : ∀ (post : List YamlAt) (target : Bytes),
      (.binary true ∈ post.flatMap (YamlAt.acts args) ∨
        ¬ Stays target (post.flatMap (YamlAt.acts args))) ↔
      ∃ q ∈ post, q.takesPatterns args target := by
    intro post target
    simp only [YamlAt.takesPatterns_iff, List.mem_flatMap]
    constructor
    · rintro (⟨q, hq, hbinary⟩ | hnot)
      · exact ⟨q, hq, .inl hbinary⟩
      · by_contra hnone
        refine hnot ⟨?_, ?_⟩
        · intro hclean
          rcases List.mem_flatMap.1 hclean with ⟨q, hq, hclean⟩
          exact hnone ⟨q, hq, .inr (.inl hclean)⟩
        · intro acl rule hregister htarget
          rcases List.mem_flatMap.1 hregister with ⟨q, hq, hregister⟩
          exact hnone ⟨q, hq, .inr (.inr ⟨acl, rule, hregister, htarget⟩)⟩
    · rintro ⟨q, hq, hbinary | hclean | ⟨acl, rule, hregister, htarget⟩⟩
      · exact .inl ⟨q, hq, hbinary⟩
      · exact .inr fun hstays => hstays.clean (List.mem_flatMap.2 ⟨q, hq, hclean⟩)
      · exact .inr fun hstays =>
          hstays.register acl rule (List.mem_flatMap.2 ⟨q, hq, hregister⟩) htarget
  constructor
  · intro hcovered pre p post acl rule htrace hsec hpatterns
    rw [← htaken]
    exact hcovered _ acl rule _ (flatMap_acts_eq_split.2 ⟨pre, p, post, htrace, hsec, rfl, rfl⟩)
      hpatterns
  · intro hcovered before acl rule after hsplit hpatterns
    rcases flatMap_acts_eq_split.1 hsplit with ⟨pre, p, post, htrace, hsec, rfl, rfl⟩
    rw [htaken]
    exact hcovered pre p post acl rule htrace hsec hpatterns

/-- After a load in binary mode no rule has patterns exactly when, in a YAML stream, every section
with patterns is followed by the end of a rule sequence in binary mode, by a section of the same
target or by refused outputs. An INI file has no such events. -/
theorem load_noPatterns_iff {lib : ConfLib} {stack : YamlDataStack} {args : LoadArgs}
    {config : Bytes} {source : ConfSource} {info info' : K2hFtInfo} (hfresh : Unloaded info)
    (h : info.load lib stack args config source = .ok (true, info'))
    (hmode : info'.IsBinaryMode = true) :
    NoPatterns info' ↔ PatternsCovered args (source.trace lib stack args info) := by
  cases source with
  | unknown =>
      cases h
  | ini lines env =>
      rcases loadIni_eq_true hfresh.tracks h with ⟨htracks, rules, hacts, -⟩
      rw [hmode] at hacts
      have hcovered : Covered info'.acts := by
        intro pre acl rule post hsplit _
        left
        -- the check is the last act of all
        have hlast : info'.acts.getLast? = some (.binary true) := by simp [hacts]
        rcases List.eq_nil_or_concat post with rfl | ⟨post', a, rfl⟩
        · simp [hsplit] at hlast
        · have hsplit' : info'.acts = (pre ++ .register acl rule :: post') ++ [a] := by
            simp [hsplit, List.concat_eq_append]
          rw [hsplit', List.getLast?_concat] at hlast
          simp [List.concat_eq_append, Option.some.inj hlast]
      rw [htracks.noPatterns_iff]
      constructor
      · intro _ pre p post acl rule htrace
        simp [ConfSource.trace] at htrace
      · exact fun _ => hcovered
  | yaml events env =>
      rcases loadYaml_eq_true hfresh h with ⟨read, phase, rfl, hinv, -, hacts⟩
      rw [hinv.tracks.noPatterns_iff, hacts, covered_flatMap_iff]
      rfl

end K2hFtInfo

/-! ## Two configurations -/

def plainArgs : LoadArgs :=
  { init_mode := S_IFREG ||| 0o644
    init_dmode := S_IFDIR ||| 0o755
    init_uid := 0
    init_gid := 0
    mountPoint := ascii "/mnt/k2hftfuse"
    pagesize := 4096 }

/-- Everything that is asked for is there. -/
def plainEnv : LoadEnv :=
  { realpath := some
    regcomp := fun _ => true
    addPluginInfo := fun _ => some (ascii "/tmp/pipe")
    mkdirByAbsPath := fun _ path => some path
    makeFileByAbsPath := fun _ path _ => some path
    now := fun _ => none }

def iniOf (lines : List String) : ConfSource :=
  .ini (some (lines.map fun line => { text := ascii line, env := plainEnv })) plainEnv

/-- The stream of a `K2HFTFUSE` mapping. -/
def yamlStream (main : List YamlEvent) : List YamlEvent :=
  [.streamStart, .documentStart, .mappingStart, .scalar (ascii "K2HFTFUSE"), .mappingStart] ++ main ++
    [.mappingEnd, .mappingEnd, .documentEnd, .streamEnd]

def yamlOf (env : LoadEnv) (main : List YamlEvent) : ConfSource :=
  .yaml (some ((yamlStream main).map fun event => { event := event, env := env })) env

/-- A sequence of one rule for files. -/
def yamlRules (entries : List String) : List YamlEvent :=
  [.scalar (ascii "K2HFTFUSE_RULE"), .sequenceStart, .mappingStart] ++
    entries.map (fun entry => .scalar (ascii entry)) ++ [.mappingEnd, .sequenceEnd]

def denyIni : ConfSource :=
  iniOf ["[K2HFTFUSE]", "BINTRANS = yes", "[K2HFTFUSE_RULE]", "TARGET = log/a",
    "OUTPUTFILE = /var/log/a", "DEFAULTALL = ALLOW", "DENY = debug"]

namespace K2hFtInfo

/-- The state after a load, from what is computed of it. -/
theorem exists_of_toOption {α : Type} {call : Except Stop (Bool × K2hFtInfo)} {f : K2hFtInfo → α}
    {result : Bool} {a : α} (h : call.toOption.map (fun r => (r.1, f r.2)) = some (result, a)) :
    ∃ info', call = .ok (result, info') ∧ f info' = a := by
  rcases call with e | ⟨result', info'⟩
  · cases h
  · obtain ⟨rfl, hf⟩ := Prod.mk.inj (Option.some.inj h)
    exact ⟨info', rfl, hf⟩

theorem load_denyIni : ∃ info',
    (start none).load plainLib plainStack plainArgs (ascii "/etc/k2hftfuse.ini") denyIni =
      .ok (true, info') ∧ info'.IsBinaryMode = true :=
  exists_of_toOption (by decide +kernel)

theorem load_noPatterns_iff_denyIni : ∃ info',
    (start none).load plainLib plainStack plainArgs (ascii "/etc/k2hftfuse.ini") denyIni =
      .ok (true, info') ∧ NoPatterns info' := by
  rcases load_denyIni with ⟨info', hload, hmode⟩
  refine ⟨info', hload, (load_noPatterns_iff ⟨rfl, rfl⟩ hload hmode).2 ?_⟩
  intro pre p post acl rule htrace
  simp [denyIni, iniOf, ConfSource.trace] at htrace

/-- A rule that denies `debug`, and after it the switch to binary mode. -/
def lateBinary : ConfSource :=
  yamlOf plainEnv (yamlRules ["TARGET", "log/a", "DEFAULTALL", "ALLOW", "DENY", "debug"] ++
    [.scalar (ascii "BINTRANS"), .scalar (ascii "yes")])

/-- The mode is binary, and the rule has its pattern. -/
theorem lateBinary_keeps_patterns : ∃ info',
    (start none).load plainLib plainStack plainArgs (ascii "/etc/k2hftfuse.yaml") lateBinary =
      .ok (true, info') ∧ info'.IsBinaryMode = true ∧ ¬ NoPatterns info' := by
  have hrun : ∃ info', (start none).load plainLib plainStack plainArgs (ascii "/etc/k2hftfuse.yaml")
      lateBinary = .ok (true, info') ∧
        (info'.IsBinaryMode, (info'.RuleMap.find? (ascii "log/a")).map (·.MatchingList.length)) =
          (true, some 1) :=
    exists_of_toOption (by decide +kernel)
  rcases hrun with ⟨info', hload, hresult⟩
  obtain ⟨hmode, hlength⟩ := Prod.mk.inj hresult
  rcases Option.map_eq_some_iff.1 hlength with ⟨rule, hrule, hone⟩
  refine ⟨info', hload, hmode, ?_⟩
  intro hno
  rw [hno _ rule hrule] at hone
  cases hone

end K2hFtInfo

end K2hFtFuse
