import K2hFtFuse.Info.Outputs
import K2hFtFuse.Info.Readings

/-!
# Info.Agreement — where the two loaders agree

A client configuration is loaded as an INI file and as a YAML stream from the same object. What each
load leaves is told target by target, by the last section of the target; the two answers are then
compared section by section (`loaders_agree_iff`).
-/

namespace K2hFtFuse

open ByteSeq SpinLock Outcome

/-! ## What is compared -/

/-- The part of a rule that both loaders answer for. -/
structure RuleView where
  IsTransfer : Bool
  OutputPath : Bytes
  DefaultDenyAll : Bool
  Mode : UInt32
  MatchingList : List K2hFtMatchPtn
  deriving DecidableEq

def K2hFtRule.view (rule : K2hFtRule) : RuleView :=
  { IsTransfer := rule.IsTransfer
    OutputPath := rule.OutputPath
    DefaultDenyAll := rule.DefaultDenyAll
    Mode := rule.Mode
    MatchingList := rule.MatchingList }

/-- The same main settings, the same targets and for each target the same rule. -/
structure SameConfig (info info' : K2hFtInfo) : Prop where
  main : K2hFtInfo.SameMain info info'
  rules : ∀ target, (info.RuleMap.find? target).map K2hFtRule.view =
    (info'.RuleMap.find? target).map K2hFtRule.view

/-- Two loads both fail, or they both succeed with the same configuration. -/
inductive LoadersAgree (ini yaml : Except Stop (Bool × K2hFtInfo)) : Prop
  | fail (hini : ∀ info, ini ≠ .ok (true, info)) (hyaml : ∀ info, yaml ≠ .ok (true, info))
  | succeed {info info' : K2hFtInfo} (hini : ini = .ok (true, info))
      (hyaml : yaml = .ok (true, info')) (hsame : SameConfig info info')

/-! ## Sections -/

/-- The last element of a list that `p` holds for. -/
def lastFor {α : Type} (p : α → Bool) (l : List α) : Option α := l.reverse.find? p

theorem lastFor_append {α : Type} (p : α → Bool) (l₁ l₂ : List α) :
    lastFor p (l₁ ++ l₂) = (lastFor p l₂).or (lastFor p l₁) := by
  simp [lastFor]

theorem lastFor_map {α β : Type} (f : α → β) (p : β → Bool) (l : List α) :
    lastFor p (l.map f) = (lastFor (fun a => p (f a)) l).map f := by
  simp only [lastFor, ← List.map_reverse, List.find?_map]
  rfl

/-- The patterns that the INI loader builds of the values of `ALLOW`, or of those of `DENY`. -/
def iniPatterns (lib : ConfLib) (env : LoadEnv) (allow : Bool) (values : List (Bool × AclValue)) :
    List K2hFtMatchPtn :=
  values.filterMap fun v => if v.1 = allow then iniPattern lib env v.2.ini else none

/-- The patterns that the YAML loader builds of all values. -/
def yamlPatterns (env : LoadEnv) (values : List (Bool × AclValue)) : List K2hFtMatchPtn :=
  values.filterMap fun v => v.2.yamlPattern env

def sectionValues (entries : List RuleEntry) : List (Bool × AclValue) :=
  entries.flatMap RuleEntry.values

/-- The rule that the settings of a section make of a fresh one. -/
def sectionRule (lib : ConfLib) (env : LoadEnv) (entries : List RuleEntry) : K2hFtRule :=
  entries.foldl (fun pTmpRule entry =>
    match entry with
    | .setting key value =>
        (loadRuleKey lib env (fun name => strcasecmp name key) value pTmpRule).1
    | _ => pTmpRule) K2hFtRule.fresh

/-- The patterns of a section that both loaders keep are the same: where lines are denied by default,
the INI loader keeps those of `ALLOW` and the YAML loader none, else they keep those of `DENY` and
all. -/
def PatternsAgree (lib : ConfLib) (env : LoadEnv) (entries : List RuleEntry) : Prop :=
  if (sectionRule lib env entries).DefaultDenyAll then
    iniPatterns lib env true (sectionValues entries) = []
  else
    yamlPatterns env (sectionValues entries) = iniPatterns lib env false (sectionValues entries)

instance instDecidablePatternsAgree (lib : ConfLib) (env : LoadEnv) (entries : List RuleEntry) :
    Decidable (PatternsAgree lib env entries) :=
  inferInstanceAs (Decidable (if (sectionRule lib env entries).DefaultDenyAll then
    iniPatterns lib env true (sectionValues entries) = []
  else
    yamlPatterns env (sectionValues entries) = iniPatterns lib env false (sectionValues entries)))

section Sections

variable {lib : ConfLib} {env : LoadEnv}

theorem foldl_iniValue (values : List (Bool × AclValue)) (s : IniRule) :
    (values.foldl (IniRule.iniValue lib env) s).pTmpRule = s.pTmpRule ∧
      (values.foldl (IniRule.iniValue lib env) s).AllowMatchs =
        s.AllowMatchs ++ iniPatterns lib env true values ∧
      (values.foldl (IniRule.iniValue lib env) s).DenyMatchs =
        s.DenyMatchs ++ iniPatterns lib env false values := by
  induction values generalizing s with
  | nil => simp [iniPatterns]
  | cons v values ih =>
      rcases v with ⟨allow, value⟩
      rcases ih (s.iniValue lib env (allow, value)) with ⟨hrule, hallow, hdeny⟩
      rw [List.foldl_cons, hrule, hallow, hdeny]
      cases hpattern : iniPattern lib env value.ini with
      | none => cases allow <;> simp [IniRule.iniValue, iniPatterns, hpattern]
      | some pMatchPtn => cases allow <;> simp [IniRule.iniValue, iniPatterns, hpattern]

theorem foldl_yamlValue (values : List (Bool × AclValue)) (s : IniRule) :
    (values.foldl (IniRule.yamlValue env) s).pTmpRule = s.pTmpRule ∧
      (values.foldl (IniRule.yamlValue env) s).AllowMatchs = s.AllowMatchs ++ [] ∧
      (values.foldl (IniRule.yamlValue env) s).DenyMatchs =
        s.DenyMatchs ++ yamlPatterns env values := by
  induction values generalizing s with
  | nil => simp [yamlPatterns]
  | cons v values ih =>
      rcases v with ⟨allow, value⟩
      rcases ih (s.yamlValue env (allow, value)) with ⟨hrule, hallow, hdeny⟩
      rw [List.foldl_cons, hrule, hallow, hdeny]
      cases hpattern : value.yamlPattern env with
      | none => simp [IniRule.yamlValue, yamlPatterns, hpattern]
      | some pMatchPtn => simp [IniRule.yamlValue, yamlPatterns, hpattern]

/-- A section whose settings make the rule and whose values, read by `value`, the two lists. -/
theorem section_eq {value : IniRule → Bool × AclValue → IniRule}
    {allowed denied : List (Bool × AclValue) → List K2hFtMatchPtn}
    (hfold : ∀ values s, (values.foldl value s).pTmpRule = s.pTmpRule ∧
      (values.foldl value s).AllowMatchs = s.AllowMatchs ++ allowed values ∧
      (values.foldl value s).DenyMatchs = s.DenyMatchs ++ denied values)
    (hallowed : ∀ xs ys, allowed (xs ++ ys) = allowed xs ++ allowed ys)
    (hdenied : ∀ xs ys, denied (xs ++ ys) = denied xs ++ denied ys) (entries : List RuleEntry) :
    (entries.foldl (IniRule.entry lib env value) IniRule.fresh).pTmpRule =
        sectionRule lib env entries ∧
      (entries.foldl (IniRule.entry lib env value) IniRule.fresh).AllowMatchs =
        allowed (sectionValues entries) ∧
      (entries.foldl (IniRule.entry lib env value) IniRule.fresh).DenyMatchs =
        denied (sectionValues entries) := by
  induction entries using List.reverseRecOn with
  | nil =>
      rcases hfold [] IniRule.fresh with ⟨-, hallow, hdeny⟩
      exact ⟨rfl, hallow, hdeny⟩
  | append_singleton entries entry ih =>
      rcases ih with ⟨hrule, hallow, hdeny⟩
      have hvalues : sectionValues (entries ++ [entry]) = sectionValues entries ++ entry.values := by
        simp [sectionValues]
      rw [hvalues, hallowed, hdenied, ← hallow, ← hdeny]
      simp only [sectionRule, List.foldl_append, List.foldl_cons, List.foldl_nil] at hrule ⊢
      rw [← hrule]
      generalize entries.foldl (IniRule.entry lib env value) IniRule.fresh = s
      cases entry with
      | setting key text =>
          rcases hfold [] s with ⟨-, hallow', hdeny'⟩
          exact ⟨rfl, hallow', hdeny'⟩
      | acl allow a => exact hfold _ s
      | aclList allow values => exact hfold _ s

/-- What the INI loader has read of a section. -/
theorem iniSection_eq (lib : ConfLib) (env : LoadEnv) (entries : List RuleEntry) :
    (iniSection lib env entries).pTmpRule = sectionRule lib env entries ∧
      (iniSection lib env entries).AllowMatchs = iniPatterns lib env true (sectionValues entries) ∧
      (iniSection lib env entries).DenyMatchs = iniPatterns lib env false (sectionValues entries) :=
  section_eq foldl_iniValue (fun _ _ => List.filterMap_append) (fun _ _ => List.filterMap_append)
    entries

/-- What the YAML loader has read of a mapping. -/
theorem yamlSection_eq (lib : ConfLib) (env : LoadEnv) (entries : List RuleEntry) :
    (yamlSection lib env entries).pTmpRule = sectionRule lib env entries ∧
      (yamlSection lib env entries).AllowMatchs = [] ∧
      (yamlSection lib env entries).DenyMatchs = yamlPatterns env (sectionValues entries) :=
  section_eq foldl_yamlValue (fun _ _ => rfl) (fun _ _ => List.filterMap_append) entries

end Sections

/-! ## The rule of a section -/

/-- What is compared of a rule for files, when its output was accepted and the mode was checked. -/
def fileView (args : LoadArgs) (env : LoadEnv) (target : Bytes) (binary : Bool) (rule : K2hFtRule) :
    RuleView :=
  { IsTransfer := rule.IsTransfer
    OutputPath := fileOutput args env target rule
    DefaultDenyAll := rule.DefaultDenyAll
    Mode := rule.Mode
    MatchingList := if binary then [] else rule.MatchingList }

/-- A registered rule, when `OutputPath` was accepted for it and the mode was checked. -/
def K2hFtRule.finished (rule : K2hFtRule) (binary : Bool) (OutputPath : Bytes) : K2hFtRule :=
  { rule with
    OutputPath := OutputPath
    MatchingList := if binary then [] else rule.MatchingList }

section Rules

variable {lib : ConfLib} {args : LoadArgs} {env : LoadEnv} {target : Bytes}

/-- Of a section for files, the loaders make the same rule in binary mode, or where the patterns
agree. -/
theorem fileView_eq_iff (InitTime InitTime' : Timespec) (binary : Bool)
    (entries : List RuleEntry) :
    fileView args env target binary (iniRuleOf lib args env InitTime (false, entries)).2 =
        fileView args env target binary (yamlRuleOf lib args env InitTime' entries).2 ↔
      binary = true ∨ PatternsAgree lib env entries := by
  rcases iniSection_eq lib env entries with ⟨hrule, hallow, hdeny⟩
  rcases yamlSection_eq lib env entries with ⟨hrule', hallow', hdeny'⟩
  have hlists : (iniRuleOf lib args env InitTime (false, entries)).2.MatchingList =
        (yamlRuleOf lib args env InitTime' entries).2.MatchingList ↔ PatternsAgree lib env entries := by
    simp only [iniRuleOf, yamlRuleOf, finishRule, matchingList, hrule, hrule', hallow, hallow',
      hdeny, hdeny', List.append_cancel_left_eq, PatternsAgree]
    split
    · rfl
    · exact eq_comm
  have hrest : fileView args env target binary (iniRuleOf lib args env InitTime (false, entries)).2 =
      { fileView args env target binary (yamlRuleOf lib args env InitTime' entries).2 with
        MatchingList := if binary then []
          else (iniRuleOf lib args env InitTime (false, entries)).2.MatchingList } := by
    simp only [fileView, fileOutput, iniRuleOf, yamlRuleOf, finishRule, hrule, hrule']
  rw [hrest, ← hlists]
  cases binary with
  | true => simp [fileView]
  | false => simp [fileView]

end Rules

namespace K2hFtInfo

section Prepared

variable {args : LoadArgs} {env : LoadEnv} {info info₁ info₂ : K2hFtInfo}

theorem initializeOutputFiles_main {result : Bool}
    (h : info.initializeOutputFiles args env = .ok (result, info₁)) : SameMain info info₁ := by
  rcases bind_eq_ok.1 h with ⟨u, -, hrest⟩
  rcases bind_eq_ok.1 hrest with ⟨outputs, -, hresult⟩
  cases outputs with
  | none =>
      cases hresult
      constructor <;> rfl
  | some RuleMap =>
      cases hresult
      constructor <;> rfl

/-- Without deleted rules, the mode can be checked. -/
theorem checkBinaryMode_ok (hlive : info.freedRules = []) :
    ∃ info', info.checkBinaryMode = .ok info' ∧ SameMain info info' ∧ info'.freedRules = [] := by
  have hderef : info.derefAll = .ok () := by
    simp [derefAll, hlive]
  unfold checkBinaryMode
  split
  · exact ⟨_, rfl, by constructor <;> rfl, hlive⟩
  · rw [hderef]
    exact ⟨_, rfl, by constructor <;> rfl, hlive⟩

/-- The rules after the outputs were accepted and the mode was checked. -/
theorem prepared_find? (houtputs : info.initializeOutputFiles args env = .ok (true, info₁))
    (hbinary : info₁.checkBinaryMode = .ok info₂) (key : Bytes) :
    (info.RuleMap.find? key = none → info₂.RuleMap.find? key = none) ∧
      ∀ rule, info.RuleMap.find? key = some rule → ∃ RuleMap OutputPath,
        initOutput args env RuleMap key rule = .ok (some OutputPath) ∧
          info₂.RuleMap.find? key = some (rule.finished info.IsBinaryMode OutputPath) := by
  rcases initializeOutputFiles_find? houtputs key with ⟨hnone, hsome⟩
  rcases checkBinaryMode_eq_ok hbinary with ⟨-, -, -, hmap⟩
  rw [(initializeOutputFiles_main houtputs).IsBinaryMode] at hmap
  rw [hmap]
  constructor
  · intro h
    cases info.IsBinaryMode with
    | false => exact hnone h
    | true => simp [replayStep, hnone h]
  · intro rule hrule
    rcases hsome rule hrule with ⟨RuleMap, OutputPath, houtput, hfind⟩
    refine ⟨RuleMap, OutputPath, houtput, ?_⟩
    cases info.IsBinaryMode with
    | false => exact hfind
    | true =>
        simp only [replayStep, if_true, OrdMap.find?_mapVals, hfind]
        rfl

end Prepared

/-! ## Registering sections -/

/-- The last rule of the list that has the target, or the one that was there. -/
theorem registerAll_find? (rules : List (List AclEntry × K2hFtRule)) (info : K2hFtInfo)
    (target : Bytes) :
    (info.registerAll rules).RuleMap.find? target =
      ((lastFor (fun r => r.2.TargetPath == target) rules).map Prod.snd).or
        (info.RuleMap.find? target) := by
  induction rules generalizing info with
  | nil => rfl
  | cons r rules ih =>
      have hcons : lastFor (fun r => r.2.TargetPath == target) (r :: rules) =
          (lastFor (fun r => r.2.TargetPath == target) rules).or
            (if r.2.TargetPath == target then some r else none) := by
        rw [← List.singleton_append, lastFor_append]
        simp [lastFor, List.find?_singleton]
      have hregister : (info.register r.1 r.2).RuleMap.find? target =
          if r.2.TargetPath == target then some r.2 else info.RuleMap.find? target := by
        simp only [register, act, setRule, OrdMap.find?_insert, beq_iff_eq, @eq_comm _ target]
      calc ((info.register r.1 r.2).registerAll rules).RuleMap.find? target
          = ((lastFor (fun r => r.2.TargetPath == target) rules).map Prod.snd).or
              ((info.register r.1 r.2).RuleMap.find? target) := ih _
        _ = ((lastFor (fun r => r.2.TargetPath == target) (r :: rules)).map Prod.snd).or
              (info.RuleMap.find? target) := by
              rw [hcons, hregister]
              cases lastFor (fun r => r.2.TargetPath == target) rules with
              | some r' => rfl
              | none => split <;> rfl

theorem registerAll_freedRules {info : K2hFtInfo} (hlive : info.freedRules = [])
    (rules : List (List AclEntry × K2hFtRule)) : (info.registerAll rules).freedRules = [] := by
  induction rules generalizing info with
  | nil => exact hlive
  | cons r rules ih =>
      refine ih ?_
      simp [register, act, setRule, hlive]

end K2hFtInfo

/-! ## The last section of a target -/

def sectionTarget (lib : ConfLib) (env : LoadEnv) (sec : Bool × List RuleEntry) : Bytes :=
  (sectionRule lib env sec.2).TargetPath

def lastSection (lib : ConfLib) (env : LoadEnv) (target : Bytes)
    (secs : List (Bool × List RuleEntry)) : Option (Bool × List RuleEntry) :=
  lastFor (fun sec => sectionTarget lib env sec == target) secs

def RuleGroup.sections (g : RuleGroup) : List (Bool × List RuleEntry) :=
  g.rules.map fun entries => (g.is_dir, entries)

section Targets

variable {lib : ConfLib} {args : LoadArgs} {env : LoadEnv}

theorem iniRules_find? (InitTime : Timespec) (secs : List (Bool × List RuleEntry)) (target : Bytes) :
    lastFor (fun r => r.2.TargetPath == target) (secs.map (iniRuleOf lib args env InitTime)) =
      (lastSection lib env target secs).map (iniRuleOf lib args env InitTime) := by
  have htarget : ∀ sec, (iniRuleOf lib args env InitTime sec).2.TargetPath =
      sectionTarget lib env sec := by
    intro sec
    simp only [iniRuleOf, finishRule, sectionTarget, (iniSection_eq lib env sec.2).1]
  simp only [lastFor_map, htarget, lastSection]

theorem yamlRules_find? (InitTime : Timespec) (g : RuleGroup) (target : Bytes) :
    lastFor (fun r => r.2.TargetPath == target) (g.rules.map (yamlRuleOf lib args env InitTime)) =
      (lastSection lib env target g.sections).map
        (fun sec => yamlRuleOf lib args env InitTime sec.2) := by
  have htarget : ∀ entries, (yamlRuleOf lib args env InitTime entries).2.TargetPath =
      sectionTarget lib env (g.is_dir, entries) := by
    intro entries
    simp only [yamlRuleOf, finishRule, sectionTarget, (yamlSection_eq lib env entries).1]
  simp only [lastFor_map, htarget, lastSection, RuleGroup.sections, Option.map_map,
    Function.comp_def]

end Targets

/-! ## The rules of the YAML loader -/

namespace K2hFtInfo

/-- Between two groups, the map holds the rules of the last sections, with outputs that stay. -/
def YamlRules (lib : ConfLib) (args : LoadArgs) (env : LoadEnv)
    (kept : List (Bool × List RuleEntry)) (info : K2hFtInfo) : Prop :=
  ∀ target,
    (lastSection lib env target kept = none → info.RuleMap.find? target = none) ∧
      ∀ sec, lastSection lib env target kept = some sec → ∃ InitTime rule,
        info.RuleMap.find? target = some rule ∧ Settled args env target rule ∧
          rule.view = fileView args env target info.IsBinaryMode
            (yamlRuleOf lib args env InitTime sec.2).2

section Step

variable {lib : ConfLib} {args : LoadArgs} {env : LoadEnv} {kept : List (Bool × List RuleEntry)}
  {info info₁ info₂ : K2hFtInfo}

/-- A rule that is settled, with its mode checked before, is not changed by a further call. -/
theorem finished_of_settled {rule : K2hFtRule} {RuleMap : OrdMap Bytes K2hFtRule}
    {target OutputPath : Bytes} {binary : Bool} (hsettled : Settled args env target rule)
    (hchecked : binary = true → rule.MatchingList = [])
    (houtput : initOutput args env RuleMap target rule = .ok (some OutputPath)) :
    rule.finished binary OutputPath = rule := by
  obtain rfl := hsettled RuleMap OutputPath houtput
  have hlist : (if binary then [] else rule.MatchingList) = rule.MatchingList := by
    cases binary with
    | false => rfl
    | true => exact (hchecked rfl).symm
  unfold K2hFtRule.finished
  rw [hlist]

/-- A group whose outputs are accepted. -/
theorem yamlRules_prepared (hmount : args.mountPoint.head? = some SLASH) (hpaths : RealPaths env)
    (hmode : S_ISDIR args.init_mode = false) (h : YamlRules lib args env kept info) {g : RuleGroup}
    (houtputs : (info.registerAll
      (g.rules.map (yamlRuleOf lib args env info.InitTime))).initializeOutputFiles args env =
        .ok (true, info₁))
    (hbinary : info₁.checkBinaryMode = .ok info₂) :
    YamlRules lib args env (kept ++ g.sections) info₂ := by
  have hreg := registerAll_registered (g.rules.map (yamlRuleOf lib args env info.InitTime)) info
  have hbin : info₂.IsBinaryMode = info.IsBinaryMode := by
    rcases checkBinaryMode_eq_ok hbinary with ⟨-, -, hmode₂, -⟩
    calc info₂.IsBinaryMode
        = info₁.IsBinaryMode := hmode₂
      _ = _ := (initializeOutputFiles_main houtputs).IsBinaryMode
      _ = info.IsBinaryMode := hreg.main.IsBinaryMode
  intro target
  rcases prepared_find? houtputs hbinary target with ⟨hnone, hsome⟩
  rw [registerAll_find?, yamlRules_find?] at hnone hsome
  rw [hreg.main.IsBinaryMode] at hsome
  rw [lastSection, lastFor_append, ← lastSection, ← lastSection, hbin]
  cases hlast : lastSection lib env target g.sections with
  | some sec =>
      -- the group has the last section of the target
      rw [hlast] at hsome
      rcases hsome _ rfl with ⟨RuleMap, OutputPath, houtput, hfind⟩
      refine ⟨fun hno => by simp at hno, ?_⟩
      intro sec' heq
      obtain rfl : sec = sec' := by simpa using heq
      refine ⟨info.InitTime, _, hfind, ?_, ?_⟩
      · exact (initOutput_settled hmount hpaths hmode houtput).congr rfl rfl
      · rw [initOutput_file hmode houtput]
        rfl
  | none =>
      rw [hlast] at hnone hsome
      refine ⟨fun hno => hnone ((h target).1 (by simpa using hno)), ?_⟩
      intro sec heq
      rcases (h target).2 sec (by simpa using heq) with ⟨InitTime, rule, hrule, hsettled, hview⟩
      rcases hsome rule (by simpa using hrule) with ⟨RuleMap, OutputPath, houtput, hfind⟩
      refine ⟨InitTime, rule, ?_, hsettled, hview⟩
      have hchecked : info.IsBinaryMode = true → rule.MatchingList = [] := by
        intro hbinary
        have hlist := congrArg RuleView.MatchingList hview
        simpa [K2hFtRule.view, fileView, hbinary] using hlist
      rw [hfind, finished_of_settled hsettled hchecked houtput]

end Step

/-! ## The ends of the sequences -/

/-- The groups that the YAML loader reads, each with the state before the end of its sequence. -/
def sequenceEnds (lib : ConfLib) (args : LoadArgs) (env : LoadEnv) :
    List RuleGroup → K2hFtInfo → List (RuleGroup × K2hFtInfo)
  | [], _ => []
  | g :: groups, info =>
      (g, info.registerAll (g.rules.map (yamlRuleOf lib args env info.InitTime))) ::
        match info.yamlGroup lib args env g with
        | .ok info => sequenceEnds lib args env groups info
        | .error _ => []

/-- `InitializeOutputFiles` does not return at the end of a sequence. -/
def Throws (args : LoadArgs) (env : LoadEnv) (ends : List (RuleGroup × K2hFtInfo)) : Prop :=
  ∃ p ∈ ends, p.2.outputs args env = none

/-- It returns false there. -/
def Refused (args : LoadArgs) (env : LoadEnv) (ends : List (RuleGroup × K2hFtInfo)) : Prop :=
  ∃ p ∈ ends, p.2.outputs args env = some false

instance instDecidableThrows (args : LoadArgs) (env : LoadEnv) (ends : List (RuleGroup × K2hFtInfo)) :
    Decidable (Throws args env ends) :=
  inferInstanceAs (Decidable (∃ p ∈ ends, p.2.outputs args env = none))

instance instDecidableRefused (args : LoadArgs) (env : LoadEnv)
    (ends : List (RuleGroup × K2hFtInfo)) : Decidable (Refused args env ends) :=
  inferInstanceAs (Decidable (∃ p ∈ ends, p.2.outputs args env = some false))

/-- The sections after the last sequence whose outputs are refused. -/
def keptSections (args : LoadArgs) (env : LoadEnv) (kept : List (Bool × List RuleEntry))
    (ends : List (RuleGroup × K2hFtInfo)) : List (Bool × List RuleEntry) :=
  ends.foldl (fun kept p =>
    if p.2.outputs args env = some false then [] else kept ++ p.1.sections) kept

theorem throws_cons {args : LoadArgs} {env : LoadEnv} {p : RuleGroup × K2hFtInfo}
    {ends : List (RuleGroup × K2hFtInfo)} :
    Throws args env (p :: ends) ↔ p.2.outputs args env = none ∨ Throws args env ends :=
  List.exists_mem_cons_iff ..

theorem refused_cons {args : LoadArgs} {env : LoadEnv} {p : RuleGroup × K2hFtInfo}
    {ends : List (RuleGroup × K2hFtInfo)} :
    Refused args env (p :: ends) ↔ p.2.outputs args env = some false ∨ Refused args env ends :=
  List.exists_mem_cons_iff ..

/-- The object with the main settings that `Clean` leaves. -/
def resetMain (info : K2hFtInfo) : K2hFtInfo :=
  { info with
    IsMemType := true
    K2hFilePath := []
    IsInitialize := true
    IsFullmap := true
    MaskBitCnt := 8
    CMaskBitCnt := 4
    MaxElementCnt := 32
    PageSize := 128
    DtorThreadCnt := 1
    DtorCtpPath := K2HFT_K2HTPDTOR }

theorem SameMain.resetMain {info info' : K2hFtInfo} (h : SameMain info info') :
    SameMain info.resetMain info'.resetMain :=
  ⟨rfl, rfl, rfl, rfl, rfl, rfl, rfl, rfl, rfl, rfl, h.IsBinaryMode, h.ExpireTime, h.limits⟩

/-- The object that `Clean` leaves. -/
def cleaned (now : Option Timespec) (info : K2hFtInfo) : K2hFtInfo :=
  ({ info.resetMain with
    prule_lockval := false
    Config := []
    DirMode := 0
    DirUid := 0
    DirGid := 0
    RuleMap := ∅
    InitTime := now.getD info.InitTime } : K2hFtInfo).act .clean

theorem clean_eq_cleaned {info : K2hFtInfo} (hfree : info.prule_lockval = false)
    (hlive : info.freedRules = []) (now : Option Timespec) :
    info.clean now = .ok (info.cleaned now) := by
  simp only [clean, lock, hfree, derefAll, hlive, locked, Bind.bind, Except.bind, cleaned, resetMain]
  rfl

theorem cleaned_main (now : Option Timespec) (info : K2hFtInfo) :
    SameMain info.resetMain (info.cleaned now) := by
  constructor <;> rfl

/-- With a free lock and without deleted rules, everything can be cleaned. -/
theorem clean_ok {info : K2hFtInfo} (hfree : info.prule_lockval = false)
    (hlive : info.freedRules = []) (now : Option Timespec) :
    ∃ info', info.clean now = .ok info' ∧ SameMain info.resetMain info' :=
  ⟨info.cleaned now, clean_eq_cleaned hfree hlive now, cleaned_main now info⟩

section Run

variable {lib : ConfLib} {args : LoadArgs} {env : LoadEnv}

/-- The groups, from a state between two of them. Unless a call throws, the rules that are left are
those of the kept sections, and the main settings are lost where outputs were refused. -/
theorem yamlGroups_run (hmount : args.mountPoint.head? = some SLASH) (hpaths : RealPaths env)
    (hmode : S_ISDIR args.init_mode = false) {groups : List RuleGroup}
    {kept : List (Bool × List RuleEntry)} {info : K2hFtInfo} (hfree : info.prule_lockval = false)
    (hlive : info.freedRules = []) (hrules : YamlRules lib args env kept info) :
    (Throws args env (sequenceEnds lib args env groups info) →
      ∃ e, yamlGroups lib args env groups info = .error e) ∧
    (¬ Throws args env (sequenceEnds lib args env groups info) →
      ∃ info', yamlGroups lib args env groups info = .ok info' ∧
        YamlRules lib args env
          (keptSections args env kept (sequenceEnds lib args env groups info)) info' ∧
        (Refused args env (sequenceEnds lib args env groups info) →
          SameMain info.resetMain info') ∧
        (¬ Refused args env (sequenceEnds lib args env groups info) → SameMain info info') ∧
        ∃ dropped, kept ++ groups.flatMap RuleGroup.sections =
          dropped ++ keptSections args env kept (sequenceEnds lib args env groups info)) := by
  induction groups generalizing kept info with
  | nil =>
      refine ⟨?_, fun _ => ⟨info, rfl, hrules, ?_, fun _ => .refl info, [], by simp [keptSections,
        sequenceEnds]⟩⟩
      · rintro ⟨p, hp, -⟩
        cases hp
      · rintro ⟨p, hp, -⟩
        cases hp
  | cons g groups ih =>
      obtain ⟨reg, hreg⟩ : ∃ reg, reg = info.registerAll
        (g.rules.map (yamlRuleOf lib args env info.InitTime)) := ⟨_, rfl⟩
      have hsame : Registered info reg := by
        rw [hreg]
        exact registerAll_registered _ info
      have hlive' : reg.freedRules = [] := by
        rw [hreg]
        exact registerAll_freedRules hlive _
      have hends : sequenceEnds lib args env (g :: groups) info = (g, reg) ::
          match info.yamlGroup lib args env g with
          | .ok info => sequenceEnds lib args env groups info
          | .error _ => [] := by
        rw [hreg]
        rfl
      have hgroups : yamlGroups lib args env (g :: groups) info =
          info.yamlGroup lib args env g >>= yamlGroups lib args env groups := rfl
      rw [hends, hgroups, throws_cons, refused_cons]
      rcases houtputs : reg.initializeOutputFiles args env with e | ⟨_ | _, info₁⟩
      · -- the call throws
        have hverdict : reg.outputs args env = none := by
          simp [outputs, houtputs, Except.toOption]
        have hgroup : info.yamlGroup lib args env g = .error e := by
          simp [yamlGroup, ← hreg, houtputs, Bind.bind, Except.bind]
        refine ⟨fun _ => ⟨e, by rw [hgroup]; rfl⟩, fun hno => ?_⟩
        exact absurd (.inl hverdict) hno
      · -- the outputs are refused: everything is cleaned, and the groups go on from there
        have hverdict : reg.outputs args env = some false := by
          simp [outputs, houtputs, Except.toOption]
        rcases initializeOutputFiles_eq_ok houtputs with ⟨hlock, -, -, hlive₁, -⟩
        rcases clean_ok (hlock.trans (hsame.prule_lockval.trans hfree)) hlive₁ (env.now 0) with
          ⟨info₂, hclean, hreset⟩
        have hgroup : info.yamlGroup lib args env g = .ok info₂ := by
          simp [yamlGroup, ← hreg, houtputs, hclean, Bind.bind, Except.bind]
        rcases clean_eq_ok hclean with ⟨-, hfree₂, hmap, -, hlive₂⟩
        have hempty : YamlRules lib args env [] info₂ := by
          intro target
          rw [hmap]
          exact ⟨fun _ => rfl, fun sec hsec => by cases hsec⟩
        have hmain : SameMain info.resetMain info₂ :=
          (hsame.main.trans (initializeOutputFiles_main houtputs)).resetMain.trans hreset
        rcases ih hfree₂ hlive₂ hempty with ⟨hthrows, hruns⟩
        simp only [hgroup, hverdict, reduceCtorEq, false_or, true_or, forall_const]
        refine ⟨hthrows, fun hno => ?_⟩
        rcases hruns hno with ⟨info', hrun, hrules', hrefused, haccepted, dropped, hdropped⟩
        have hkept : keptSections args env kept ((g, reg) :: sequenceEnds lib args env groups info₂) =
            keptSections args env [] (sequenceEnds lib args env groups info₂) := by
          simp [keptSections, hverdict]
        rw [hkept]
        refine ⟨info', hrun, hrules', ?_, by simp, kept ++ g.sections ++ dropped, ?_⟩
        · by_cases hagain : Refused args env (sequenceEnds lib args env groups info₂)
          · exact hmain.resetMain.trans (hrefused hagain)
          · exact hmain.trans (haccepted hagain)
        · rw [List.nil_append] at hdropped
          rw [List.flatMap_cons, hdropped]
          simp
      · -- the outputs are accepted
        have hverdict : reg.outputs args env = some true := by
          simp [outputs, houtputs, Except.toOption]
        rcases initializeOutputFiles_eq_ok houtputs with ⟨hlock, -, -, hlive₁, -⟩
        rcases checkBinaryMode_ok hlive₁ with ⟨info₂, hbinary, hsame₂, hlive₂⟩
        have hgroup : info.yamlGroup lib args env g = .ok info₂ := by
          simp [yamlGroup, ← hreg, houtputs, hbinary, Bind.bind, Except.bind]
        have hfree₂ : info₂.prule_lockval = false := by
          rw [(checkBinaryMode_eq_ok hbinary).1, hlock, hsame.prule_lockval, hfree]
        have hrules₂ : YamlRules lib args env (kept ++ g.sections) info₂ :=
          yamlRules_prepared hmount hpaths hmode hrules (hreg ▸ houtputs) hbinary
        have hmain : SameMain info info₂ :=
          (hsame.main.trans (initializeOutputFiles_main houtputs)).trans hsame₂
        rcases ih hfree₂ hlive₂ hrules₂ with ⟨hthrows, hruns⟩
        simp only [hgroup, hverdict, reduceCtorEq, Option.some.injEq, Bool.true_eq_false, false_or]
        refine ⟨hthrows, fun hno => ?_⟩
        rcases hruns hno with ⟨info', hrun, hrules', hrefused, haccepted, dropped, hdropped⟩
        have hkept : keptSections args env kept ((g, reg) :: sequenceEnds lib args env groups info₂) =
            keptSections args env (kept ++ g.sections)
              (sequenceEnds lib args env groups info₂) := by
          simp [keptSections, hverdict]
        rw [hkept]
        refine ⟨info', hrun, hrules', ?_, ?_, dropped, ?_⟩
        · exact fun hagain => hmain.resetMain.trans (hrefused hagain)
        · exact fun hagain => hmain.trans (haccepted hagain)
        · rw [List.flatMap_cons, ← List.append_assoc, hdropped]

end Run

/-! ## Both loads -/

/-- What `SetMountPoint` and `Initialize` give to a load: the mount point is an absolute path, and the
modes are those of a file and of a directory. -/
structure ProperArgs (args : LoadArgs) : Prop where
  mountPoint : args.mountPoint.head? = some SLASH
  init_mode : S_ISDIR args.init_mode = false
  init_dmode : S_ISDIR args.init_dmode = true

/-- Nothing is loaded, and no operation runs. -/
structure Blank (info : K2hFtInfo) : Prop where
  Config : info.Config = []
  RuleMap : info.RuleMap = ∅
  freedRules : info.freedRules = []
  prule_lockval : info.prule_lockval = false

/-- The object after the INI loader has read the last line, from the one after the main settings. -/
def iniRegistered (lib : ConfLib) (args : LoadArgs) (env : LoadEnv) (conf : ClientConf)
    (info₀ : K2hFtInfo) : K2hFtInfo :=
  info₀.registerAll (conf.sections.map (iniRuleOf lib args env info₀.InitTime))

/-- The ends of the sequences, from the object after the main settings. -/
def yamlEnds (lib : ConfLib) (args : LoadArgs) (env : LoadEnv) (conf : ClientConf)
    (info₀ : K2hFtInfo) : List (RuleGroup × K2hFtInfo) :=
  sequenceEnds lib args env conf.groups info₀

/-- The sections that the YAML loader does not lose. -/
def yamlKept (lib : ConfLib) (args : LoadArgs) (env : LoadEnv) (conf : ClientConf)
    (info₀ : K2hFtInfo) : List (Bool × List RuleEntry) :=
  keptSections args env [] (yamlEnds lib args env conf info₀)

/-- The INI loader refuses nothing: no main setting, not their values together and not the outputs. -/
def IniAccepts (lib : ConfLib) (args : LoadArgs) (env : LoadEnv) (conf : ClientConf)
    (info : K2hFtInfo) : Prop :=
  ∃ info₀, info.loadMain lib env conf.main = (true, info₀) ∧ info₀.mainValuesOk = true ∧
    (iniRegistered lib args env conf info₀).outputs args env = some true

/-- What the YAML loader stops for: a pair with the key of rule sections, a main setting, a call that
throws, or values of the main settings that no refused outputs have reset. -/
def YamlAccepts (lib : ConfLib) (args : LoadArgs) (env : LoadEnv) (conf : ClientConf)
    (info : K2hFtInfo) : Prop :=
  (∀ p ∈ conf.main, isRuleKey p.1 = false) ∧
    ∃ info₀, info.loadMain lib env conf.main = (true, info₀) ∧
      ¬ Throws args env (yamlEnds lib args env conf info₀) ∧
      (Refused args env (yamlEnds lib args env conf info₀) ∨ info₀.mainValuesOk = true)

/-- What both loaders make of the configuration is the same: nothing is lost where outputs are
refused, and the last section of every target is one for files whose patterns agree. -/
structure SameSections (lib : ConfLib) (args : LoadArgs) (env : LoadEnv) (conf : ClientConf)
    (info₀ : K2hFtInfo) : Prop where
  reset : Refused args env (yamlEnds lib args env conf info₀) →
    SameMain info₀ info₀.resetMain
  sections : ∀ target sec, lastSection lib env target conf.sections = some sec →
    (lastSection lib env target (yamlKept lib args env conf info₀)).isSome = true ∧
    sec.1 = false ∧ (info₀.IsBinaryMode = true ∨ PatternsAgree lib env sec.2)

/-- What the INI loader leaves, from the object `info₀` after the main settings. -/
structure IniLoaded (lib : ConfLib) (args : LoadArgs) (env : LoadEnv) (conf : ClientConf)
    (info₀ info : K2hFtInfo) : Prop where
  main : SameMain info₀ info
  absent : ∀ target, lastSection lib env target conf.sections = none →
    info.RuleMap.find? target = none
  present : ∀ target sec, lastSection lib env target conf.sections = some sec →
    ∃ RuleMap OutputPath,
      initOutput args env RuleMap target (iniRuleOf lib args env info₀.InitTime sec).2 =
        .ok (some OutputPath) ∧
      info.RuleMap.find? target = some
        ((iniRuleOf lib args env info₀.InitTime sec).2.finished info₀.IsBinaryMode OutputPath)

/-- What the YAML loader leaves. -/
structure YamlLoaded (lib : ConfLib) (args : LoadArgs) (env : LoadEnv) (conf : ClientConf)
    (info₀ info : K2hFtInfo) : Prop where
  rules : YamlRules lib args env (yamlKept lib args env conf info₀) info
  refused : Refused args env (yamlEnds lib args env conf info₀) → SameMain info₀.resetMain info
  accepted : ¬ Refused args env (yamlEnds lib args env conf info₀) → SameMain info₀ info
  suffix : ∃ dropped, conf.sections = dropped ++ yamlKept lib args env conf info₀

section Loads

variable {lib : ConfLib} {stack : YamlDataStack} {args : LoadArgs} {env : LoadEnv}
  {conf : ClientConf} {config : Bytes} {info info₀ : K2hFtInfo}

theorem loadMain_sameRules (lib : ConfLib) (env : LoadEnv) (main : List (Bytes × Bytes))
    (info : K2hFtInfo) : SameRules info (info.loadMain lib env main).2 := by
  induction main generalizing info with
  | nil => exact .refl info
  | cons p main ih =>
      have hkey := loadMainKey_sameRules lib env (fun name => strcasecmp name p.1) p.2 info
      simp only [loadMain]
      rcases hresult : info.loadMainKey lib env (fun name => strcasecmp name p.1) p.2 with
        ⟨_ | _, info₁⟩
      · rw [hresult] at hkey
        exact hkey
      · rw [hresult] at hkey
        exact hkey.trans (ih info₁)

theorem outputs_eq_true_iff : info.outputs args env = some true ↔
    ∃ info₁, info.initializeOutputFiles args env = .ok (true, info₁) := by
  unfold outputs
  rcases info.initializeOutputFiles args env with e | ⟨result, info₁⟩
  · simp [Except.toOption]
  · cases result <;> simp [Except.toOption]

theorem load_ini_accepts {info' : K2hFtInfo} (hconf : conf.WellFormed) (hback : conf.ReadsBack lib)
    (hconfig : config ≠ []) (hblank : Blank info)
    (h : info.load lib stack args config (conf.ini env) = .ok (true, info')) :
    IniAccepts lib args env conf info := by
  rcases (load_ini_iff hconf hback hconfig hblank.Config).1 h with
    ⟨info₀, hmain, hvalues, info₁, info₂, houtputs, -, -⟩
  exact ⟨info₀, hmain, hvalues, outputs_eq_true_iff.2 ⟨info₁, houtputs⟩⟩

theorem loaded_ini (hconf : conf.WellFormed) (hback : conf.ReadsBack lib) (hconfig : config ≠ [])
    (hblank : Blank info) (hmain : info.loadMain lib env conf.main = (true, info₀))
    (hvalues : info₀.mainValuesOk = true)
    (houtputs : (iniRegistered lib args env conf info₀).outputs args env = some true) :
    ∃ i, info.load lib stack args config (conf.ini env) = .ok (true, i) ∧
      IniLoaded lib args env conf info₀ i := by
  have hsame := loadMain_sameRules lib env conf.main info
  rw [hmain] at hsame
  have hreg := registerAll_registered
    (conf.sections.map (iniRuleOf lib args env info₀.InitTime)) info₀
  rcases outputs_eq_true_iff.1 houtputs with ⟨info₁, hcall⟩
  rcases initializeOutputFiles_eq_ok hcall with ⟨-, -, -, hlive, -⟩
  rcases checkBinaryMode_ok hlive with ⟨info₂, hbinary, hsame₂, -⟩
  have hset : SameMain info₂ (info₂.setLoaded args config) := by
    constructor <;> rfl
  have hfind : ∀ target, (iniRegistered lib args env conf info₀).RuleMap.find? target =
      (lastSection lib env target conf.sections).map
        (fun sec => (iniRuleOf lib args env info₀.InitTime sec).2) := by
    intro target
    rw [iniRegistered, registerAll_find?, iniRules_find?, hsame.RuleMap, hblank.RuleMap]
    simp [Option.map_map, Function.comp_def]
  refine ⟨info₂.setLoaded args config, (load_ini_iff hconf hback hconfig hblank.Config).2
    ⟨info₀, hmain, hvalues, info₁, info₂, hcall, hbinary, rfl⟩, ?_, ?_, ?_⟩
  · exact ((hreg.main.trans (initializeOutputFiles_main hcall)).trans hsame₂).trans hset
  · intro target hlast
    refine (prepared_find? hcall hbinary target).1 ?_
    rw [hfind, hlast]
    rfl
  · intro target sec hlast
    rcases (prepared_find? hcall hbinary target).2 _ (by rw [hfind, hlast]; rfl) with
      ⟨RuleMap, OutputPath, houtput, hrule⟩
    refine ⟨RuleMap, OutputPath, houtput, ?_⟩
    rw [← hreg.main.IsBinaryMode]
    exact hrule

theorem yamlRules_empty (args : LoadArgs) (hblank : Blank info)
    (hmain : info.loadMain lib env conf.main = (true, info₀)) :
    YamlRules lib args env [] info₀ ∧ info₀.prule_lockval = false ∧ info₀.freedRules = [] := by
  have hsame := loadMain_sameRules lib env conf.main info
  rw [hmain] at hsame
  refine ⟨?_, hsame.prule_lockval.trans hblank.prule_lockval,
    hsame.freedRules.trans hblank.freedRules⟩
  intro target
  rw [hsame.RuleMap, hblank.RuleMap]
  exact ⟨fun _ => rfl, fun sec hsec => by cases hsec⟩

theorem load_yaml_accepts {info' : K2hFtInfo} (hconf : conf.WellFormed) (hargs : ProperArgs args)
    (hpaths : RealPaths env) (hblank : Blank info)
    (h : info.load lib stack args config (conf.yaml env) = .ok (true, info')) :
    YamlAccepts lib args env conf info := by
  rcases (load_yaml_iff hconf).1 h with ⟨hrule, info₀, hmain, info₁, hgroups, hvalues, -⟩
  rcases yamlRules_empty args hblank hmain with ⟨hrules, hfree, hlive⟩
  rcases yamlGroups_run hargs.mountPoint hpaths hargs.init_mode hfree hlive hrules with
    ⟨hthrows, hruns⟩
  have hthrow : ¬ Throws args env (yamlEnds lib args env conf info₀) := by
    intro hthrow
    rcases hthrows hthrow with ⟨e, he⟩
    rw [hgroups] at he
    cases he
  refine ⟨hrule, info₀, hmain, hthrow, ?_⟩
  by_cases hrefused : Refused args env (yamlEnds lib args env conf info₀)
  · exact .inl hrefused
  · rcases hruns hthrow with ⟨info₂, hrun, -, -, haccepted, -⟩
    obtain rfl : info₁ = info₂ := Except.ok.inj (hgroups.symm.trans hrun)
    right
    rw [← (haccepted hrefused).mainValuesOk]
    exact hvalues

theorem loaded_yaml (hconf : conf.WellFormed) (hargs : ProperArgs args) (hpaths : RealPaths env)
    (hblank : Blank info) (hrule : ∀ p ∈ conf.main, isRuleKey p.1 = false)
    (hmain : info.loadMain lib env conf.main = (true, info₀))
    (hthrow : ¬ Throws args env (yamlEnds lib args env conf info₀))
    (hvalues : Refused args env (yamlEnds lib args env conf info₀) ∨ info₀.mainValuesOk = true) :
    ∃ y, info.load lib stack args config (conf.yaml env) = .ok (true, y) ∧
      YamlLoaded lib args env conf info₀ y := by
  rcases yamlRules_empty args hblank hmain with ⟨hrules, hfree, hlive⟩
  rcases (yamlGroups_run hargs.mountPoint hpaths hargs.init_mode hfree hlive hrules).2 hthrow with
    ⟨info₁, hrun, hrules₁, hrefused, haccepted, hdropped⟩
  have hvalues₁ : info₁.mainValuesOk = true := by
    by_cases href : Refused args env (yamlEnds lib args env conf info₀)
    · rw [(hrefused href).mainValuesOk]
      rfl
    · rw [(haccepted href).mainValuesOk]
      exact hvalues.resolve_left href
  have hset : SameMain info₁ (info₁.setLoaded args config) := by
    constructor <;> rfl
  exact ⟨info₁.setLoaded args config,
    (load_yaml_iff hconf).2 ⟨hrule, info₀, hmain, info₁, hrun, hvalues₁, rfl⟩, hrules₁,
    fun href => (hrefused href).trans hset, fun href => (haccepted href).trans hset, hdropped⟩

/-! ## The comparison -/

/-- `Clean` leaves the mode as it is. -/
theorem YamlLoaded.IsBinaryMode {y : K2hFtInfo} (h : YamlLoaded lib args env conf info₀ y) :
    y.IsBinaryMode = info₀.IsBinaryMode := by
  by_cases href : Refused args env (yamlEnds lib args env conf info₀)
  · exact (h.refused href).IsBinaryMode
  · exact (h.accepted href).IsBinaryMode

/-- A target of a kept section has its last section there. -/
theorem YamlLoaded.lastSection_eq {y : K2hFtInfo} (h : YamlLoaded lib args env conf info₀ y)
    {target : Bytes} {sec : Bool × List RuleEntry}
    (hkept : lastSection lib env target (yamlKept lib args env conf info₀) = some sec) :
    lastSection lib env target conf.sections = some sec := by
  rcases h.suffix with ⟨dropped, hsections⟩
  calc lastSection lib env target conf.sections
      = (lastSection lib env target (yamlKept lib args env conf info₀)).or
          (lastSection lib env target dropped) := by
        rw [hsections]
        exact lastFor_append _ _ _
    _ = some sec := by
        rw [hkept]
        rfl

/-- The rule that the INI loader leaves for a target whose last section is one for files. -/
theorem IniLoaded.view_eq {i : K2hFtInfo} (hargs : ProperArgs args)
    (h : IniLoaded lib args env conf info₀ i) {target : Bytes} {entries : List RuleEntry}
    (hlast : lastSection lib env target conf.sections = some (false, entries)) :
    (i.RuleMap.find? target).map K2hFtRule.view =
      some (fileView args env target info₀.IsBinaryMode
        (iniRuleOf lib args env info₀.InitTime (false, entries)).2) := by
  rcases h.present target _ hlast with ⟨RuleMap, OutputPath, houtput, hfind⟩
  rw [hfind, initOutput_file hargs.init_mode houtput]
  rfl

/-- Two loads that succeed have the same result exactly when the sections are the same for both. -/
theorem sameConfig_iff (hargs : ProperArgs args) {i y : K2hFtInfo}
    (hini : IniLoaded lib args env conf info₀ i) (hyaml : YamlLoaded lib args env conf info₀ y) :
    SameConfig i y ↔ SameSections lib args env conf info₀ := by
  constructor
  · intro h
    refine ⟨?_, ?_⟩
    · intro href
      exact (hini.main.trans h.main).trans (hyaml.refused href).symm
    · rintro target ⟨is_dir, entries⟩ hlast
      rcases hini.present target _ hlast with ⟨RuleMap, OutputPath, houtput, hfind⟩
      have hview := h.rules target
      -- the target is one of both maps, so its section was kept
      cases hkept : lastSection lib env target (yamlKept lib args env conf info₀) with
      | none =>
          rw [hfind, (hyaml.rules target).1 hkept] at hview
          cases hview
      | some sec =>
          obtain rfl : sec = (is_dir, entries) :=
            Option.some.inj ((hyaml.lastSection_eq hkept).symm.trans hlast)
          rcases (hyaml.rules target).2 _ hkept with ⟨InitTime, rule, hrule, -, hruleView⟩
          rw [hyaml.IsBinaryMode] at hruleView
          rw [hrule, Option.map_some, hruleView] at hview
          cases is_dir with
          | true =>
              -- the modes of a directory and of a file
              rw [hfind] at hview
              have hmode : args.init_dmode = args.init_mode :=
                congrArg RuleView.Mode (Option.some.inj hview)
              have hdir := hargs.init_dmode
              rw [hmode, hargs.init_mode] at hdir
              cases hdir
          | false =>
              rw [hini.view_eq hargs hlast] at hview
              exact ⟨rfl, rfl, (fileView_eq_iff _ _ _ _).1 (Option.some.inj hview)⟩
  · intro h
    refine ⟨?_, ?_⟩
    · by_cases href : Refused args env (yamlEnds lib args env conf info₀)
      · exact (hini.main.symm.trans (h.reset href)).trans (hyaml.refused href)
      · exact hini.main.symm.trans (hyaml.accepted href)
    · intro target
      cases hkept : lastSection lib env target (yamlKept lib args env conf info₀) with
      | none =>
          have hlast : lastSection lib env target conf.sections = none := by
            by_contra hsome
            rcases Option.ne_none_iff_exists'.1 hsome with ⟨sec, hsec⟩
            have hlost := (h.sections target sec hsec).1
            rw [hkept] at hlost
            cases hlost
          rw [hini.absent target hlast, (hyaml.rules target).1 hkept]
      | some sec =>
          have hlast := hyaml.lastSection_eq hkept
          rcases sec with ⟨is_dir, entries⟩
          rcases h.sections target _ hlast with ⟨-, hdir, hpatterns⟩
          obtain rfl : is_dir = false := hdir
          rcases (hyaml.rules target).2 _ hkept with ⟨InitTime, rule, hrule, -, hruleView⟩
          rw [hini.view_eq hargs hlast, hrule, Option.map_some, hruleView, hyaml.IsBinaryMode]
          exact congrArg some ((fileView_eq_iff _ InitTime _ _).2 hpatterns)

/-- A configuration that is loaded in both formats gives the same result exactly when both loaders
stop for something, or none does and all sections are the same for both. -/
theorem loaders_agree_iff {config' : Bytes} (hconf : conf.WellFormed) (hback : conf.ReadsBack lib)
    (hargs : ProperArgs args) (hpaths : RealPaths env) (hblank : Blank info) (hconfig : config ≠ []) :
    LoadersAgree (info.load lib stack args config (conf.ini env))
        (info.load lib stack args config' (conf.yaml env)) ↔
      (¬ IniAccepts lib args env conf info ∧ ¬ YamlAccepts lib args env conf info) ∨
      (IniAccepts lib args env conf info ∧ YamlAccepts lib args env conf info ∧
        ∀ info₀, info.loadMain lib env conf.main = (true, info₀) →
          SameSections lib args env conf info₀) := by
  have hini : (∃ i, info.load lib stack args config (conf.ini env) = .ok (true, i)) ↔
      IniAccepts lib args env conf info := by
    constructor
    · rintro ⟨i, hi⟩
      exact load_ini_accepts hconf hback hconfig hblank hi
    · rintro ⟨info₀, hmain, hvalues, houtputs⟩
      rcases loaded_ini hconf hback hconfig hblank hmain hvalues houtputs with ⟨i, hi, -⟩
      exact ⟨i, hi⟩
  have hyaml : (∃ y, info.load lib stack args config' (conf.yaml env) = .ok (true, y)) ↔
      YamlAccepts lib args env conf info := by
    constructor
    · rintro ⟨y, hy⟩
      exact load_yaml_accepts hconf hargs hpaths hblank hy
    · rintro ⟨hrule, info₀, hmain, hthrow, hvalues⟩
      rcases loaded_yaml hconf hargs hpaths hblank hrule hmain hthrow hvalues with ⟨y, hy, -⟩
      exact ⟨y, hy⟩
  -- where both accept, each of them returns true, and the results are compared
  have hboth : IniAccepts lib args env conf info → YamlAccepts lib args env conf info →
      ∃ info₀ i y, info.loadMain lib env conf.main = (true, info₀) ∧
        info.load lib stack args config (conf.ini env) = .ok (true, i) ∧
        info.load lib stack args config' (conf.yaml env) = .ok (true, y) ∧
        (SameConfig i y ↔ SameSections lib args env conf info₀) := by
    rintro ⟨info₀, hmain, hvalues, houtputs⟩ ⟨hrule, info₀', hmain', hthrow, hvalues'⟩
    obtain rfl : info₀ = info₀' := (Prod.mk.inj (hmain.symm.trans hmain')).2
    rcases loaded_ini hconf hback hconfig hblank hmain hvalues houtputs with ⟨i, hi, hloaded⟩
    rcases loaded_yaml hconf hargs hpaths hblank hrule hmain hthrow hvalues' with ⟨y, hy, hloaded'⟩
    exact ⟨info₀, i, y, hmain, hi, hy, sameConfig_iff hargs hloaded hloaded'⟩
  constructor
  · intro hagree
    cases hagree with
    | fail hfail hfail' =>
        left
        refine ⟨fun haccepts => ?_, fun haccepts => ?_⟩
        · rcases hini.2 haccepts with ⟨i, hi⟩
          exact hfail i hi
        · rcases hyaml.2 haccepts with ⟨y, hy⟩
          exact hfail' y hy
    | succeed hi hy hsame =>
        right
        have haccepts := hini.1 ⟨_, hi⟩
        have haccepts' := hyaml.1 ⟨_, hy⟩
        refine ⟨haccepts, haccepts', fun info₀ hmain => ?_⟩
        rcases hboth haccepts haccepts' with ⟨info₀', i, y, hmain', hi', hy', hiff⟩
        obtain rfl := (Prod.mk.inj (hmain.symm.trans hmain')).2
        obtain rfl := (Prod.mk.inj (Except.ok.inj (hi.symm.trans hi'))).2
        obtain rfl := (Prod.mk.inj (Except.ok.inj (hy.symm.trans hy'))).2
        exact hiff.1 hsame
  · rintro (⟨hno, hno'⟩ | ⟨haccepts, haccepts', hsections⟩)
    · exact .fail (fun i hi => hno (hini.1 ⟨i, hi⟩)) (fun y hy => hno' (hyaml.1 ⟨y, hy⟩))
    · rcases hboth haccepts haccepts' with ⟨info₀, i, y, hmain, hi, hy, hiff⟩
      exact .succeed hi hy (hiff.2 (hsections info₀ hmain))

end Loads

end K2hFtInfo

/-! ## Two configurations -/

/-- Files can be made under absolute paths. -/
def absoluteEnv : LoadEnv :=
  { plainEnv with
    makeFileByAbsPath := fun _ path _ => if path.head? = some SLASH then some path else none }

/-- A rule for files that denies `debug`. -/
def fileConf : ClientConf :=
  { main := [(ascii "BINTRANS", ascii "no")]
    groups :=
      [{ is_dir := false
         rules :=
          [[.setting (ascii "TARGET") (ascii "log/a"),
            .setting (ascii "OUTPUTFILE") (ascii "/var/log/a"),
            .setting (ascii "DEFAULTALL") (ascii "ALLOW"), .acl false (.plain (ascii "debug"))]] }] }

/-- A rule for a directory. -/
def dirConf : ClientConf :=
  { main := []
    groups := [{ is_dir := true, rules := [[.setting (ascii "TARGET") (ascii "log")]] }] }

namespace K2hFtInfo

theorem realPaths_absoluteEnv : RealPaths absoluteEnv := by
  intro key path mode abspath h
  simp only [absoluteEnv, Option.ite_none_right_eq_some, Option.some.injEq] at h ⊢
  rcases h with ⟨hhead, rfl⟩
  exact ⟨hhead, fun abspath' h' => h'.2.symm⟩

theorem fileConf_wellFormed : fileConf.WellFormed := by
  refine ⟨by decide, ?_⟩
  intro sec hsec key value hmem
  obtain rfl := List.mem_singleton.1 hsec
  simp only [List.mem_cons, RuleEntry.setting.injEq, reduceCtorEq, List.not_mem_nil, or_false] at hmem
  rcases hmem with ⟨rfl, rfl⟩ | ⟨rfl, rfl⟩ | ⟨rfl, rfl⟩ <;> decide

theorem fileConf_readsBack : fileConf.ReadsBack plainLib := by
  refine ⟨fun _ => rfl, ?_, ?_, ?_⟩
  · intro p hp
    obtain rfl := List.mem_singleton.1 hp
    exact ⟨by decide, by decide +kernel⟩
  · intro sec hsec key value hmem
    obtain rfl := List.mem_singleton.1 hsec
    simp only [List.mem_cons, RuleEntry.setting.injEq, reduceCtorEq, List.not_mem_nil, or_false] at hmem
    rcases hmem with ⟨rfl, rfl⟩ | ⟨rfl, rfl⟩ | ⟨rfl, rfl⟩ <;> exact ⟨by decide, by decide +kernel⟩
  · intro sec hsec entry hentry v hv
    obtain rfl := List.mem_singleton.1 hsec
    simp only [List.mem_cons, List.not_mem_nil, or_false] at hentry
    rcases hentry with rfl | rfl | rfl | rfl
    · cases hv
    · cases hv
    · cases hv
    · obtain rfl := List.mem_singleton.1 hv
      exact ⟨by decide, by decide +kernel⟩

/-- The object after the main settings of `fileConf`. -/
def fileMain : K2hFtInfo := ((start none).loadMain plainLib absoluteEnv fileConf.main).2

theorem fileConf_loadMain :
    (start none).loadMain plainLib absoluteEnv fileConf.main = (true, fileMain) :=
  Prod.ext (by decide +kernel) rfl

theorem fileConf_sameSections :
    SameSections plainLib plainArgs absoluteEnv fileConf fileMain := by
  have hrefused : ¬ Refused plainArgs absoluteEnv
      (yamlEnds plainLib plainArgs absoluteEnv fileConf fileMain) := by decide +kernel
  have hkept : yamlKept plainLib plainArgs absoluteEnv fileConf fileMain = fileConf.sections := by
    decide +kernel
  refine ⟨fun href => absurd href hrefused, ?_⟩
  intro target sec hlast
  rw [hkept, hlast]
  have hmem : sec ∈ fileConf.sections := by
    unfold lastSection lastFor at hlast
    exact List.mem_reverse.1 (List.mem_of_find?_eq_some hlast)
  obtain rfl := List.mem_singleton.1 hmem
  exact ⟨rfl, rfl, .inr (by decide +kernel)⟩

/-- Both formats of `fileConf` are loaded with the same result. -/
theorem loaders_agree_iff_fileConf :
    LoadersAgree
      ((start none).load plainLib plainStack plainArgs (ascii "/etc/k2hftfuse.ini")
        (fileConf.ini absoluteEnv))
      ((start none).load plainLib plainStack plainArgs (ascii "/etc/k2hftfuse.yaml")
        (fileConf.yaml absoluteEnv)) := by
  refine (loaders_agree_iff fileConf_wellFormed fileConf_readsBack
    ⟨by decide, by decide, by decide⟩ realPaths_absoluteEnv ⟨rfl, rfl, rfl, rfl⟩ (by decide)).2
      (.inr ⟨⟨fileMain, fileConf_loadMain, by decide +kernel, by decide +kernel⟩,
        ⟨by decide, fileMain, fileConf_loadMain, by decide +kernel, .inr (by decide +kernel)⟩, ?_⟩)
  intro info₀ hmain
  obtain rfl := (Prod.mk.inj (hmain.symm.trans fileConf_loadMain)).2
  exact fileConf_sameSections

/-- The rule of `dirConf` is one for a directory in the INI file and one for a file in YAML. -/
theorem dirConf_loaded_differently :
    ¬ LoadersAgree
      ((start none).load plainLib plainStack plainArgs (ascii "/etc/k2hftfuse.ini")
        (dirConf.ini absoluteEnv))
      ((start none).load plainLib plainStack plainArgs (ascii "/etc/k2hftfuse.yaml")
        (dirConf.yaml absoluteEnv)) := by
  have hini : ∃ i, (start none).load plainLib plainStack plainArgs (ascii "/etc/k2hftfuse.ini")
      (dirConf.ini absoluteEnv) = .ok (true, i) ∧
        (i.RuleMap.find? (ascii "log")).map (·.Mode) = some (S_IFDIR ||| 0o755) :=
    exists_of_toOption (by decide +kernel)
  have hyaml : ∃ y, (start none).load plainLib plainStack plainArgs (ascii "/etc/k2hftfuse.yaml")
      (dirConf.yaml absoluteEnv) = .ok (true, y) ∧
        (y.RuleMap.find? (ascii "log")).map (·.Mode) = some (S_IFREG ||| 0o644) :=
    exists_of_toOption (by decide +kernel)
  rcases hini with ⟨i, hi, himode⟩
  rcases hyaml with ⟨y, hy, hymode⟩
  intro hagree
  cases hagree with
  | fail hfail _ => exact hfail i hi
  | succeed hi' hy' hsame =>
      obtain rfl := (Prod.mk.inj (Except.ok.inj (hi.symm.trans hi'))).2
      obtain rfl := (Prod.mk.inj (Except.ok.inj (hy.symm.trans hy'))).2
      have hmode := congrArg (Option.map RuleView.Mode) (hsame.rules (ascii "log"))
      rw [Option.map_map, Option.map_map] at hmode
      have hne : (some (S_IFDIR ||| 0o755) : Option UInt32) = some (S_IFREG ||| 0o644) :=
        himode.symm.trans (hmode.trans hymode)
      exact absurd hne (by decide)

end K2hFtInfo

end K2hFtFuse
