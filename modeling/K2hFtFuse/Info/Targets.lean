import K2hFtFuse.Info.RuleEvents

/-!
# Info.Targets — the targets that a configuration names

A load that returns true has loaded everything when the outputs of all rules were prepared and the keys
of `RuleMap` are the values of `TARGET` in the configuration.

This file defines:
* `iniTargetValues`: the values of the `TARGET` lines of a section,
* `ConfWalk`: where the events of a stream lead, as the events alone tell it, with the values of
  `TARGET` in the mapping that is open,
* `ConfSource.targetValues`: these values for every rule section of a configuration,
* `OwnTargets`: every value is what some section leaves, and every section leaves a value.

A section leaves the last value, and the empty target without one (`targets_eq_lastTarget`). So
everything is loaded exactly if no outputs are refused and the sections have targets of their own
(`load_loadedAll_iff`).
-/

namespace K2hFtFuse

open ByteSeq SpinLock Outcome

/-- What a section with these values of `TARGET` leaves. -/
def lastTarget (values : List Bytes) : Bytes := values.getLastD []

/-! ## INI files -/

/-- The values of the `TARGET` lines of a section. -/
def iniTargetValues (lib : ConfLib) (body : List IniLine) : List Bytes :=
  (body.filter fun line => (parseIniLine lib line.text).1 == ascii "TARGET").map fun line =>
    (parseIniLine lib line.text).2

theorem loadRuleKey_TargetPath (lib : ConfLib) (env : LoadEnv) (is : Bytes → Bool) (value : Bytes)
    (pTmpRule : K2hFtRule) :
    (loadRuleKey lib env is value pTmpRule).1.TargetPath =
      if is (ascii "TARGET") then value else pTmpRule.TargetPath := by
  unfold loadRuleKey
  split
  · rfl
  · -- the other keys write to other members
    repeat' first | rfl | split

theorem loadIniRuleLine_TargetPath (lib : ConfLib) (sec : IniRule) (line : IniLine) :
    (loadIniRuleLine lib sec line).pTmpRule.TargetPath =
      if (parseIniLine lib line.text).1 = ascii "TARGET" then (parseIniLine lib line.text).2
      else sec.pTmpRule.TargetPath := by
  unfold loadIniRuleLine
  rcases parseIniLine lib line.text with ⟨key, value⟩
  dsimp only
  split
  · rename_i hacl
    -- `ALLOW` and `DENY` are no targets
    have hother : key ≠ ascii "TARGET" := by
      rintro rfl
      exact absurd hacl (by decide)
    rw [if_neg hother]
    split
    · rfl
    · rfl
  · rw [loadRuleKey_TargetPath]
    by_cases hkey : key = ascii "TARGET"
    · rw [if_pos hkey, if_pos (by simp [hkey])]
    · rw [if_neg hkey, if_neg (by simpa using fun heq => hkey heq.symm)]

theorem loadIniRuleLines_TargetPath (lib : ConfLib) (body : List IniLine) :
    (loadIniRuleLines lib body).pTmpRule.TargetPath = lastTarget (iniTargetValues lib body) := by
  have hfold : ∀ sec : IniRule, (body.foldl (loadIniRuleLine lib) sec).pTmpRule.TargetPath =
      (iniTargetValues lib body).getLastD sec.pTmpRule.TargetPath := by
    induction body with
    | nil =>
        exact fun sec => rfl
    | cons line body ih =>
        intro sec
        rw [List.foldl_cons, ih, loadIniRuleLine_TargetPath]
        unfold iniTargetValues
        by_cases hkey : (parseIniLine lib line.text).1 = ascii "TARGET"
        · rw [if_pos hkey, List.filter_cons_of_pos (by simp [hkey]), List.map_cons,
            List.getLastD_cons]
        · rw [if_neg hkey, List.filter_cons_of_neg (by simp [hkey])]
  exact hfold IniRule.fresh

/-! ## Streams of events -/

/-- The values of `TARGET` in the mapping of a rule, with one event more. -/
def RuleWalk.values (values : List Bytes) : RuleWalk → YamlEvent → List Bytes
  | .rule false _, .mappingStart => []
  | .rule true key, .scalar value =>
      if strcasecmp (ascii "TARGET") key then values ++ [value] else values
  | _, _ => values

/-- Where the events have led: outside of the `K2HFTFUSE` mapping, before it, in it with the pending
key, and in a sequence of rules with the values of `TARGET` so far. -/
inductive ConfWalk
  | top
  | mainStart
  | main (key : Bytes)
  | rule (w : RuleWalk) (values : List Bytes)
  deriving DecidableEq

namespace ConfWalk

/-- Where an event leads; `none` at the end. -/
def next (stack : YamlDataStack) (toplevel : YamlTop) :
    ConfWalk → YamlEvent → Option (YamlTop × ConfWalk)
  | .top, event =>
      match K2hFtInfo.yamlTopStep stack toplevel event with
      | .continue toplevel .mainStart => some (toplevel, .mainStart)
      | .continue toplevel _ => some (toplevel, .top)
      | .done _ => none
  | .mainStart, event => if event = .mappingStart then some (toplevel, .main []) else none
  | .main _, .mappingEnd => some (toplevel, .top)
  | .main key, .scalar value =>
      if key = [] then
        if strcasecmp (ascii "K2HFTFUSE_RULE_DIR") value ∨
            strcasecmp (ascii "K2HFTFUSE_RULE") value then
          some (toplevel, .rule .start [])
        else
          some (toplevel, .main value)
      else
        some (toplevel, .main [])
  | .main _, _ => none
  | .rule (.rule false _) _, .sequenceEnd => some (toplevel, .main [])
  | .rule w values, event => (w.next event).map fun w' =>
      (toplevel, .rule w' (w.values values event))

/-- The values of the rule whose mapping ends. -/
def closes : ConfWalk → YamlEvent → Option (List Bytes)
  | .rule (.rule true _) values, .mappingEnd => some values
  | _, _ => none

/-- The values of `TARGET` in the mappings of all rules that end. -/
def sections (stack : YamlDataStack) : List YamlEvent → YamlTop → ConfWalk → List (List Bytes)
  | [], _, _ => []
  | event :: rest, toplevel, walk =>
      (walk.closes event).toList ++
        match walk.next stack toplevel event with
        | some (toplevel, walk) => sections stack rest toplevel walk
        | none => []

end ConfWalk

/-- The values of `TARGET` in every rule section of a configuration. -/
def ConfSource.targetValues (lib : ConfLib) (stack : YamlDataStack) : ConfSource → List (List Bytes)
  | .ini (some lines) _ =>
      ((iniSections lines).filter K2hFtInfo.isRuleSection).map fun sec =>
        iniTargetValues lib sec.body
  | .yaml (some events) _ =>
      ConfWalk.sections stack (events.map (·.event)) YamlTop.fresh .top
  | _ => []

/-! ## The walk and the loader -/

/-- The current rule of a rule section. -/
def YamlPhase.rule? : YamlPhase → Option K2hFtRule
  | .rule sec => sec.pTmpRule
  | .acl _ sec _ => sec.pTmpRule
  | _ => none

/-- The loader stands where the walk does, and its current rule has the last value as its target. -/
def ConfWalk.Follows : ConfWalk → YamlPhase → Prop
  | .top, phase => phase = .top
  | .mainStart, phase => phase = .mainStart
  | .main key, phase => phase = .main key
  | .rule w values, phase =>
      phase.Tidy ∧ phase.walk = w ∧
        ∀ rule, phase.rule? = some rule → rule.TargetPath = lastTarget values

/-- The target of the section that an event ends. -/
def YamlAt.target (args : LoadArgs) (p : YamlAt) : Option Bytes :=
  (p.ruleSection args).map fun sec => sec.2.TargetPath

/-- What an event does to the walk, by what it does to the loader. -/
def ConfWalk.Leads (stack : YamlDataStack) (args : LoadArgs) (top : YamlTop) (walk : ConfWalk)
    (p : YamlAt) : YamlNext → Prop
  | .continue top' phase' =>
      p.target args = (walk.closes p.read.event).map lastTarget ∧
        ∃ walk', walk.next stack top p.read.event = some (top', walk') ∧ walk'.Follows phase'
  | .done true =>
      p.target args = none ∧ walk.closes p.read.event = none ∧
        walk.next stack top p.read.event = none
  | .done false => True

namespace K2hFtInfo

section Leads

variable {lib : ConfLib} {stack : YamlDataStack} {args : LoadArgs} {env : LoadEnv} {top : YamlTop}
  {event : YamlEvent} {info info' : K2hFtInfo} {next : YamlNext}

theorem failYamlMain_leads {walk : ConfWalk} {p : YamlAt} {n : Nat}
    (h : info.failYamlMain env n = .ok (next, info')) : walk.Leads stack args top p next := by
  rcases bind_eq_ok.1 h with ⟨info₁, -, hresult⟩
  cases hresult
  trivial

theorem failYamlRule_leads {walk : ConfWalk} {p : YamlAt}
    (h : info.failYamlRule env = .ok (next, info')) : walk.Leads stack args top p next := by
  rcases bind_eq_ok.1 h with ⟨info₁, -, hmain⟩
  exact failYamlMain_leads hmain

/-- Outside of the `K2HFTFUSE` mapping the loader stays there, comes before the mapping or ends. -/
theorem yamlTopStep_cases (stack : YamlDataStack) (top : YamlTop) (event : YamlEvent) :
    (∃ result, yamlTopStep stack top event = .done result) ∨
      (∃ top', yamlTopStep stack top event = .continue top' .top) ∨
        ∃ top', yamlTopStep stack top event = .continue top' .mainStart := by
  have hskip : (∃ result, yamlSkip stack top event = .done result) ∨
      ∃ top', yamlSkip stack top event = .continue top' .top := by
    unfold yamlSkip
    split
    · split
      · exact .inl ⟨_, rfl⟩
      · exact .inr ⟨_, rfl⟩
    · exact .inl ⟨_, rfl⟩
  have hskip' : (∃ result, yamlSkip stack top event = .done result) ∨
      (∃ top', yamlSkip stack top event = .continue top' .top) ∨
        ∃ top', yamlSkip stack top event = .continue top' .mainStart :=
    hskip.imp_right Or.inl
  unfold yamlTopStep
  cases event with
  | noEvent | aliasNode => exact .inr (.inl ⟨_, rfl⟩)
  | sequenceStart | sequenceEnd => exact hskip'
  | streamEnd =>
      dsimp only
      split
      · exact hskip'
      · exact .inl ⟨_, rfl⟩
  | scalar value =>
      dsimp only
      split
      · exact hskip'
      · split
        · exact .inr (.inr ⟨_, rfl⟩)
        · exact hskip'
  | streamStart | documentStart | documentEnd | mappingStart | mappingEnd =>
      dsimp only
      split
      · exact hskip'
      · exact .inr (.inl ⟨_, rfl⟩)

theorem yamlTopStep_leads :
    ConfWalk.top.Leads stack args top ⟨⟨event, env⟩, .top, info⟩ (yamlTopStep stack top event) := by
  rcases yamlTopStep_cases stack top event with ⟨result, hstep⟩ | ⟨top', hstep⟩ | ⟨top', hstep⟩
  · rw [hstep]
    cases result with
    | false => trivial
    | true => exact ⟨rfl, rfl, by simp [ConfWalk.next, hstep]⟩
  · rw [hstep]
    exact ⟨rfl, .top, by simp [ConfWalk.next, hstep], rfl⟩
  · rw [hstep]
    exact ⟨rfl, .mainStart, by simp [ConfWalk.next, hstep], rfl⟩

theorem yamlMainStep_leads {key : Bytes}
    (h : yamlMainStep lib env top key event info = .ok (next, info')) :
    (ConfWalk.main key).Leads stack args top ⟨⟨event, env⟩, .main key, info⟩ next := by
  unfold yamlMainStep at h
  split at h
  · split at h
    · cases h
      exact ⟨rfl, .top, rfl, rfl⟩
    · exact failYamlMain_leads h
  · rename_i value
    split at h
    · rename_i hkey
      split at h
      · rename_i hrules
        cases h
        refine ⟨rfl, .rule .start [], ?_, trivial, rfl, ?_⟩
        · simp only [ConfWalk.next, if_pos hkey, if_pos hrules]
        · intro rule hrule
          cases hrule
      · rename_i hother
        cases h
        exact ⟨rfl, .main value, by simp only [ConfWalk.next, if_pos hkey, if_neg hother], rfl⟩
    · rename_i hkey
      split at h
      · cases h
        exact ⟨rfl, .main [], by simp only [ConfWalk.next, if_neg hkey], rfl⟩
      · exact failYamlMain_leads h
  · exact failYamlMain_leads h

theorem yamlRuleScalar_leads {sec : YamlRule} {value : Bytes} {values : List Bytes}
    (htidy : sec.pTmpRule.isSome = sec.in_mapping)
    (htarget : ∀ rule, sec.pTmpRule = some rule → rule.TargetPath = lastTarget values)
    (h : yamlRuleScalar lib env top sec value info = .ok (next, info')) :
    (ConfWalk.rule (.rule sec.in_mapping sec.key) values).Leads stack args top
      ⟨⟨.scalar value, env⟩, .rule sec, info⟩ next := by
  have hcloses : (ConfWalk.rule (.rule sec.in_mapping sec.key) values).closes (.scalar value) =
      none := by
    cases sec.in_mapping <;> rfl
  have hnext : (ConfWalk.rule (.rule sec.in_mapping sec.key) values).next stack top
      (.scalar value) =
        ((RuleWalk.rule sec.in_mapping sec.key).next (.scalar value)).map fun w' =>
          (top, .rule w' ((RuleWalk.rule sec.in_mapping sec.key).values values (.scalar value))) := by
    cases sec.in_mapping <;> rfl
  unfold yamlRuleScalar at h
  split at h
  · rename_i hkey
    -- no name is the empty key, so nothing is a target yet
    have hvalues : (RuleWalk.rule sec.in_mapping sec.key).values values (.scalar value) =
        values := by
      rw [hkey]
      cases sec.in_mapping <;> rfl
    split at h
    · rename_i hacl
      cases h
      refine ⟨by rw [hcloses]; rfl, .rule (.part sec.in_mapping false) values, ?_,
        ⟨htidy, hkey⟩, rfl, htarget⟩
      rw [hnext, hvalues]
      cases sec.in_mapping <;> simp [RuleWalk.next, hkey, hacl]
    · rename_i hacl
      cases h
      refine ⟨by rw [hcloses]; rfl, .rule (.rule sec.in_mapping value) values, ?_, htidy, rfl,
        htarget⟩
      rw [hnext, hvalues]
      cases sec.in_mapping <;> simp [RuleWalk.next, hkey, hacl]
  · rename_i hkey
    have hwalk : (RuleWalk.rule sec.in_mapping sec.key).next (.scalar value) =
        some (.rule sec.in_mapping []) := by
      cases sec.in_mapping <;> simp [RuleWalk.next, hkey]
    rw [hwalk] at hnext
    split at h
    · rename_i hrule
      split at h
      · cases h
      · cases h
        refine ⟨by rw [hcloses]; rfl, _, hnext, htidy, rfl, ?_⟩
        intro rule hrule'
        rw [YamlPhase.rule?, hrule] at hrule'
        cases hrule'
    · rename_i pTmpRule hrule
      have hkept := loadRuleKey_TargetPath lib env (fun name => strcasecmp name sec.key) value
        pTmpRule
      generalize loadRuleKey lib env (fun name => strcasecmp name sec.key) value pTmpRule = loaded
        at h hkept
      rcases loaded with ⟨rule', said⟩
      cases h
      refine ⟨by rw [hcloses]; rfl, _, hnext, ?_, rfl, ?_⟩
      · rw [hrule] at htidy
        exact htidy
      · -- the current rule is there, so the mapping is open
        have hopen : sec.in_mapping = true := by
          rw [← htidy, hrule]
          rfl
        intro rule hrule'
        rw [← Option.some.inj hrule', hkept, htarget pTmpRule hrule, hopen, RuleWalk.values]
        split
        · simp [lastTarget]
        · rfl

theorem yamlRuleStep_leads {sec : YamlRule} {values : List Bytes}
    (htidy : sec.pTmpRule.isSome = sec.in_mapping)
    (htarget : ∀ rule, sec.pTmpRule = some rule → rule.TargetPath = lastTarget values)
    (h : yamlRuleStep lib args env top sec event info = .ok (next, info')) :
    (ConfWalk.rule (.rule sec.in_mapping sec.key) values).Leads stack args top
      ⟨⟨event, env⟩, .rule sec, info⟩ next := by
  unfold yamlRuleStep at h
  split at h
  · -- a mapping begins
    split at h
    · exact failYamlRule_leads h
    · rename_i hopen
      cases h
      have hclosed : sec.in_mapping = false := by simpa using hopen
      rw [hclosed]
      refine ⟨rfl, .rule (.rule true sec.key) [], rfl, rfl, rfl, ?_⟩
      rintro rule ⟨⟩
      rfl
  · -- a mapping ends
    split at h
    · exact failYamlRule_leads h
    · rename_i hopen
      have hopen' : sec.in_mapping = true := by simpa using hopen
      split at h
      · cases h
      · rename_i pTmpRule hrule
        cases h
        rw [hopen']
        refine ⟨?_, .rule (.rule false sec.key) values, rfl, rfl, rfl, ?_⟩
        · simp only [YamlAt.target, YamlAt.ruleSection, hopen', if_true, hrule, Option.map_some,
            ConfWalk.closes, Option.some.injEq]
          exact htarget pTmpRule hrule
        · intro rule hnone
          cases hnone
  · -- the sequence ends
    split at h
    · exact failYamlRule_leads h
    · rename_i hopen
      have hclosed : sec.in_mapping = false := by simpa using hopen
      rw [hclosed]
      rcases bind_eq_ok.1 h with ⟨⟨result, info₁⟩, -, hnext⟩
      have hmain : ∃ info₂, (next, info') = (.continue top (.main []), info₂) := by
        cases result with
        | false =>
            rcases bind_eq_ok.1 hnext with ⟨info₂, -, hresult⟩
            exact ⟨info₂, (Except.ok.inj hresult).symm⟩
        | true =>
            rcases bind_eq_ok.1 hnext with ⟨info₂, -, hresult⟩
            exact ⟨info₂, (Except.ok.inj hresult).symm⟩
      rcases hmain with ⟨info₂, heq⟩
      cases heq
      exact ⟨rfl, .main [], rfl, rfl⟩
  · exact yamlRuleScalar_leads htidy htarget h
  · exact failYamlRule_leads h

theorem yamlAclStep_leads {is_key_allow : Bool} {sec : YamlRule} {phase : YamlAclPhase}
    {values : List Bytes} (htidy : (YamlPhase.acl is_key_allow sec phase).Tidy)
    (htarget : ∀ rule, sec.pTmpRule = some rule → rule.TargetPath = lastTarget values)
    (h : yamlAclStep env top is_key_allow sec phase event info = .ok (next, info')) :
    (ConfWalk.rule (YamlPhase.acl is_key_allow sec phase).walk values).Leads stack args top
      ⟨⟨event, env⟩, .acl is_key_allow sec phase, info⟩ next := by
  have hcloses : (ConfWalk.rule (YamlPhase.acl is_key_allow sec phase).walk values).closes event =
      none := by
    cases phase <;> rfl
  have hnext : (ConfWalk.rule (YamlPhase.acl is_key_allow sec phase).walk values).next stack top
      event = ((YamlPhase.acl is_key_allow sec phase).walk.next event).map fun w' =>
        (top, .rule w' values) := by
    cases phase <;> rfl
  -- wherever a filter leads, the current rule stays
  have hgoes : ∀ phase' : YamlPhase, phase'.Tidy → phase'.rule? = sec.pTmpRule →
      (YamlPhase.acl is_key_allow sec phase).walk.next event = some phase'.walk →
      (ConfWalk.rule (YamlPhase.acl is_key_allow sec phase).walk values).Leads stack args top
        ⟨⟨event, env⟩, .acl is_key_allow sec phase, info⟩ (.continue top phase') := by
    intro phase' htidy' hrule hwalk
    refine ⟨by rw [hcloses]; rfl, .rule phase'.walk values, by rw [hnext, hwalk]; rfl, htidy', rfl,
      ?_⟩
    rw [hrule]
    exact htarget
  have hpush : ∀ ptn, (pushMatch is_key_allow sec ptn).pTmpRule.isSome =
      (pushMatch is_key_allow sec ptn).in_mapping ∧ (pushMatch is_key_allow sec ptn).key = [] := by
    intro ptn
    rcases pushMatch_walk is_key_allow sec ptn with ⟨hmapping, hkey, hrule⟩
    rw [hmapping, hkey, hrule]
    exact htidy
  unfold yamlAclStep at h
  split at h
  case h_1 =>
    cases h
    refine hgoes _ (hpush _).1 (pushMatch_walk _ _ _).2.2 ?_
    rw [YamlPhase.walk, (hpush _).2, (pushMatch_walk _ _ _).1]
    rfl
  case h_2 | h_7 =>
    cases h
    refine hgoes _ (hpush _) (pushMatch_walk _ _ _).2.2 ?_
    simp only [YamlPhase.walk, pushMatch_walk]
    rfl
  case h_5 =>
    cases h
    refine hgoes _ htidy.1 rfl ?_
    rw [YamlPhase.walk, htidy.2]
    rfl
  case h_3 | h_4 | h_6 | h_8 =>
    cases h
    exact hgoes _ htidy rfl rfl
  case h_9 =>
    exact failYamlRule_leads h

/-- One event, wherever the loader stands. -/
theorem yamlStep_leads {phase : YamlPhase} {walk : ConfWalk} (hfollows : walk.Follows phase)
    (h : yamlStep lib stack args env top phase event info = .ok (next, info')) :
    walk.Leads stack args top ⟨⟨event, env⟩, phase, info⟩ next := by
  cases walk with
  | top =>
      obtain rfl : phase = .top := hfollows
      cases h
      exact yamlTopStep_leads
  | mainStart =>
      obtain rfl : phase = .mainStart := hfollows
      simp only [yamlStep] at h
      split at h
      · rename_i hstart
        cases h
        exact ⟨rfl, .main [], by simp [ConfWalk.next, hstart], rfl⟩
      · cases h
        trivial
  | main key =>
      obtain rfl : phase = .main key := hfollows
      exact yamlMainStep_leads h
  | rule w values =>
      rcases hfollows with ⟨htidy, rfl, htarget⟩
      cases phase with
      | top | mainStart | main =>
          exact htidy.elim
      | ruleStart =>
          simp only [yamlStep] at h
          split at h
          · rename_i hstart
            cases h
            refine ⟨rfl, .rule (.rule false []) values, by simp [hstart]; rfl, rfl, rfl, ?_⟩
            intro rule hrule
            cases hrule
          · exact failYamlMain_leads h
      | rule sec =>
          exact yamlRuleStep_leads htidy htarget h
      | acl is_key_allow sec aclPhase =>
          exact yamlAclStep_leads htidy htarget h

/-- The sections that the walk sees are those that the loader finishes, and their last values are
their targets. -/
theorem yamlTrace_targets {events : List YamlRead} {phase : YamlPhase} {walk : ConfWalk}
    (hfollows : walk.Follows phase)
    (h : loadYamlEvents lib stack args env events top phase info = .ok (true, info')) :
    (yamlTrace lib stack args events top phase info).filterMap (YamlAt.target args) =
      (walk.sections stack (events.map (·.event)) top).map lastTarget := by
  induction events generalizing top phase info walk with
  | nil =>
      rfl
  | cons read rest ih =>
      simp only [loadYamlEvents] at h
      split at h
      · cases h
      · -- the last event that is read
        rename_i result info₁ hstep
        cases h
        rcases yamlStep_leads hfollows hstep with ⟨htarget, hcloses, hnext⟩
        simp only [yamlTrace, hstep, List.map_cons, ConfWalk.sections, hnext, hcloses,
          List.filterMap_cons, htarget]
        rfl
      · rename_i top' phase' info₁ hstep
        rcases yamlStep_leads hfollows hstep with ⟨htarget, walk', hnext, hfollows'⟩
        simp only [yamlTrace, hstep, List.map_cons, ConfWalk.sections, hnext, List.map_append,
          ← ih hfollows' h, List.filterMap_cons, htarget]
        cases walk.closes read.event with
        | none => rfl
        | some values => rfl

end Leads

/-! ## The targets of a load -/

/-- The rule sections of a configuration leave their last values as their targets. -/
theorem targets_eq_lastTarget {lib : ConfLib} {stack : YamlDataStack} {args : LoadArgs}
    {config : Bytes} {source : ConfSource} {info info' : K2hFtInfo}
    (h : info.load lib stack args config source = .ok (true, info')) :
    source.targets lib stack args info = (source.targetValues lib stack).map lastTarget := by
  cases source with
  | unknown =>
      cases h
  | ini lines env =>
      cases lines with
      | none =>
          rfl
      | some lines =>
          simp only [ConfSource.targets, ConfSource.targetValues, iniRules, List.map_map]
          exact List.map_congr_left fun sec _ => loadIniRuleLines_TargetPath lib sec.body
  | yaml events env =>
      cases events with
      | none =>
          rfl
      | some events =>
          rcases bind_eq_ok.1 h with ⟨⟨result, info₁⟩, hevents, hresult⟩
          cases result with
          | false =>
              cases hresult
          | true =>
              have hfollows : ConfWalk.top.Follows .top := rfl
              exact yamlTrace_targets hfollows hevents

/-- A section without a target, and one with two. -/
def otherTargets : ConfSource :=
  iniOf ["[K2HFTFUSE]", "[K2HFTFUSE_RULE]", "TRUNS = yes", "[K2HFTFUSE_RULE]", "TARGET = log/a",
    "TARGET = log/b"]

example : otherTargets.targetValues plainLib plainStack = [[], [ascii "log/a", ascii "log/b"]] ∧
    otherTargets.targets plainLib plainStack plainArgs (start none) = [[], ascii "log/b"] := by
  decide +kernel

end K2hFtInfo

/-- Every value of `TARGET` is what some section leaves, and a section without one leaves a value of
another section. -/
structure OwnTargets (sections : List (List Bytes)) : Prop where
  kept : ∀ target ∈ sections.flatten, ∃ values ∈ sections, lastTarget values = target
  named : [] ∈ sections → [] ∈ sections.flatten

theorem lastTarget_mem {values : List Bytes} (h : values ≠ []) : lastTarget values ∈ values := by
  rw [lastTarget, List.getLastD_eq_getLast?, List.getLast?_eq_getLast_of_ne_nil h]
  exact List.getLast_mem h

/-- The sections leave the values that they name. -/
theorem ownTargets_iff {sections : List (List Bytes)} :
    OwnTargets sections ↔
      ∀ target, target ∈ sections.map lastTarget ↔ target ∈ sections.flatten := by
  constructor
  · intro h target
    constructor
    · intro hmem
      rcases List.mem_map.1 hmem with ⟨values, hvalues, rfl⟩
      by_cases hnil : values = []
      · rw [hnil] at hvalues ⊢
        exact h.named hvalues
      · exact List.mem_flatten.2 ⟨values, hvalues, lastTarget_mem hnil⟩
    · intro hmem
      rcases h.kept target hmem with ⟨values, hvalues, hlast⟩
      exact List.mem_map.2 ⟨values, hvalues, hlast⟩
  · intro h
    refine ⟨?_, ?_⟩
    · intro target hmem
      rcases List.mem_map.1 ((h target).2 hmem) with ⟨values, hvalues, hlast⟩
      exact ⟨values, hvalues, hlast⟩
    · intro hnil
      exact (h []).1 (List.mem_map.2 ⟨[], hnil, rfl⟩)

/-- One value in every section. -/
theorem OwnTargets.of_one {sections : List (List Bytes)}
    (h : ∀ values ∈ sections, ∃ target, values = [target]) : OwnTargets sections := by
  refine ⟨?_, ?_⟩
  · intro target hmem
    rcases List.mem_flatten.1 hmem with ⟨values, hvalues, htarget⟩
    rcases h values hvalues with ⟨target', rfl⟩
    exact ⟨[target'], hvalues, (List.mem_singleton.1 htarget).symm⟩
  · intro hnil
    rcases h [] hnil with ⟨target, hone⟩
    cases hone

namespace K2hFtInfo

/-- The outputs of every rule were prepared and none refused, and there are rules for the values of
`TARGET` in the rule sections of the configuration. -/
structure LoadedAll (lib : ConfLib) (stack : YamlDataStack) (source : ConfSource)
    (info' : K2hFtInfo) : Prop where
  prepared : ∀ pre acl rule post, info'.acts = pre ++ .register acl rule :: post →
    .output true ∈ post
  noneRefused : .output false ∉ info'.acts
  targets : ∀ target, (∃ rule, info'.RuleMap.find? target = some rule) ↔
    target ∈ (source.targetValues lib stack).flatten

/-- A load that returns true has loaded everything exactly when, in a YAML stream,
`InitializeOutputFiles` accepts the rules at the end of every rule sequence, and the rule sections
have targets of their own. -/
theorem load_loadedAll_iff {lib : ConfLib} {stack : YamlDataStack} {args : LoadArgs} {config : Bytes}
    {source : ConfSource} {info info' : K2hFtInfo} (hfresh : Unloaded info)
    (h : info.load lib stack args config source = .ok (true, info')) :
    LoadedAll lib stack source info' ↔
      OutputsAccepted args (source.trace lib stack args info) ∧
        OwnTargets (source.targetValues lib stack) := by
  rw [← load_outputsAccepted_iff hfresh h, ownTargets_iff]
  constructor
  · intro hall
    have hregistered := load_registeredAll hfresh h hall.noneRefused
    refine ⟨hall.noneRefused, ?_⟩
    intro target
    rw [← targets_eq_lastTarget h, ← hregistered.targets target]
    exact hall.targets target
  · rintro ⟨hnone, hown⟩
    have hregistered := load_registeredAll hfresh h hnone
    refine ⟨hregistered.prepared, hnone, ?_⟩
    intro target
    rw [hregistered.targets target, targets_eq_lastTarget h]
    exact hown target

theorem load_loadedAll_iff_denyIni : ∃ info',
    (start none).load plainLib plainStack plainArgs (ascii "/etc/k2hftfuse.ini") denyIni =
      .ok (true, info') ∧ LoadedAll plainLib plainStack denyIni info' := by
  rcases load_denyIni with ⟨info', hload, -⟩
  refine ⟨info', hload, (load_loadedAll_iff ⟨rfl, rfl⟩ hload).2 ⟨?_, ?_⟩⟩
  · intro p hp
    cases hp
  · have htargets : denyIni.targetValues plainLib plainStack = [[ascii "log/a"]] := by
      decide +kernel
    rw [htargets]
    exact .of_one fun values hvalues => ⟨ascii "log/a", List.mem_singleton.1 hvalues⟩

/-- No directory can be made. -/
def noDirEnv : LoadEnv :=
  { plainEnv with mkdirByAbsPath := fun _ _ => none }

/-- A rule whose output directory cannot be made. -/
def refusedOutput : ConfSource :=
  yamlOf noDirEnv (yamlRules ["TARGET", "log/a", "OUTPUTFILE", "/var/log/a"])

/-- The load returns true, and there is no rule. -/
theorem refusedOutput_reports_success : ∃ info',
    (start none).load plainLib plainStack plainArgs (ascii "/etc/k2hftfuse.yaml") refusedOutput =
      .ok (true, info') ∧ info'.RuleMap = ∅ ∧
        ¬ LoadedAll plainLib plainStack refusedOutput info' := by
  have hrun : ∃ info', (start none).load plainLib plainStack plainArgs (ascii "/etc/k2hftfuse.yaml")
      refusedOutput = .ok (true, info') ∧
        (info'.RuleMap, decide (.output false ∈ info'.acts)) = (∅, true) :=
    exists_of_toOption (by decide +kernel)
  rcases hrun with ⟨info', hload, hresult⟩
  obtain ⟨hmap, hrefused⟩ := Prod.mk.inj hresult
  refine ⟨info', hload, hmap, ?_⟩
  intro hall
  exact hall.noneRefused (of_decide_eq_true hrefused)

end K2hFtInfo

end K2hFtFuse
