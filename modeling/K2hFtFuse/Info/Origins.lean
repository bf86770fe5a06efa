import K2hFtFuse.Info.Loaded
import K2hFtFuse.Info.Outputs

/-!
# Info.Origins — the sections that the rules of a load come from

A rule that is in `RuleMap` after a load was put there at the end of a section, and later operations
changed it. `LoadInvariant` collects what a property of the object needs in order to hold after every
load. With it a relation between rules that the later operations keep is carried from the rule of a
section to the rule in the map (`load_stems`).
-/

namespace K2hFtFuse

open ByteSeq SpinLock Outcome

/-- What is met outside while a configuration is read. -/
def ConfSource.envs : ConfSource → List LoadEnv
  | .unknown => []
  | .ini lines env => (lines.getD []).map IniLine.env ++ [env]
  | .yaml events env => (events.getD []).map YamlRead.env ++ [env]

namespace K2hFtInfo

/-! ## Invariants of a load -/

/-- Every operation of a loader keeps the property. -/
structure LoadInvariant (args : LoadArgs) (envs : List LoadEnv) (Inv : K2hFtInfo → Prop) : Prop where
  settings : ∀ info info', SameRules info info' → Inv info → Inv info'
  register : ∀ info acl rule, Inv info → Inv (info.register acl rule)
  outputs : ∀ env ∈ envs, ∀ info info' result,
    info.initializeOutputFiles args env = .ok (result, info') → Inv info → Inv info'
  binary : ∀ info info', info.checkBinaryMode = .ok info' → Inv info → Inv info'
  clean : ∀ now info info', info.clean now = .ok info' → Inv info → Inv info'

section Invariant

variable {lib : ConfLib} {stack : YamlDataStack} {args : LoadArgs} {config : Bytes}
  {Inv : K2hFtInfo → Prop} {info info' : K2hFtInfo}

theorem LoadInvariant.step {envs : List LoadEnv} (hkeeps : LoadInvariant args envs Inv) {p : YamlAt}
    {top : YamlTop} {phase' : YamlPhase} (henv : p.read.env ∈ envs) (hinv : Inv p.info)
    (hdid : YamlDid args p (.continue top phase') info') : Inv info' := by
  cases hdid with
  -- the event sets members only
  | settings hacts hsame hok hrule =>
      exact hkeeps.settings p.info info' hsame hinv
  -- a section ends, and its rule is put into the map
  | register hsec hof hok hrule hrule' =>
      exact hkeeps.register p.info _ _ hinv
  -- the rules end: the outputs are made, and the binary mode is checked
  | prepared hend houtputs hbinary =>
      rename_i info₁
      have hinv₁ : Inv info₁ := hkeeps.outputs p.read.env henv p.info info₁ true houtputs hinv
      exact hkeeps.binary info₁ info' hbinary hinv₁
  -- an output is refused, and the object is cleaned
  | lost hend houtputs hclean =>
      rename_i info₁
      have hinv₁ : Inv info₁ := hkeeps.outputs p.read.env henv p.info info₁ false houtputs hinv
      exact hkeeps.clean _ info₁ info' hclean hinv₁

theorem setLoaded_sameRules (info : K2hFtInfo) (args : LoadArgs) (config : Bytes) :
    SameRules info (info.setLoaded args config) :=
  ⟨rfl, rfl, rfl, rfl⟩

theorem LoadInvariant.loadIni {lines : Option (List IniLine)} {env : LoadEnv}
    (hkeeps : LoadInvariant args (ConfSource.ini lines env).envs Inv) (hinv : Inv info)
    (h : K2hFtInfo.loadIni lib args config lines env info = .ok (true, info')) : Inv info' := by
  have henv : env ∈ (ConfSource.ini lines env).envs := by simp [ConfSource.envs]
  rcases loadIni_eq_ok_true h with ⟨read, info₁, info₂, info₃, hread, hsections, houtputs, hbinary, rfl⟩
  -- the sections, then the outputs, then the binary mode
  have hinv₁ : Inv info₁ :=
    @loadIniSections_rule lib args (fun _ info => Inv info)
      (fun _ _ info info' _ hsame _ => hkeeps.settings info info' hsame)
      (fun _ _ info _ => hkeeps.register info _ _) (iniSections read) false info info₁ hinv hsections
  have hinv₂ : Inv info₂ := hkeeps.outputs env henv info₁ info₂ true houtputs hinv₁
  have hinv₃ : Inv info₃ := hkeeps.binary info₂ info₃ hbinary hinv₂
  exact hkeeps.settings info₃ _ (setLoaded_sameRules info₃ args config) hinv₃

theorem LoadInvariant.loadYaml {events : Option (List YamlRead)} {env : LoadEnv}
    (hkeeps : LoadInvariant args (ConfSource.yaml events env).envs Inv) (hinv : Inv info)
    (h : K2hFtInfo.loadYaml lib stack args config events env info = .ok (true, info')) :
    Inv info' := by
  unfold K2hFtInfo.loadYaml at h
  split at h
  · cases h
  · rename_i events
    rcases bind_eq_ok.1 h with ⟨⟨result, info₁⟩, hevents, hresult⟩
    cases result with
    | false =>
        cases hresult
    | true =>
        cases hresult
        -- the loop rule, with the invariant beside what it asks of the phase
        rcases @loadYamlEvents_rule lib stack args (fun phase info => PhaseOk phase ∧ Inv info)
          events (fun _ _ h => h.1)
          (fun p _ _ _ hmem hp hdid => by
            have henv : p.read.env ∈ (ConfSource.yaml (some events) env).envs := by
              simp only [ConfSource.envs, Option.getD_some, List.mem_append, List.mem_map]
              exact .inl ⟨p.read, hmem, rfl⟩
            exact ⟨hdid.phaseOk, hkeeps.step henv hp.2 hdid⟩)
          env YamlTop.fresh .top info info₁ ⟨trivial, hinv⟩ hevents with ⟨phase, ⟨-, hinv₁⟩, -⟩
        exact hkeeps.settings info₁ _ (setLoaded_sameRules info₁ args config) hinv₁

/-- The rule for loads that return true. -/
theorem LoadInvariant.load {source : ConfSource} (hkeeps : LoadInvariant args source.envs Inv)
    (hinv : Inv info) (h : info.load lib stack args config source = .ok (true, info')) : Inv info' := by
  cases source with
  | unknown =>
      cases h
  | ini lines env =>
      exact hkeeps.loadIni hinv h
  | yaml events env =>
      exact hkeeps.loadYaml hinv h

end Invariant

/-! ## The rules of the sections -/

/-- What an act leaves of the rules that sections gave: cleaning takes them all away. -/
def keepAct (rules : List K2hFtRule) : LoadAct → List K2hFtRule
  | .register _ rule => rules ++ [rule]
  | .output _ => rules
  | .binary _ => rules
  | .clean => []

def keptRules (acts : List LoadAct) : List K2hFtRule := acts.foldl keepAct []

/-- The rule that was given last for the target. -/
def lastRule (rules : List K2hFtRule) (target : Bytes) : Option K2hFtRule :=
  (rules.filter fun rule => rule.TargetPath = target).getLast?

theorem lastRule_append_singleton (rules : List K2hFtRule) (rule : K2hFtRule) (target : Bytes) :
    lastRule (rules ++ [rule]) target =
      if target = rule.TargetPath then some rule else lastRule rules target := by
  by_cases htarget : target = rule.TargetPath
  · simp [lastRule, htarget]
  · simp [lastRule, htarget, Ne.symm htarget]

theorem lastRule_eq_none_iff {rules : List K2hFtRule} {target : Bytes} :
    lastRule rules target = none ↔ ∀ rule ∈ rules, rule.TargetPath ≠ target := by
  simp [lastRule]

theorem exists_lastRule_iff {rules : List K2hFtRule} {target : Bytes} :
    (∃ rule, lastRule rules target = some rule) ↔ ∃ rule ∈ rules, rule.TargetPath = target := by
  rw [← Option.isSome_iff_exists, ← Option.ne_none_iff_isSome, ne_eq, lastRule_eq_none_iff]
  simp

theorem lastRule_mem {rules : List K2hFtRule} {target : Bytes} {rule : K2hFtRule}
    (h : lastRule rules target = some rule) : rule ∈ rules ∧ rule.TargetPath = target := by
  have hmem := List.mem_of_getLast? h
  simpa using hmem

theorem keptRules_append_singleton (acts : List LoadAct) (a : LoadAct) :
    keptRules (acts ++ [a]) = keepAct (keptRules acts) a := by
  simp [keptRules]

/-! ## Where a rule stems from -/

/-- What the operations after the end of a section do to its rule keeps the relation to it. -/
structure RuleRelation (args : LoadArgs) (envs : List LoadEnv) (R : K2hFtRule → K2hFtRule → Prop) :
    Prop where
  refl : ∀ rule, R rule rule
  output : ∀ env ∈ envs, ∀ RuleMap key rule pRule OutputPath,
    initOutput args env RuleMap key pRule = .ok (some OutputPath) → R rule pRule →
      R rule { pRule with OutputPath := OutputPath }
  clear : ∀ rule pRule, R rule pRule → R rule (clearPatterns pRule)

/-- The map has the targets of the rules, and each rule in it is related to the last one for its
target. -/
def StemsFrom (R : K2hFtRule → K2hFtRule → Prop) (rules : List K2hFtRule) (info : K2hFtInfo) : Prop :=
  ∀ target, Option.Rel R (lastRule rules target) (info.RuleMap.find? target)

section Stems

variable {lib : ConfLib} {stack : YamlDataStack} {args : LoadArgs} {config : Bytes}
  {R : K2hFtRule → K2hFtRule → Prop} {rules : List K2hFtRule} {info info' : K2hFtInfo}

theorem StemsFrom.register (h : StemsFrom R rules info) (hrefl : ∀ rule, R rule rule)
    (acl : List AclEntry) (rule : K2hFtRule) :
    StemsFrom R (rules ++ [rule]) (info.register acl rule) := by
  intro target
  simp only [K2hFtInfo.register, act, setRule, lastRule_append_singleton, OrdMap.find?_insert]
  split
  · exact .some (hrefl rule)
  · exact h target

theorem initializeOutputFiles_false {env : LoadEnv}
    (h : info.initializeOutputFiles args env = .ok (false, info')) : info' = info.act (.output false) := by
  rcases bind_eq_ok.1 h with ⟨-, -, hrest⟩
  rcases bind_eq_ok.1 hrest with ⟨outputs, -, hresult⟩
  cases outputs with
  | none =>
      cases hresult
      rfl
  | some RuleMap =>
      cases hresult

theorem StemsFrom.initializeOutputFiles {envs : List LoadEnv} {env : LoadEnv} {result : Bool}
    (h : StemsFrom R rules info) (hR : RuleRelation args envs R) (henv : env ∈ envs)
    (hcall : info.initializeOutputFiles args env = .ok (result, info')) : StemsFrom R rules info' := by
  intro target
  cases result with
  | false =>
      -- a refused output changes no rule
      rw [initializeOutputFiles_false hcall]
      exact h target
  | true =>
      rcases initializeOutputFiles_find? hcall target with ⟨hnone, hsome⟩
      have hrel := h target
      cases hfind : info.RuleMap.find? target with
      | none =>
          rw [hnone hfind, ← hfind]
          exact hrel
      | some pRule =>
          rcases hsome pRule hfind with ⟨RuleMap, OutputPath, houtput, hfind'⟩
          rw [hfind] at hrel
          rw [hfind']
          generalize lastRule rules target = last at hrel
          cases hrel with
          | some hrule =>
              exact .some (hR.output env henv RuleMap target _ pRule OutputPath houtput hrule)

theorem StemsFrom.checkBinaryMode {envs : List LoadEnv} (h : StemsFrom R rules info)
    (hR : RuleRelation args envs R) (hcall : info.checkBinaryMode = .ok info') :
    StemsFrom R rules info' := by
  rcases checkBinaryMode_eq_ok hcall with ⟨-, -, -, hmap⟩
  intro target
  have hrel := h target
  rw [hmap]
  cases info.IsBinaryMode with
  | false =>
      exact hrel
  | true =>
      -- in binary mode every rule loses its patterns
      simp only [replayStep, if_true, OrdMap.find?_mapVals]
      cases hfind : info.RuleMap.find? target with
      | none =>
          rw [hfind] at hrel
          exact hrel
      | some pRule =>
          rw [hfind] at hrel
          generalize lastRule rules target = last at hrel
          cases hrel with
          | some hrule =>
              exact .some (hR.clear _ pRule hrule)

/-- Every operation of a loader keeps the relation to the sections of the history. -/
theorem loadInvariant_stems {envs : List LoadEnv} (hR : RuleRelation args envs R) :
    LoadInvariant args envs fun info => StemsFrom R (keptRules info.acts) info where
  settings info info' hsame h := by
    intro target
    rw [hsame.RuleMap, hsame.acts]
    exact h target
  register info acl rule h := by
    have hacts : (info.register acl rule).acts = info.acts ++ [.register acl rule] := rfl
    rw [hacts, keptRules_append_singleton]
    exact StemsFrom.register h hR.refl acl rule
  outputs env henv info info' result hcall h := by
    rcases initializeOutputFiles_eq_ok hcall with ⟨-, hacts, -⟩
    rw [hacts, keptRules_append_singleton]
    exact StemsFrom.initializeOutputFiles h hR henv hcall
  binary info info' hcall h := by
    rcases checkBinaryMode_eq_ok hcall with ⟨-, hacts, -⟩
    rw [hacts, keptRules_append_singleton]
    exact StemsFrom.checkBinaryMode h hR hcall
  clean now info info' hcall h := by
    rcases clean_eq_ok hcall with ⟨-, -, hmap, hacts, -⟩
    intro target
    rw [hacts, keptRules_append_singleton, hmap]
    exact .none

end Stems

end K2hFtInfo

/-! ## The sections of a configuration -/

/-- What an event leaves of the rules that sections gave. -/
def YamlAt.keep (args : LoadArgs) (rules : List K2hFtRule) (p : YamlAt) : List K2hFtRule :=
  if p.refuses args then [] else rules ++ ((p.ruleSection args).map fun sec => sec.2).toList

/-- The rules of the sections, in their order, behind the last event at which the outputs are
refused. -/
def ConfSource.rules (lib : ConfLib) (stack : YamlDataStack) (args : LoadArgs) (info : K2hFtInfo) :
    ConfSource → List K2hFtRule
  | .ini (some lines) _ =>
      (K2hFtInfo.iniRuleSections lib args info.InitTime (iniSections lines)).map fun r => r.2
  | .yaml events env =>
      ((ConfSource.yaml events env).trace lib stack args info).foldl (YamlAt.keep args) []
  | _ => []

namespace K2hFtInfo

theorem foldl_keepAct_acts (args : LoadArgs) (rules : List K2hFtRule) (p : YamlAt) :
    (p.acts args).foldl keepAct rules = p.keep args rules := by
  cases hend : p.endsRules with
  -- the end of the rules is no section, and it may clean the object
  | true =>
      have hsec : p.ruleSection args = none := YamlAt.ruleSection_of_endsRules hend
      unfold YamlAt.acts YamlAt.keep YamlAt.refuses
      rcases houtputs : p.outputs args with _ | _ | _ <;> simp [hsec, hend, keepAct]
  | false =>
      unfold YamlAt.acts YamlAt.keep YamlAt.refuses
      rcases hsec : p.ruleSection args with _ | ⟨acl, rule⟩ <;> simp [hend, keepAct]

theorem foldl_keepAct_registrations (sections : List (List AclEntry × K2hFtRule))
    (rules : List K2hFtRule) :
    (registrations sections).foldl keepAct rules = rules ++ sections.map fun r => r.2 := by
  induction sections generalizing rules with
  | nil =>
      simp [registrations]
  | cons r sections ih =>
      have hstep : (registrations (r :: sections)).foldl keepAct rules =
          (registrations sections).foldl keepAct (rules ++ [r.2]) := rfl
      rw [hstep, ih]
      simp

section Load

variable {lib : ConfLib} {stack : YamlDataStack} {args : LoadArgs} {config : Bytes}
  {source : ConfSource} {R : K2hFtRule → K2hFtRule → Prop} {info info' : K2hFtInfo}

/-- The history of a load has the rules of the sections. -/
theorem load_keptRules (hfresh : Unloaded info)
    (h : info.load lib stack args config source = .ok (true, info')) :
    keptRules info'.acts = source.rules lib stack args info := by
  cases source with
  | unknown =>
      cases h
  | ini lines env =>
      rcases loadIni_acts hfresh.tracks h with ⟨-, read, rfl, hacts⟩
      -- the registrations come first, then acts that keep the rules
      rw [hacts, hfresh.acts, keptRules, List.nil_append, List.foldl_append,
        foldl_keepAct_registrations]
      simp [keepAct, ConfSource.rules]
  | yaml events env =>
      rcases loadYaml_eq_true hfresh h with ⟨read, phase, rfl, -, -, hacts⟩
      rw [hacts, keptRules, List.foldl_flatMap]
      simp only [foldl_keepAct_acts]
      rfl

/-- After a load, the rules in the map stem from the sections of the configuration. -/
theorem load_stems (hfresh : Unloaded info) (hR : RuleRelation args source.envs R)
    (h : info.load lib stack args config source = .ok (true, info')) :
    StemsFrom R (source.rules lib stack args info) info' := by
  have hstart : StemsFrom R (keptRules info.acts) info := by
    intro target
    rw [hfresh.acts, hfresh.RuleMap]
    exact .none
  rw [← load_keptRules hfresh h]
  exact (loadInvariant_stems hR).load hstart h

/-- The targets in the map are those of the sections. -/
theorem load_find?_iff (hfresh : Unloaded info)
    (h : info.load lib stack args config source = .ok (true, info')) (target : Bytes) :
    (∃ rule, info'.RuleMap.find? target = some rule) ↔
      ∃ rule ∈ source.rules lib stack args info, rule.TargetPath = target := by
  -- nothing is asked of the rules, only that they are there
  have hany : RuleRelation args source.envs fun _ _ => True :=
    ⟨fun _ => trivial, fun _ _ _ _ _ _ _ _ _ => trivial, fun _ _ _ => trivial⟩
  have hrel := load_stems hfresh hany h target
  rw [← exists_lastRule_iff]
  revert hrel
  cases lastRule (source.rules lib stack args info) target <;>
    cases info'.RuleMap.find? target <;> simp

end Load

end K2hFtInfo

end K2hFtFuse
