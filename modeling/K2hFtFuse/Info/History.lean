import Mathlib.Data.List.Induction
import K2hFtFuse.Info.Yaml

/-!
# Info.History — what a load did, and the rules that are left

Every step of a loader changes settings only, registers a rule, prepares the outputs, checks the mode
or cleans, and notes it in `acts`. The rules that are left, up to their outputs, are those that a
replay of `acts` leaves (`Tracks`).
-/

namespace K2hFtFuse

open ByteSeq SpinLock Outcome

/-! ## Replaying -/

/-- What `CheckBinaryMode` makes of a rule. -/
def clearPatterns (rule : K2hFtRule) : K2hFtRule := { rule with MatchingList := [] }

def replayStep (RuleMap : OrdMap Bytes K2hFtRule) : LoadAct → OrdMap Bytes K2hFtRule
  | .register _ rule => RuleMap.insert rule.TargetPath rule
  | .output _ => RuleMap
  | .binary mode => if mode then RuleMap.mapVals clearPatterns else RuleMap
  | .clean => ∅

def replay (acts : List LoadAct) : OrdMap Bytes K2hFtRule := acts.foldl replayStep ∅

/-- After these acts, the last rule that was registered for `target` before is still in the map. -/
structure Stays (target : Bytes) (acts : List LoadAct) : Prop where
  clean : .clean ∉ acts
  register : ∀ acl rule, .register acl rule ∈ acts → rule.TargetPath ≠ target

theorem replay_append_singleton (acts : List LoadAct) (a : LoadAct) :
    replay (acts ++ [a]) = replayStep (replay acts) a := by
  simp [replay]

theorem stays_append_singleton {target : Bytes} {acts : List LoadAct} {a : LoadAct} :
    Stays target (acts ++ [a]) ↔ Stays target acts ∧ Stays target [a] := by
  constructor
  · intro h
    exact ⟨⟨fun hc => h.clean (by simp [hc]), fun acl rule hr => h.register acl rule (by simp [hr])⟩,
      ⟨fun hc => h.clean (List.mem_append_right _ hc),
        fun acl rule hr => h.register acl rule (List.mem_append_right _ hr)⟩⟩
  · rintro ⟨h, ha⟩
    refine ⟨?_, ?_⟩
    · intro hc
      exact (List.mem_append.1 hc).elim h.clean ha.clean
    · intro acl rule hr
      exact (List.mem_append.1 hr).elim (h.register acl rule) (ha.register acl rule)

/-- A log with one act more, split at one of its acts. -/
theorem append_singleton_eq_split {acts pre post : List LoadAct} {a b : LoadAct} :
    acts ++ [a] = pre ++ b :: post ↔
      (pre = acts ∧ b = a ∧ post = []) ∨ ∃ rest, post = rest ++ [a] ∧ acts = pre ++ b :: rest := by
  constructor
  · intro h
    rcases List.eq_nil_or_concat post with rfl | ⟨rest, c, rfl⟩
    · left
      have h' : acts ++ [a] = pre ++ [b] := h
      rcases List.append_inj' h' rfl with ⟨hacts, hab⟩
      exact ⟨hacts.symm, (List.cons.inj hab).1.symm, rfl⟩
    · right
      have h' : acts ++ [a] = (pre ++ b :: rest) ++ [c] := by
        simpa [List.concat_eq_append] using h
      rcases List.append_inj' h' rfl with ⟨hacts, hac⟩
      obtain rfl := (List.cons.inj hac).1
      exact ⟨rest, by simp [List.concat_eq_append], hacts⟩
  · rintro (⟨rfl, rfl, rfl⟩ | ⟨rest, rfl, rfl⟩)
    · rfl
    · simp

/-- The rule that is left for a target is the last one that was registered for it, if nothing was
cleaned after that; a check in binary mode took its patterns. -/
theorem replay_find?_eq_some_iff {acts : List LoadAct} {target : Bytes} {r : K2hFtRule} :
    (replay acts).find? target = some r ↔
      ∃ pre acl rule post, acts = pre ++ .register acl rule :: post ∧ rule.TargetPath = target ∧
        Stays target post ∧ r = if .binary true ∈ post then clearPatterns rule else rule := by
  induction acts using List.reverseRecOn generalizing r with
  | nil =>
      simp [replay]
  | append_singleton acts a ih =>
      -- the acts that leave the entry of the target as it is
      have hkeep : Stays target [a] → a ≠ .binary true →
          (replayStep (replay acts) a).find? target = (replay acts).find? target →
          ((replay (acts ++ [a])).find? target = some r ↔
            ∃ pre acl rule post, acts ++ [a] = pre ++ .register acl rule :: post ∧
              rule.TargetPath = target ∧ Stays target post ∧
              r = if .binary true ∈ post then clearPatterns rule else rule) := by
        intro hstays hbinary hsame
        rw [replay_append_singleton, hsame, ih]
        constructor
        · rintro ⟨pre, acl, rule, post, rfl, htarget, hpost, hr⟩
          refine ⟨pre, acl, rule, post ++ [a], by simp, htarget,
            stays_append_singleton.2 ⟨hpost, hstays⟩, ?_⟩
          simpa [hbinary.symm] using hr
        · rintro ⟨pre, acl, rule, post, hsplit, htarget, hpost, hr⟩
          rcases append_singleton_eq_split.1 hsplit with ⟨-, rfl, -⟩ | ⟨rest, rfl, hacts⟩
          · exact absurd htarget (hstays.register acl rule (by simp))
          · exact ⟨pre, acl, rule, rest, hacts, htarget, (stays_append_singleton.1 hpost).1, by
              simpa [hbinary.symm] using hr⟩
      cases a with
      | register acl rule =>
          by_cases htarget : rule.TargetPath = target
          · rw [replay_append_singleton]
            simp only [replayStep, htarget, OrdMap.find?_insert_self, Option.some.injEq]
            constructor
            · rintro rfl
              exact ⟨acts, acl, rule, [], rfl, htarget, ⟨by simp, by simp⟩, by simp⟩
            · rintro ⟨pre, acl', rule', post, hsplit, -, hpost, hr⟩
              rcases append_singleton_eq_split.1 hsplit with ⟨-, heq, rfl⟩ | ⟨rest, rfl, -⟩
              · obtain ⟨rfl, rfl⟩ := LoadAct.register.inj heq
                simpa using hr.symm
              · exact absurd htarget (hpost.register acl rule (by simp))
          · refine hkeep ⟨by simp, ?_⟩ (by simp) ?_
            · intro acl' rule' hmem
              obtain ⟨rfl, rfl⟩ := LoadAct.register.inj (List.mem_singleton.1 hmem)
              exact htarget
            · exact OrdMap.find?_insert_ne _ _ (Ne.symm htarget)
      | output result =>
          exact hkeep ⟨by simp, by simp⟩ (by simp) rfl
      | binary mode =>
          cases mode with
          | false =>
              exact hkeep ⟨by simp, by simp⟩ (by simp) rfl
          | true =>
              rw [replay_append_singleton]
              simp only [replayStep, if_true, OrdMap.find?_mapVals, Option.map_eq_some_iff]
              constructor
              · rintro ⟨r', hr', rfl⟩
                rcases ih.1 hr' with ⟨pre, acl, rule, post, rfl, htarget, hpost, hrule⟩
                refine ⟨pre, acl, rule, post ++ [.binary true], by simp, htarget,
                  stays_append_singleton.2 ⟨hpost, by simp, by simp⟩, ?_⟩
                simp only [List.mem_append, List.mem_singleton, or_true, if_true, hrule]
                split <;> rfl
              · rintro ⟨pre, acl, rule, post, hsplit, htarget, hpost, hr⟩
                rcases append_singleton_eq_split.1 hsplit with ⟨-, heq, -⟩ | ⟨rest, rfl, hacts⟩
                · cases heq
                · refine ⟨_, ih.2 ⟨pre, acl, rule, rest, hacts, htarget,
                    (stays_append_singleton.1 hpost).1, rfl⟩, ?_⟩
                  simp only [List.mem_append, List.mem_singleton, or_true, if_true] at hr
                  rw [hr]
                  split <;> rfl
      | clean =>
          rw [replay_append_singleton]
          simp only [replayStep, OrdMap.find?_empty]
          constructor
          · intro h
            cases h
          · rintro ⟨pre, acl, rule, post, hsplit, -, hpost, -⟩
            rcases append_singleton_eq_split.1 hsplit with ⟨-, heq, -⟩ | ⟨rest, rfl, -⟩
            · cases heq
            · exact absurd (by simp) hpost.clean

/-! ## What the operations of a loader do to rules and history -/

namespace K2hFtInfo

/-- Only settings have changed. -/
structure SameRules (info info' : K2hFtInfo) : Prop where
  prule_lockval : info'.prule_lockval = info.prule_lockval
  RuleMap : info'.RuleMap = info.RuleMap
  freedRules : info'.freedRules = info.freedRules
  acts : info'.acts = info.acts

theorem SameRules.refl (info : K2hFtInfo) : SameRules info info := ⟨rfl, rfl, rfl, rfl⟩

theorem SameRules.trans {info₁ info₂ info₃ : K2hFtInfo} (h : SameRules info₁ info₂)
    (h' : SameRules info₂ info₃) : SameRules info₁ info₃ :=
  ⟨h'.prule_lockval.trans h.prule_lockval, h'.RuleMap.trans h.RuleMap,
    h'.freedRules.trans h.freedRules, h'.acts.trans h.acts⟩

theorem sameRules_ite {c : Prop} [Decidable c] {info : K2hFtInfo} {x y : Bool × K2hFtInfo}
    (hx : SameRules info x.2) (hy : SameRules info y.2) :
    SameRules info (if c then x else y).2 := by
  split
  · exact hx
  · exact hy

theorem loadMainKey_sameRules (lib : ConfLib) (env : LoadEnv) (is : Bytes → Bool) (value : Bytes)
    (info : K2hFtInfo) : SameRules info (info.loadMainKey lib env is value).2 := by
  unfold loadMainKey
  -- the keys in their order, each a write to one setting
  repeat' first | refine sameRules_ite ?_ ?_ | exact ⟨rfl, rfl, rfl, rfl⟩
  · cases env.checkPathRealPath value <;> exact ⟨rfl, rfl, rfl, rfl⟩
  · cases nonnegative value <;> exact ⟨rfl, rfl, rfl, rfl⟩
  · cases nonnegative value <;> exact ⟨rfl, rfl, rfl, rfl⟩

theorem initTime_ite {c : Prop} [Decidable c] {InitTime : Timespec} {x y : Bool × K2hFtInfo}
    (hx : x.2.InitTime = InitTime) (hy : y.2.InitTime = InitTime) :
    (if c then x else y).2.InitTime = InitTime := by
  split
  · exact hx
  · exact hy

theorem loadMainKey_InitTime (lib : ConfLib) (env : LoadEnv) (is : Bytes → Bool) (value : Bytes)
    (info : K2hFtInfo) : (info.loadMainKey lib env is value).2.InitTime = info.InitTime := by
  unfold loadMainKey
  repeat' first | refine initTime_ite ?_ ?_ | rfl
  · cases env.checkPathRealPath value <;> rfl
  · cases nonnegative value <;> rfl
  · cases nonnegative value <;> rfl

/-- What the filter of lines looks at. -/
def filterOf (rule : K2hFtRule) : Bool × List K2hFtMatchPtn :=
  (rule.DefaultDenyAll, rule.MatchingList)

/-- The map has the filters that a replay of the history leaves. -/
def Tracks (info : K2hFtInfo) : Prop :=
  ∀ target, (info.RuleMap.find? target).map filterOf =
    ((replay info.acts).find? target).map filterOf

theorem Tracks.of_sameRules {info info' : K2hFtInfo} (h : Tracks info) (hsame : SameRules info info') :
    Tracks info' := by
  intro target
  rw [hsame.RuleMap, hsame.acts]
  exact h target

theorem tracks_register {info : K2hFtInfo} (h : Tracks info) (acl : List AclEntry)
    (rule : K2hFtRule) : Tracks (info.register acl rule) := by
  intro target
  simp only [register, act, setRule, replay_append_singleton, replayStep, OrdMap.find?_insert]
  split
  · rfl
  · exact h target

/-- Preparing the outputs leaves the filters of all rules alone. -/
theorem initOutputs_find? {args : LoadArgs} {env : LoadEnv} {entries : List (Bytes × K2hFtRule)}
    {RuleMap RuleMap' : OrdMap Bytes K2hFtRule}
    (hentries : ∀ e ∈ entries, (RuleMap.find? e.1).map filterOf = some (filterOf e.2))
    (h : initOutputs args env entries RuleMap = .ok (some RuleMap')) (target : Bytes) :
    (RuleMap'.find? target).map filterOf = (RuleMap.find? target).map filterOf := by
  induction entries generalizing RuleMap with
  | nil =>
      simp only [initOutputs, Except.ok.injEq, Option.some.injEq] at h
      rw [h]
  | cons e rest ih =>
      rcases e with ⟨key, pRule⟩
      simp only [initOutputs] at h
      split at h
      · cases h
      · cases h
      · rename_i OutputPath _
        have hhead : (RuleMap.find? key).map filterOf = some (filterOf pRule) :=
          hentries (key, pRule) (by simp)
        -- the new rule has the filter of the old one
        have hfind : ∀ k, ((RuleMap.insert key { pRule with OutputPath := OutputPath }).find? k).map
            filterOf = (RuleMap.find? k).map filterOf := by
          intro k
          rw [OrdMap.find?_insert]
          split
          · rename_i hk
            rw [hk, hhead]
            rfl
          · rfl
        rw [ih (fun e he => ?_) h, hfind]
        rw [hfind]
        exact hentries e (List.mem_cons_of_mem _ he)

theorem derefAll_eq_ok {info : K2hFtInfo} {u : Unit} (h : info.derefAll = .ok u) :
    info.freedRules = [] := by
  unfold derefAll at h
  split at h
  · assumption
  · cases h

/-- `InitializeOutputFiles`: the verdict is noted, and the rules have the filters that they had. -/
theorem initializeOutputFiles_eq_ok {args : LoadArgs} {env : LoadEnv} {info info' : K2hFtInfo}
    {result : Bool} (h : info.initializeOutputFiles args env = .ok (result, info')) :
    info'.prule_lockval = info.prule_lockval ∧ info'.acts = info.acts ++ [.output result] ∧
      info'.IsBinaryMode = info.IsBinaryMode ∧ info'.freedRules = [] ∧
      ∀ target, (info'.RuleMap.find? target).map filterOf =
        (info.RuleMap.find? target).map filterOf := by
  rcases bind_eq_ok.1 h with ⟨u, hderef, hrest⟩
  rcases bind_eq_ok.1 hrest with ⟨outputs, houtputs, hresult⟩
  have hlive := derefAll_eq_ok hderef
  cases outputs with
  | none =>
      cases hresult
      exact ⟨rfl, rfl, rfl, hlive, fun _ => rfl⟩
  | some RuleMap =>
      cases hresult
      refine ⟨rfl, rfl, rfl, hlive, ?_⟩
      refine initOutputs_find? ?_ houtputs
      intro e he
      rw [OrdMap.mem_entries_iff.1 he]
      rfl

theorem tracks_initializeOutputFiles {args : LoadArgs} {env : LoadEnv} {info info' : K2hFtInfo}
    {result : Bool} (h : Tracks info)
    (hcall : info.initializeOutputFiles args env = .ok (result, info')) : Tracks info' := by
  rcases initializeOutputFiles_eq_ok hcall with ⟨-, hacts, -, -, hfind⟩
  intro target
  rw [hfind, hacts, replay_append_singleton]
  exact h target

theorem checkBinaryMode_eq_ok {info info' : K2hFtInfo} (h : info.checkBinaryMode = .ok info') :
    info'.prule_lockval = info.prule_lockval ∧
      info'.acts = info.acts ++ [.binary info.IsBinaryMode] ∧
      info'.IsBinaryMode = info.IsBinaryMode ∧
      info'.RuleMap = replayStep info.RuleMap (.binary info.IsBinaryMode) := by
  unfold checkBinaryMode at h
  cases hmode : info.IsBinaryMode with
  | false =>
      simp only [hmode, Bool.not_false, if_true, Except.ok.injEq] at h
      rw [← h]
      exact ⟨rfl, rfl, hmode, rfl⟩
  | true =>
      simp only [hmode, Bool.not_true, Bool.false_eq_true, if_false] at h
      rcases bind_eq_ok.1 h with ⟨u, -, hresult⟩
      cases hresult
      exact ⟨rfl, rfl, rfl, rfl⟩

theorem tracks_checkBinaryMode {info info' : K2hFtInfo} (h : Tracks info)
    (hcall : info.checkBinaryMode = .ok info') : Tracks info' := by
  rcases checkBinaryMode_eq_ok hcall with ⟨-, hacts, -, hmap⟩
  intro target
  rw [hmap, hacts, replay_append_singleton]
  cases info.IsBinaryMode with
  | false =>
      exact h target
  | true =>
      -- clearing the patterns acts on the filter alone
      have hclear : ∀ found : Option K2hFtRule, (found.map clearPatterns).map filterOf =
          (found.map filterOf).map fun f => (f.1, []) := by
        intro found
        cases found <;> rfl
      simp only [replayStep, if_true, OrdMap.find?_mapVals, hclear, h target]

theorem clean_eq_ok {now : Option Timespec} {info info' : K2hFtInfo} (h : info.clean now = .ok info') :
    info.prule_lockval = false ∧ info'.prule_lockval = false ∧ info'.RuleMap = ∅ ∧
      info'.acts = info.acts ++ [.clean] ∧ info'.freedRules = [] := by
  rcases bind_eq_ok.1 h with ⟨info₁, hlock, hrest⟩
  rcases bind_eq_ok.1 hrest with ⟨u, hderef, hresult⟩
  rcases lock_eq_ok hlock with ⟨hfree, rfl⟩
  have hlive := derefAll_eq_ok hderef
  cases hresult
  exact ⟨hfree, rfl, rfl, rfl, hlive⟩

theorem tracks_clean {now : Option Timespec} {info info' : K2hFtInfo}
    (h : info.clean now = .ok info') : Tracks info' := by
  rcases clean_eq_ok h with ⟨-, -, hmap, hacts, -⟩
  intro target
  rw [hmap, hacts, replay_append_singleton]
  rfl

end K2hFtInfo

/-! ## What a section says about lines -/

/-- The last value of `DEFAULTALL`, which is `DENY` where there is none. -/
def defaultDeny (acl : List AclEntry) : Bool :=
  acl.foldl (fun deny entry =>
    match entry with
    | .defaultAll d => d
    | .pattern _ _ => deny) true

def allowPatterns (acl : List AclEntry) : List K2hFtMatchPtn :=
  acl.filterMap fun entry =>
    match entry with
    | .pattern true ptn => some ptn
    | _ => none

def denyPatterns (acl : List AclEntry) : List K2hFtMatchPtn :=
  acl.filterMap fun entry =>
    match entry with
    | .pattern false ptn => some ptn
    | _ => none

def allPatterns (acl : List AclEntry) : List K2hFtMatchPtn :=
  acl.filterMap fun entry =>
    match entry with
    | .pattern _ ptn => some ptn
    | .defaultAll _ => none

/-- The filter that the INI loader makes of a section. -/
structure IniRuleOf (acl : List AclEntry) (rule : K2hFtRule) : Prop where
  DefaultDenyAll : rule.DefaultDenyAll = defaultDeny acl
  MatchingList : rule.MatchingList = if defaultDeny acl then allowPatterns acl else denyPatterns acl

/-- The filter that the YAML loader makes of a section. -/
structure YamlRuleOf (acl : List AclEntry) (rule : K2hFtRule) : Prop where
  DefaultDenyAll : rule.DefaultDenyAll = defaultDeny acl
  MatchingList : rule.MatchingList = if defaultDeny acl then [] else allPatterns acl

/-- A key of a rule section changes the default as the section says, and no pattern. -/
theorem loadRuleKey_eq (lib : ConfLib) (env : LoadEnv) (is : Bytes → Bool) (value : Bytes)
    {pTmpRule : K2hFtRule} {acl : List AclEntry} (h : pTmpRule.DefaultDenyAll = defaultDeny acl) :
    (loadRuleKey lib env is value pTmpRule).1.DefaultDenyAll =
        defaultDeny (acl ++ (loadRuleKey lib env is value pTmpRule).2) ∧
      (loadRuleKey lib env is value pTmpRule).1.MatchingList = pTmpRule.MatchingList ∧
      allowPatterns (acl ++ (loadRuleKey lib env is value pTmpRule).2) = allowPatterns acl ∧
      denyPatterns (acl ++ (loadRuleKey lib env is value pTmpRule).2) = denyPatterns acl ∧
      allPatterns (acl ++ (loadRuleKey lib env is value pTmpRule).2) = allPatterns acl := by
  unfold loadRuleKey
  split
  · simpa using h
  · split
    · simpa using h
    · split
      · simpa using h
      · split
        · simpa using h
        · split
          · split
            · simp [defaultDeny, allowPatterns, denyPatterns, allPatterns]
            · split
              · simp [defaultDeny, allowPatterns, denyPatterns, allPatterns]
              · simpa using h
          · simpa using h

/-! ## The steps of the YAML loader -/

/-- The patterns of an open mapping are all in `DenyMatchs`. -/
structure SecOk (sec : YamlRule) : Prop where
  AllowMatchs : sec.AllowMatchs = []
  DenyMatchs : sec.DenyMatchs = allPatterns sec.acl
  pTmpRule : ∀ rule, sec.pTmpRule = some rule →
    rule.DefaultDenyAll = defaultDeny sec.acl ∧ rule.MatchingList = []

def PhaseOk : YamlPhase → Prop
  | .rule sec => SecOk sec
  | .acl _ sec _ => SecOk sec
  | _ => True

/-- The loader is in `LoadYamlRuleSec`, behind the start of its sequence. -/
def inRule : YamlPhase → Bool
  | .rule _ => true
  | .acl _ _ _ => true
  | _ => false

/-- An event of a run, with where the loader stands when it reads it. -/
structure YamlAt where
  read : YamlRead
  phase : YamlPhase
  info : K2hFtInfo

namespace YamlAt

/-- The event ends a rule section: what the section says about lines, and its rule. -/
def ruleSection (args : LoadArgs) (p : YamlAt) : Option (List AclEntry × K2hFtRule) :=
  match p.phase, p.read.event with
  | .rule sec, .mappingEnd =>
      if sec.in_mapping then
        sec.pTmpRule.map fun pTmpRule =>
          (sec.acl, finishRule args (strcasecmp (ascii "K2HFTFUSE_RULE_DIR") []) p.info.InitTime
            pTmpRule sec.AllowMatchs sec.DenyMatchs)
      else
        none
  | _, _ => none

/-- The event ends a sequence of rule sections. -/
def endsRules (p : YamlAt) : Bool :=
  match p.phase, p.read.event with
  | .rule sec, .sequenceEnd => !sec.in_mapping
  | _, _ => false

/-- What `InitializeOutputFiles` answers for the rules that are there. -/
def outputs (args : LoadArgs) (p : YamlAt) : Option Bool :=
  (p.info.initializeOutputFiles args p.read.env).toOption.map fun answer => answer.1

/-- What the loader does at the event to rules that were registered before. -/
def acts (args : LoadArgs) (p : YamlAt) : List LoadAct :=
  match p.ruleSection args with
  | some (acl, rule) => [.register acl rule]
  | none =>
      if p.endsRules then
        match p.outputs args with
        | some true => [.output true, .binary p.info.IsBinaryMode]
        | some false => [.output false, .clean]
        | none => []
      else
        []

theorem ruleSection_of_endsRules {args : LoadArgs} {p : YamlAt} (h : p.endsRules = true) :
    p.ruleSection args = none := by
  unfold endsRules at h
  unfold ruleSection
  split at h
  · rename_i sec hphase hevent
    rw [hphase, hevent]
  · cases h

end YamlAt

namespace K2hFtInfo

/-- The events that the YAML loader reads. -/
def yamlTrace (lib : ConfLib) (stack : YamlDataStack) (args : LoadArgs) :
    List YamlRead → YamlTop → YamlPhase → K2hFtInfo → List YamlAt
  | [], _, _, _ => []
  | read :: rest, top, phase, info =>
      { read := read, phase := phase, info := info } ::
        match yamlStep lib stack args read.env top phase read.event info with
        | .ok (.continue top phase, info) => yamlTrace lib stack args rest top phase info
        | _ => []

/-- What a step of the YAML loader can do. -/
inductive YamlDid (args : LoadArgs) (p : YamlAt) : YamlNext → K2hFtInfo → Prop
  | settings {top : YamlTop} {phase' : YamlPhase} {info' : K2hFtInfo}
      (hacts : p.acts args = []) (hsame : SameRules p.info info') (hok : PhaseOk phase')
      (hrule : inRule p.phase = true → inRule phase' = true) :
      YamlDid args p (.continue top phase') info'
  | register {top : YamlTop} {phase' : YamlPhase} {acl : List AclEntry} {rule : K2hFtRule}
      (hsec : p.ruleSection args = some (acl, rule)) (hof : YamlRuleOf acl rule)
      (hok : PhaseOk phase') (hrule : inRule p.phase = true) (hrule' : inRule phase' = true) :
      YamlDid args p (.continue top phase') (p.info.register acl rule)
  | prepared {top : YamlTop} {info₁ info' : K2hFtInfo} (hend : p.endsRules = true)
      (houtputs : p.info.initializeOutputFiles args p.read.env = .ok (true, info₁))
      (hbinary : info₁.checkBinaryMode = .ok info') :
      YamlDid args p (.continue top (.main [])) info'
  | lost {top : YamlTop} {info₁ info' : K2hFtInfo} (hend : p.endsRules = true)
      (houtputs : p.info.initializeOutputFiles args p.read.env = .ok (false, info₁))
      (hclean : info₁.clean (p.read.env.now 0) = .ok info') :
      YamlDid args p (.continue top (.main [])) info'
  | finished (hacts : p.acts args = []) (hrule : inRule p.phase = false) :
      YamlDid args p (.done true) p.info
  | failed {info' : K2hFtInfo} (hlock : info'.prule_lockval = p.info.prule_lockval) :
      YamlDid args p (.done false) info'

section Did

variable {lib : ConfLib} {stack : YamlDataStack} {args : LoadArgs} {env : LoadEnv} {top : YamlTop}
  {event : YamlEvent} {info info' : K2hFtInfo} {next : YamlNext}

theorem failYamlMain_did {phase : YamlPhase} {info₁ : K2hFtInfo} {n : Nat}
    (hlock : info₁.prule_lockval = info.prule_lockval)
    (h : info₁.failYamlMain env n = .ok (next, info')) :
    YamlDid args ⟨⟨event, env⟩, phase, info⟩ next info' := by
  rcases bind_eq_ok.1 h with ⟨info₂, hclean, hresult⟩
  rcases clean_eq_ok hclean with ⟨hfree, hfree', -⟩
  cases hresult
  exact .failed (by rw [hfree', ← hlock, hfree])

theorem failYamlRule_did {phase : YamlPhase} (h : info.failYamlRule env = .ok (next, info')) :
    YamlDid args ⟨⟨event, env⟩, phase, info⟩ next info' := by
  rcases bind_eq_ok.1 h with ⟨info₁, hclean, hmain⟩
  rcases clean_eq_ok hclean with ⟨hfree, hfree', -⟩
  exact failYamlMain_did (by rw [hfree', hfree]) hmain

theorem pushMatch_ok {sec : YamlRule} (h : SecOk sec) (is_key_allow : Bool)
    (pMatchPtn : Option K2hFtMatchPtn) : SecOk (pushMatch is_key_allow sec pMatchPtn) := by
  rcases pMatchPtn with _ | ptn
  · exact h
  · have hdeny : strcasecmp (ascii "ALLOW") [] = false := by decide
    simp only [pushMatch, hdeny, Bool.false_eq_true, if_false]
    refine ⟨h.AllowMatchs, ?_, ?_⟩
    · simp [h.DenyMatchs, allPatterns]
    · intro rule hrule
      simpa [defaultDeny] using h.pTmpRule rule hrule

theorem yamlAclStep_did {is_key_allow : Bool} {sec : YamlRule} {phase : YamlAclPhase}
    (hok : SecOk sec) (h : yamlAclStep env top is_key_allow sec phase event info = .ok (next, info')) :
    YamlDid args ⟨⟨event, env⟩, .acl is_key_allow sec phase, info⟩ next info' := by
  unfold yamlAclStep at h
  split at h
  · cases h
    exact .settings rfl (.refl info) (pushMatch_ok hok _ _) (fun _ => rfl)
  · cases h
    exact .settings rfl (.refl info) (pushMatch_ok hok _ _) (fun _ => rfl)
  · cases h
    exact .settings rfl (.refl info) hok (fun _ => rfl)
  · cases h
    exact .settings rfl (.refl info) hok (fun _ => rfl)
  · cases h
    exact .settings rfl (.refl info) hok (fun _ => rfl)
  · cases h
    exact .settings rfl (.refl info) hok (fun _ => rfl)
  · cases h
    exact .settings rfl (.refl info) (pushMatch_ok hok _ _) (fun _ => rfl)
  · cases h
    exact .settings rfl (.refl info) hok (fun _ => rfl)
  · exact failYamlRule_did h

theorem yamlRuleScalar_did {sec : YamlRule} {value : Bytes} (hok : SecOk sec)
    (h : yamlRuleScalar lib env top sec value info = .ok (next, info')) :
    YamlDid args ⟨⟨.scalar value, env⟩, .rule sec, info⟩ next info' := by
  unfold yamlRuleScalar at h
  split at h
  · split at h
    · cases h
      exact .settings rfl (.refl info) hok (fun _ => rfl)
    · cases h
      exact .settings rfl (.refl info) ⟨hok.AllowMatchs, hok.DenyMatchs, hok.pTmpRule⟩ (fun _ => rfl)
  · split at h
    · rename_i hrule
      split at h
      · cases h
      · cases h
        exact .settings rfl (.refl info) ⟨hok.AllowMatchs, hok.DenyMatchs, hok.pTmpRule⟩ (fun _ => rfl)
    · rename_i pTmpRule hrule
      rcases hok.pTmpRule pTmpRule hrule with ⟨hdefault, hlist⟩
      rcases loadRuleKey_eq lib env (fun name => strcasecmp name sec.key) value hdefault with
        ⟨hdefault', hlist', -, -, hall⟩
      revert hdefault' hlist' hall h
      generalize loadRuleKey lib env (fun name => strcasecmp name sec.key) value pTmpRule = changed
      intro h hdefault' hlist' hall
      cases h
      refine .settings rfl (.refl info) ⟨hok.AllowMatchs, ?_, ?_⟩ (fun _ => rfl)
      · rw [hall]
        exact hok.DenyMatchs
      · intro rule heq
        obtain rfl := Option.some.inj heq
        exact ⟨hdefault', hlist'.trans hlist⟩

/-- The rule of a mapping that ends. -/
theorem finishRule_yamlRuleOf {is_dir_rule : Bool} {InitTime : Timespec} {sec : YamlRule}
    {pTmpRule : K2hFtRule} (hok : SecOk sec) (hrule : sec.pTmpRule = some pTmpRule) :
    YamlRuleOf sec.acl
      (finishRule args is_dir_rule InitTime pTmpRule sec.AllowMatchs sec.DenyMatchs) := by
  rcases hok.pTmpRule pTmpRule hrule with ⟨hdefault, hlist⟩
  refine ⟨hdefault, ?_⟩
  simp only [finishRule, matchingList, hlist, hdefault, hok.AllowMatchs, hok.DenyMatchs,
    List.nil_append]

theorem yamlRuleStep_did {sec : YamlRule} (hok : SecOk sec)
    (h : yamlRuleStep lib args env top sec event info = .ok (next, info')) :
    YamlDid args ⟨⟨event, env⟩, .rule sec, info⟩ next info' := by
  unfold yamlRuleStep at h
  split at h
  · -- a mapping starts
    split at h
    · exact failYamlRule_did h
    · cases h
      refine .settings rfl (.refl info) ⟨rfl, rfl, ?_⟩ (fun _ => rfl)
      intro rule heq
      obtain rfl := Option.some.inj heq
      exact ⟨rfl, rfl⟩
  · -- a mapping ends
    split at h
    · exact failYamlRule_did h
    · split at h
      · cases h
      · rename_i pTmpRule hrule
        cases h
        exact .register (by simp_all [YamlAt.ruleSection]) (finishRule_yamlRuleOf hok hrule)
          ⟨rfl, rfl, by simp⟩ rfl rfl
  · -- the sequence ends
    split at h
    · exact failYamlRule_did h
    · rename_i hmapping
      rcases bind_eq_ok.1 h with ⟨⟨result, info₁⟩, houtputs, hnext⟩
      cases result with
      | false =>
          rcases bind_eq_ok.1 hnext with ⟨info₂, hclean, hresult⟩
          cases hresult
          exact .lost (by simpa [YamlAt.endsRules] using hmapping) houtputs hclean
      | true =>
          rcases bind_eq_ok.1 hnext with ⟨info₂, hbinary, hresult⟩
          cases hresult
          exact .prepared (by simpa [YamlAt.endsRules] using hmapping) houtputs hbinary
  · exact yamlRuleScalar_did hok h
  · exact failYamlRule_did h

theorem yamlMainStep_did {key : Bytes}
    (h : yamlMainStep lib env top key event info = .ok (next, info')) :
    YamlDid args ⟨⟨event, env⟩, .main key, info⟩ next info' := by
  unfold yamlMainStep at h
  split at h
  · split at h
    · cases h
      exact .settings rfl (.refl info) trivial (by simp [inRule])
    · exact failYamlMain_did rfl h
  · rename_i value
    split at h
    · split at h
      · cases h
        exact .settings rfl (.refl info) trivial (by simp [inRule])
      · cases h
        exact .settings rfl (.refl info) trivial (by simp [inRule])
    · have hsame := loadMainKey_sameRules lib env (fun name => strcasecmp name key) value info
      split at h
      · rename_i info₁ hkey
        rw [hkey] at hsame
        cases h
        exact .settings rfl hsame trivial (by simp [inRule])
      · rename_i info₁ hkey
        rw [hkey] at hsame
        exact failYamlMain_did hsame.prule_lockval h
  · exact failYamlMain_did rfl h

theorem yamlTopStep_did :
    YamlDid args ⟨⟨event, env⟩, .top, info⟩ (yamlTopStep stack top event) info := by
  have hgo : ∀ top' phase', inRule phase' = false → PhaseOk phase' →
      YamlDid args ⟨⟨event, env⟩, .top, info⟩ (.continue top' phase') info := by
    intro top' phase' _ hok
    exact .settings rfl (.refl info) hok (by simp [inRule])
  have hskip : YamlDid args ⟨⟨event, env⟩, .top, info⟩ (yamlSkip stack top event) info := by
    unfold yamlSkip
    split
    · split
      · exact .finished rfl rfl
      · exact hgo _ _ rfl trivial
    · exact .failed rfl
  cases event with
  | noEvent => exact hgo _ _ rfl trivial
  | aliasNode => exact hgo _ _ rfl trivial
  | sequenceStart => exact hskip
  | sequenceEnd => exact hskip
  | streamEnd =>
      simp only [yamlTopStep]
      split
      · exact hskip
      · exact .finished rfl rfl
  | scalar value =>
      simp only [yamlTopStep]
      split
      · exact hskip
      · split
        · exact hgo _ _ rfl trivial
        · exact hskip
  | streamStart | documentStart | documentEnd | mappingStart | mappingEnd =>
      simp only [yamlTopStep]
      split
      · exact hskip
      · exact hgo _ _ rfl trivial

/-- The inversion lemma of the YAML loader. -/
theorem yamlStep_did {phase : YamlPhase} (hok : PhaseOk phase)
    (h : yamlStep lib stack args env top phase event info = .ok (next, info')) :
    YamlDid args ⟨⟨event, env⟩, phase, info⟩ next info' := by
  cases phase with
  | top =>
      simp only [yamlStep, Except.ok.injEq, Prod.mk.injEq] at h
      rw [← h.1, ← h.2]
      exact yamlTopStep_did
  | mainStart =>
      simp only [yamlStep] at h
      split at h
      · cases h
        exact .settings rfl (.refl info) trivial (by simp [inRule])
      · cases h
        exact .failed rfl
  | main key => exact yamlMainStep_did h
  | ruleStart =>
      simp only [yamlStep] at h
      split at h
      · cases h
        exact .settings rfl (.refl info) ⟨rfl, rfl, by simp [YamlRule.fresh]⟩ (by simp [inRule])
      · exact failYamlMain_did rfl h
  | rule sec => exact yamlRuleStep_did hok h
  | acl is_key_allow sec aclPhase => exact yamlAclStep_did hok h

end Did

theorem YamlDid.phaseOk {args : LoadArgs} {p : YamlAt} {top : YamlTop} {phase' : YamlPhase}
    {info' : K2hFtInfo} (h : YamlDid args p (.continue top phase') info') : PhaseOk phase' := by
  cases h with
  | settings hacts hsame hok hrule => exact hok
  | register hsec hof hok hrule hrule' => exact hok
  | prepared hend houtputs hbinary => trivial
  | lost hend houtputs hclean => trivial

/-- The history of a step. -/
theorem YamlDid.acts_eq {args : LoadArgs} {p : YamlAt} {top : YamlTop} {phase' : YamlPhase}
    {info' : K2hFtInfo} (h : YamlDid args p (.continue top phase') info') :
    info'.acts = p.info.acts ++ p.acts args := by
  cases h with
  | settings hacts hsame hok hrule =>
      rw [hsame.acts, hacts, List.append_nil]
  | register hsec hof hok hrule hrule' =>
      simp only [YamlAt.acts, hsec]
      rfl
  | prepared hend houtputs hbinary =>
      rcases initializeOutputFiles_eq_ok houtputs with ⟨-, hacts, hmode, -⟩
      rcases checkBinaryMode_eq_ok hbinary with ⟨-, hacts', -⟩
      rw [hacts', hacts, hmode]
      simp [YamlAt.acts, YamlAt.ruleSection_of_endsRules hend, hend, YamlAt.outputs, houtputs,
        Except.toOption]
  | lost hend houtputs hclean =>
      rcases initializeOutputFiles_eq_ok houtputs with ⟨-, hacts, -⟩
      rcases clean_eq_ok hclean with ⟨-, -, -, hacts', -⟩
      rw [hacts', hacts]
      simp [YamlAt.acts, YamlAt.ruleSection_of_endsRules hend, hend, YamlAt.outputs, houtputs,
        Except.toOption]

theorem yamlParseError_ne_true (env : LoadEnv) (phase : YamlPhase) (info info' : K2hFtInfo) :
    info.yamlParseError env phase ≠ .ok (true, info') := by
  intro h
  cases phase with
  | top | mainStart =>
      cases h
  | main | ruleStart =>
      rcases bind_eq_ok.1 h with ⟨info₁, -, hresult⟩
      cases hresult
  | rule | acl =>
      rcases bind_eq_ok.1 h with ⟨info₁, -, hrest⟩
      rcases bind_eq_ok.1 hrest with ⟨info₂, -, hresult⟩
      cases hresult

/-- The rule for runs of the YAML loader: what every step keeps holds at its end. -/
theorem loadYamlEvents_rule {lib : ConfLib} {stack : YamlDataStack} {args : LoadArgs}
    {Inv : YamlPhase → K2hFtInfo → Prop} {events : List YamlRead}
    (hok : ∀ phase info, Inv phase info → PhaseOk phase)
    (hstep : ∀ p top phase' info', p.read ∈ events → Inv p.phase p.info →
      YamlDid args p (.continue top phase') info' → Inv phase' info')
    {env : LoadEnv} {top : YamlTop} {phase : YamlPhase} {info info' : K2hFtInfo}
    (hinv : Inv phase info)
    (h : loadYamlEvents lib stack args env events top phase info = .ok (true, info')) :
    ∃ phase', Inv phase' info' ∧ inRule phase' = false := by
  induction events generalizing top phase info with
  | nil =>
      exact absurd h (yamlParseError_ne_true env phase info info')
  | cons read rest ih =>
      simp only [loadYamlEvents] at h
      split at h
      · cases h
      · rename_i result info₁ hread
        cases h
        have hdid := yamlStep_did (hok _ _ hinv) hread
        cases hdid with
        | finished hacts hrule => exact ⟨phase, hinv, hrule⟩
      · rename_i top₁ phase₁ info₁ hread
        have hrest : ∀ p top phase' info', p.read ∈ rest → Inv p.phase p.info →
            YamlDid args p (.continue top phase') info' → Inv phase' info' :=
          fun p top phase' info' hmem => hstep p top phase' info' (List.mem_cons_of_mem read hmem)
        have hinv₁ : Inv phase₁ info₁ :=
          hstep ⟨read, phase, info⟩ top₁ phase₁ info₁ List.mem_cons_self hinv
            (yamlStep_did (hok _ _ hinv) hread)
        exact ih hrest hinv₁ h

/-- The history of a run. -/
theorem loadYamlEvents_acts {lib : ConfLib} {stack : YamlDataStack} {args : LoadArgs}
    {events : List YamlRead} {env : LoadEnv} {top : YamlTop} {phase : YamlPhase}
    {info info' : K2hFtInfo} (hok : PhaseOk phase)
    (h : loadYamlEvents lib stack args env events top phase info = .ok (true, info')) :
    info'.acts =
      info.acts ++ (yamlTrace lib stack args events top phase info).flatMap (YamlAt.acts args) := by
  induction events generalizing top phase info with
  | nil =>
      exact absurd h (yamlParseError_ne_true env phase info info')
  | cons read rest ih =>
      simp only [loadYamlEvents] at h
      split at h
      · cases h
      · rename_i result info₁ hread
        cases h
        have hdid := yamlStep_did hok hread
        cases hdid with
        | finished hacts hrule =>
            simp [yamlTrace, hread, hacts]
      · rename_i top₁ phase₁ info₁ hread
        have hdid := yamlStep_did hok hread
        rw [ih hdid.phaseOk h, hdid.acts_eq]
        simp [yamlTrace, hread]

end K2hFtInfo

end K2hFtFuse
