import K2hFtFuse.Info.Entries

/-!
# Info.Failed — what a load that failed leaves

In an INI file and in the `K2HFTFUSE` mapping of a YAML stream, a failure cleans, but `Clean` forgets
some settings; `LoadYamlTopLevel` does not clean at all. A load that failed leaves nothing of what it
read (`LeavesNothing`) exactly when every further load goes on as on a new object
(`failed_load_traceless_iff`).
-/

namespace K2hFtFuse

open ByteSeq SpinLock Outcome

/-! ## What a load reads -/

/-- What a load reads, as far as a failure can leave of it: a key of a main section, a finished rule
section, the end of rule sections whose outputs are refused. -/
inductive LoadRead
  | key (e : MainEntry)
  | rule (target : Bytes)
  | lost

namespace LoadRead

/-- What is read does this to the settings. -/
def settle (lib : ConfLib) (info : K2hFtInfo) : LoadRead → K2hFtInfo
  | .key e => (e.load lib info).2
  | .rule _ => info
  | .lost => info.resetMain

/-- The settings after everything was read. -/
def settings (lib : ConfLib) (reads : List LoadRead) : K2hFtInfo :=
  reads.foldl (settle lib) (K2hFtInfo.start none)

/-- What is read does this to the rules that are there. -/
def collect (targets : List Bytes) : LoadRead → List Bytes
  | .key _ => targets
  | .rule target => targets ++ [target]
  | .lost => []

/-- The targets of the rule sections after the last one that was refused. -/
def targets (reads : List LoadRead) : List Bytes := reads.foldl collect []

def entry? : LoadRead → Option MainEntry
  | .key e => some e
  | _ => none

def entries (reads : List LoadRead) : List MainEntry := reads.filterMap entry?

end LoadRead

/-- A line of a main section. -/
def IniLine.entry (lib : ConfLib) (line : IniLine) : MainEntry :=
  { env := line.env
    is := fun name => name == (parseIniLine lib line.text).1
    value := (parseIniLine lib line.text).2 }

/-- The entries of a main section, up to one that is refused. -/
def iniEntries (lib : ConfLib) : List IniLine → List MainEntry
  | [] => []
  | line :: rest =>
      if ((line.entry lib).load lib (K2hFtInfo.start none)).1 then
        line.entry lib :: iniEntries lib rest
      else
        [line.entry lib]

/-- The entries of the first main section. -/
def mainEntries (lib : ConfLib) : List IniSection → List MainEntry
  | [] => []
  | sec :: rest =>
      if sec.header.text = INI_K2HFT_MAIN_SEC_STR then iniEntries lib sec.body
      else mainEntries lib rest

/-- What the YAML loader reads with an event. -/
def YamlAt.loadRead (args : LoadArgs) (p : YamlAt) : Option LoadRead :=
  match p.phase, p.read.event with
  | .main key, .scalar value =>
      if key = [] then none
      else
        some (.key
          { env := p.read.env
            is := fun name => strcasecmp name key
            value := value })
  | .rule _, _ =>
      match p.ruleSection args with
      | some (_, rule) => some (.rule rule.TargetPath)
      | none => if p.refuses args then some .lost else none
  | _, _ => none

/-- A failure in the `K2HFTFUSE` mapping cleans, one outside of it does not. -/
def YamlPhase.cleans : YamlPhase → Bool
  | .top | .mainStart => false
  | _ => true

namespace K2hFtInfo

/-- Where the YAML loader stands when it stops. -/
def yamlStop (lib : ConfLib) (stack : YamlDataStack) (args : LoadArgs) :
    List YamlRead → YamlTop → YamlPhase → K2hFtInfo → YamlPhase
  | [], _, phase, _ => phase
  | read :: rest, top, phase, info =>
      match yamlStep lib stack args read.env top phase read.event info with
      | .ok (.continue top phase, info) => yamlStop lib stack args rest top phase info
      | _ => phase

end K2hFtInfo

namespace ConfSource

/-- What is read of a configuration. -/
def reads (lib : ConfLib) (stack : YamlDataStack) (args : LoadArgs) (config : Bytes)
    (info : K2hFtInfo) (source : ConfSource) : List LoadRead :=
  match source with
  | .ini (some lines) _ =>
      if config = [] then [] else (mainEntries lib (iniSections lines)).map .key
  | .yaml _ _ => (source.trace lib stack args info).filterMap (YamlAt.loadRead args)
  | _ => []

/-- A failure cleans. -/
def cleans (lib : ConfLib) (stack : YamlDataStack) (args : LoadArgs) (info : K2hFtInfo) :
    ConfSource → Bool
  | .yaml (some events) _ => (K2hFtInfo.yamlStop lib stack args events YamlTop.fresh .top info).cleans
  | _ => true

end ConfSource

/-- What a load that failed read is nothing that stays. -/
structure LeavesNothing (lib : ConfLib) (reads : List LoadRead) (cleans : Bool) : Prop where
  forgotten : ForgottenUnset lib (LoadRead.entries reads)
  uncleaned : cleans = false →
    K2hFtInfo.SameMain (LoadRead.settings lib reads).resetMain (LoadRead.settings lib reads) ∧
      LoadRead.targets reads = []

/-! ## What the operations of a load leave -/

namespace K2hFtInfo

/-- Nothing was loaded, and no operation runs. -/
structure Idle (info : K2hFtInfo) : Prop where
  Config : info.Config = []
  DirMode : info.DirMode = 0
  DirUid : info.DirUid = 0
  DirGid : info.DirGid = 0
  prule_lockval : info.prule_lockval = false
  freedRules : info.freedRules = []

/-- The settings are those that were read. -/
def Settled (lib : ConfLib) (reads : List LoadRead) (info : K2hFtInfo) : Prop :=
  ∃ RuleMap InitTime acts, info = (LoadRead.settings lib reads).withRules RuleMap InitTime acts

/-- Everything that `Clean` names is as in a new object. -/
def Wiped (lib : ConfLib) (reads : List LoadRead) (info : K2hFtInfo) : Prop :=
  ∃ InitTime acts, info = (LoadRead.settings lib reads).resetMain.withRules ∅ InitTime acts

section Operations

variable {lib : ConfLib} {reads : List LoadRead} {args : LoadArgs} {env : LoadEnv}
  {info info' : K2hFtInfo}

theorem idle_ite {c : Prop} [Decidable c] {x y : Bool × K2hFtInfo} (hx : Idle x.2) (hy : Idle y.2) :
    Idle (if c then x else y).2 := by
  split
  · exact hx
  · exact hy

theorem Idle.of_same (h : Idle info) (hconfig : info'.Config = info.Config)
    (hmode : info'.DirMode = info.DirMode) (huid : info'.DirUid = info.DirUid)
    (hgid : info'.DirGid = info.DirGid) (hlock : info'.prule_lockval = info.prule_lockval)
    (hfreed : info'.freedRules = info.freedRules) : Idle info' :=
  ⟨hconfig.trans h.Config, hmode.trans h.DirMode, huid.trans h.DirUid, hgid.trans h.DirGid,
    hlock.trans h.prule_lockval, hfreed.trans h.freedRules⟩

theorem Idle.load (h : Idle info) (e : MainEntry) : Idle (e.load lib info).2 := by
  unfold MainEntry.load loadMainKey
  -- the keys in their order, each a write to one setting
  repeat' first | refine idle_ite ?_ ?_ | exact h.of_same rfl rfl rfl rfl rfl rfl
  · cases e.env.checkPathRealPath e.value <;> exact h.of_same rfl rfl rfl rfl rfl rfl
  · cases nonnegative e.value <;> exact h.of_same rfl rfl rfl rfl rfl rfl
  · cases nonnegative e.value <;> exact h.of_same rfl rfl rfl rfl rfl rfl

theorem settings_append_singleton (lib : ConfLib) (reads : List LoadRead) (r : LoadRead) :
    LoadRead.settings lib (reads ++ [r]) = r.settle lib (LoadRead.settings lib reads) := by
  simp [LoadRead.settings]

theorem settings_idle (lib : ConfLib) (reads : List LoadRead) :
    Idle (LoadRead.settings lib reads) := by
  induction reads using List.reverseRecOn with
  | nil =>
      exact ⟨rfl, rfl, rfl, rfl, rfl, rfl⟩
  | append_singleton reads r ih =>
      rw [settings_append_singleton]
      cases r with
      | key e => exact ih.load e
      | rule target => exact ih
      | lost => exact ih.of_same rfl rfl rfl rfl rfl rfl

theorem settings_readForgotten (lib : ConfLib) (reads : List LoadRead) :
    ReadForgotten lib (LoadRead.entries reads) (LoadRead.settings lib reads) := by
  induction reads using List.reverseRecOn with
  | nil =>
      exact ⟨rfl, rfl, rfl⟩
  | append_singleton reads r ih =>
      rw [settings_append_singleton, LoadRead.entries, List.filterMap_append]
      -- only a key is an entry; refused outputs reset other settings than these
      cases r with
      | key e =>
          exact ih.load e
      | rule target =>
          rw [show [LoadRead.rule target].filterMap LoadRead.entry? = [] from rfl, List.append_nil]
          exact ih
      | lost =>
          rw [show [LoadRead.lost].filterMap LoadRead.entry? = [] from rfl, List.append_nil]
          exact ⟨ih.IsBinaryMode, ih.ExpireTime, ih.limits⟩

theorem Settled.idle (h : Settled lib reads info) :
    info.prule_lockval = false ∧ info.freedRules = [] := by
  rcases h with ⟨RuleMap, InitTime, acts, rfl⟩
  have hidle := settings_idle lib reads
  exact ⟨hidle.prule_lockval, hidle.freedRules⟩

theorem Settled.clean {now : Option Timespec} (h : Settled lib reads info)
    (hclean : info.clean now = .ok info') : Wiped lib reads info' := by
  rw [clean_eq_cleaned h.idle.1 h.idle.2] at hclean
  rcases h with ⟨RuleMap, InitTime, acts, rfl⟩
  rcases settings_idle lib reads with ⟨hconfig, hmode, huid, hgid, hfree, hlive⟩
  refine ⟨now.getD InitTime, acts ++ [.clean], ?_⟩
  -- what `Clean` writes beside the settings was never written in a load that goes on
  rw [← Except.ok.inj hclean]
  simp only [cleaned, act, resetMain, withRules, hconfig, hmode, huid, hgid, hfree]

theorem Wiped.settled_lost (h : Wiped lib reads info) : Settled lib (reads ++ [.lost]) info := by
  rcases h with ⟨InitTime, acts, rfl⟩
  refine ⟨∅, InitTime, acts, ?_⟩
  rw [settings_append_singleton]
  rfl

theorem Wiped.clean {now : Option Timespec} (h : Wiped lib reads info)
    (hclean : info.clean now = .ok info') : Wiped lib reads info' := by
  rcases h.settled_lost.clean hclean with ⟨InitTime, acts, rfl⟩
  refine ⟨InitTime, acts, ?_⟩
  rw [settings_append_singleton]
  rfl

theorem Settled.load (h : Settled lib reads info) (e : MainEntry) :
    Settled lib (reads ++ [.key e]) (e.load lib info).2 := by
  rcases h with ⟨RuleMap, InitTime, acts, rfl⟩
  refine ⟨RuleMap, InitTime, acts, ?_⟩
  rw [settings_append_singleton]
  unfold MainEntry.load
  rw [loadMainKey_withRules]
  rfl

theorem Settled.register (h : Settled lib reads info) (acl : List AclEntry) (rule : K2hFtRule) :
    Settled lib reads (info.register acl rule) := by
  have hlive := h.idle.2
  rcases h with ⟨RuleMap, InitTime, acts, rfl⟩
  refine ⟨RuleMap.insert rule.TargetPath rule, InitTime, acts ++ [.register acl rule], ?_⟩
  simp only [withRules] at hlive
  simp only [K2hFtInfo.register, setRule, act, withRules, hlive, List.filter_nil]

theorem initializeOutputFiles_withRules {result : Bool}
    (h : info.initializeOutputFiles args env = .ok (result, info')) :
    ∃ RuleMap, info' = info.withRules RuleMap info.InitTime (info.acts ++ [.output result]) := by
  rcases bind_eq_ok.1 h with ⟨-, -, hrest⟩
  rcases bind_eq_ok.1 hrest with ⟨outputs, -, hresult⟩
  cases outputs with
  | none =>
      cases hresult
      exact ⟨info.RuleMap, rfl⟩
  | some RuleMap =>
      cases hresult
      exact ⟨RuleMap, rfl⟩

theorem checkBinaryMode_withRules (h : info.checkBinaryMode = .ok info') :
    ∃ RuleMap acts, info' = info.withRules RuleMap info.InitTime acts := by
  unfold K2hFtInfo.checkBinaryMode at h
  split at h
  · cases h
    exact ⟨info.RuleMap, info.acts ++ [.binary false], rfl⟩
  · rcases bind_eq_ok.1 h with ⟨-, -, hresult⟩
    cases hresult
    exact ⟨info.RuleMap.mapVals clearPatterns, info.acts ++ [.binary true], rfl⟩

theorem Settled.withRules (h : Settled lib reads info) (RuleMap : OrdMap Bytes K2hFtRule)
    (InitTime : Timespec) (acts : List LoadAct) :
    Settled lib reads (info.withRules RuleMap InitTime acts) := by
  rcases h with ⟨RuleMap', InitTime', acts', rfl⟩
  exact ⟨RuleMap, InitTime, acts, rfl⟩

theorem Settled.initializeOutputFiles {result : Bool} (h : Settled lib reads info)
    (houtputs : info.initializeOutputFiles args env = .ok (result, info')) :
    Settled lib reads info' := by
  rcases initializeOutputFiles_withRules houtputs with ⟨RuleMap, rfl⟩
  exact h.withRules _ _ _

theorem Settled.checkBinaryMode (h : Settled lib reads info)
    (hbinary : info.checkBinaryMode = .ok info') : Settled lib reads info' := by
  rcases checkBinaryMode_withRules hbinary with ⟨RuleMap, acts, rfl⟩
  exact h.withRules _ _ _

/-- Preparing the outputs adds no rule and takes none away. -/
theorem initializeOutputFiles_empty_iff {result : Bool}
    (h : info.initializeOutputFiles args env = .ok (result, info')) :
    info'.RuleMap = ∅ ↔ info.RuleMap = ∅ := by
  rcases initializeOutputFiles_eq_ok h with ⟨-, -, -, -, hfind⟩
  have hnone : ∀ target, info'.RuleMap.find? target = none ↔ info.RuleMap.find? target = none := by
    intro target
    rw [← Option.map_eq_none_iff (f := filterOf), hfind, Option.map_eq_none_iff]
  simp only [OrdMap.eq_empty_iff, hnone]

theorem checkBinaryMode_empty_iff (h : info.checkBinaryMode = .ok info') :
    info'.RuleMap = ∅ ↔ info.RuleMap = ∅ := by
  rcases checkBinaryMode_eq_ok h with ⟨-, -, -, hmap⟩
  rw [hmap]
  cases info.IsBinaryMode with
  | false => rfl
  | true => simp only [replayStep, if_true, OrdMap.eq_empty_iff, OrdMap.find?_mapVals,
      Option.map_eq_none_iff]

theorem fst_ite {c : Prop} [Decidable c] {x y x' y' : Bool × K2hFtInfo} (hx : x.1 = x'.1)
    (hy : y.1 = y'.1) : (if c then x else y).1 = (if c then x' else y').1 := by
  split
  · exact hx
  · exact hy

/-- Whether a key is accepted does not depend on the settings. -/
theorem load_fst (lib : ConfLib) (e : MainEntry) (info info' : K2hFtInfo) :
    (e.load lib info).1 = (e.load lib info').1 := by
  unfold MainEntry.load loadMainKey
  repeat' first | refine fst_ite ?_ ?_ | rfl
  · cases e.env.checkPathRealPath e.value <;> rfl
  · cases nonnegative e.value <;> rfl
  · cases nonnegative e.value <;> rfl

theorem settled_start (lib : ConfLib) (now : Option Timespec) : Settled lib [] (start now) :=
  ⟨∅, now.getD common_init_time, [], rfl⟩

theorem wiped_start (lib : ConfLib) (now : Option Timespec) : Wiped lib [] (start now) :=
  ⟨now.getD common_init_time, [], rfl⟩

end Operations

/-! ## A load of an INI file -/

/-- What is left after a part of a load: it goes on with the settings that were read, or everything
was cleaned. -/
def EndsIn (lib : ConfLib) (reads : List LoadRead) : Bool × K2hFtInfo → Prop
  | (true, info) => Settled lib reads info
  | (false, info) => Wiped lib reads info

section Ini

variable {lib : ConfLib} {reads : List LoadRead} {args : LoadArgs} {info : K2hFtInfo}
  {result : Bool × K2hFtInfo}

/-- `Clean()` with the result false. -/
theorem Settled.endsIn_clean {now : Option Timespec} (h : Settled lib reads info)
    (hclean : (do
      let info ← info.clean now
      return (false, info)) = .ok result) : EndsIn lib reads result := by
  rcases bind_eq_ok.1 hclean with ⟨info', hwiped, hresult⟩
  cases hresult
  exact h.clean hwiped

theorem loadIniMainLines_endsIn {body : List IniLine} (h : Settled lib reads info)
    (hload : loadIniMainLines lib body info = .ok result) :
    EndsIn lib (reads ++ (iniEntries lib body).map .key) result := by
  induction body generalizing info reads with
  | nil =>
      cases hload
      rw [iniEntries, List.map_nil, List.append_nil]
      exact h
  | cons line rest ih =>
      have hnext := h.load (line.entry lib)
      have haccepts := load_fst lib (line.entry lib) info (start none)
      rcases hkey : (line.entry lib).load lib info with ⟨ok, info₁⟩
      have hline : info.loadMainKey lib line.env
          (fun name => name == (parseIniLine lib line.text).1) (parseIniLine lib line.text).2 =
            (ok, info₁) := hkey
      rw [hkey] at hnext haccepts
      simp only [loadIniMainLines, hline] at hload
      simp only [iniEntries, ← haccepts]
      cases ok with
      | false =>
          -- the refused line was read, and no further one
          exact hnext.endsIn_clean hload
      | true =>
          have hrest := ih hnext hload
          simpa using hrest

theorem loadIniSections_endsIn {secs : List IniSection} {set_main_sec : Bool}
    (h : Settled lib reads info)
    (hload : loadIniSections lib args secs set_main_sec info = .ok result) :
    EndsIn lib (reads ++ if set_main_sec then [] else (mainEntries lib secs).map .key) result := by
  induction secs generalizing set_main_sec info reads with
  | nil =>
      cases hload
      have hnil : (if set_main_sec then [] else (mainEntries lib []).map LoadRead.key) = [] := by
        split <;> rfl
      rw [hnil, List.append_nil]
      exact h
  | cons sec rest ih =>
      simp only [loadIniSections] at hload
      by_cases hmain : sec.header.text = INI_K2HFT_MAIN_SEC_STR
      · rw [if_pos hmain] at hload
        cases set_main_sec with
        | true =>
            -- a second main section
            rw [if_pos rfl, List.append_nil]
            exact h.endsIn_clean hload
        | false =>
            simp only [Bool.false_eq_true, if_false] at hload
            simp only [mainEntries, if_pos hmain, Bool.false_eq_true, if_false]
            rcases bind_eq_ok.1 hload with ⟨⟨ok, info₁⟩, hlines, hnext⟩
            have hread := loadIniMainLines_endsIn h hlines
            cases ok with
            | false =>
                cases hnext
                exact hread
            | true =>
                simp only [Bool.not_true, Bool.false_eq_true, if_false] at hnext
                split at hnext
                · exact Settled.endsIn_clean hread hnext
                · -- the rest has no further main section that is read
                  have hrest := ih hread hnext
                  rwa [if_pos rfl, List.append_nil] at hrest
      · rw [if_neg hmain] at hload
        simp only [mainEntries, if_neg hmain]
        split at hload
        · -- a rule changes no setting
          exact ih (h.register _ _) hload
        · exact ih h hload

theorem finishIni_wiped {conffile : Bytes} {env : LoadEnv} {info' : K2hFtInfo}
    (h : Settled lib reads info) (hload : finishIni args conffile env info = .ok (false, info')) :
    Wiped lib reads info' := by
  unfold finishIni at hload
  split at hload
  · exact h.endsIn_clean hload
  · rcases bind_eq_ok.1 hload with ⟨⟨ok, info₁⟩, houtputs, hnext⟩
    cases ok with
    | false =>
        exact (h.initializeOutputFiles houtputs).endsIn_clean hnext
    | true =>
        rcases bind_eq_ok.1 hnext with ⟨info₂, -, hresult⟩
        cases hresult

/-- A load of an INI file that failed. -/
theorem loadIni_wiped {config : Bytes} {lines : Option (List IniLine)} {env : LoadEnv}
    {now : Option Timespec} (stack : YamlDataStack)
    (hload : loadIni lib args config lines env (start now) = .ok (false, info)) :
    Wiped lib ((ConfSource.ini lines env).reads lib stack args config (start now)) info := by
  unfold loadIni at hload
  by_cases hconfig : config = []
  · rw [if_pos hconfig] at hload
    cases hload
    have hreads : (ConfSource.ini lines env).reads lib stack args config (start now) = [] := by
      cases lines with
      | none => rfl
      | some lines => exact if_pos hconfig
    rw [hreads]
    exact wiped_start lib now
  · rw [if_neg hconfig, if_neg (by simp [start])] at hload
    cases lines with
    | none =>
        cases hload
        exact wiped_start lib now
    | some lines =>
        rcases bind_eq_ok.1 hload with ⟨⟨ok, info₁⟩, hsections, hnext⟩
        have hread := loadIniSections_endsIn (settled_start lib now) hsections
        simp only [ConfSource.reads, if_neg hconfig]
        cases ok with
        | false =>
            cases hnext
            exact hread
        | true =>
            exact finishIni_wiped hread hnext

end Ini

/-! ## A load of a YAML stream -/

/-- The settings are those that were read, and there are rules where sections were read. -/
structure Left (lib : ConfLib) (reads : List LoadRead) (info : K2hFtInfo) : Prop where
  settled : Settled lib reads info
  rules : info.RuleMap = ∅ ↔ LoadRead.targets reads = []

/-- What a failure leaves. -/
def FailLeaves (lib : ConfLib) (reads : List LoadRead) (cleans : Bool) (info : K2hFtInfo) : Prop :=
  if cleans then Wiped lib reads info else Left lib reads info

/-- What a step leaves, by how the loader goes on. -/
def StepLeaves (lib : ConfLib) (reads : List LoadRead) (cleans : Bool) :
    YamlNext × K2hFtInfo → Prop
  | (.continue _ _, info) => Left lib reads info
  | (.done true, _) => True
  | (.done false, info) => FailLeaves lib reads cleans info

section Yaml

variable {lib : ConfLib} {stack : YamlDataStack} {reads : List LoadRead} {args : LoadArgs}
  {env : LoadEnv} {top : YamlTop} {event : YamlEvent} {info : K2hFtInfo}
  {result : YamlNext × K2hFtInfo}

theorem targets_append_singleton (reads : List LoadRead) (r : LoadRead) :
    LoadRead.targets (reads ++ [r]) = r.collect (LoadRead.targets reads) := by
  simp [LoadRead.targets]

theorem Left.load (h : Left lib reads info) (e : MainEntry) :
    Left lib (reads ++ [.key e]) (e.load lib info).2 := by
  refine ⟨h.settled.load e, ?_⟩
  rw [targets_append_singleton, MainEntry.load, (loadMainKey_sameRules lib e.env e.is e.value info).RuleMap]
  exact h.rules

theorem Left.register (h : Left lib reads info) (acl : List AclEntry) (rule : K2hFtRule) :
    Left lib (reads ++ [.rule rule.TargetPath]) (info.register acl rule) := by
  rcases h.settled.register acl rule with ⟨RuleMap, InitTime, acts, hinfo⟩
  refine ⟨⟨RuleMap, InitTime, acts, ?_⟩, ?_⟩
  · rw [hinfo, settings_append_singleton]
    rfl
  · rw [targets_append_singleton]
    have hrules : (info.register acl rule).RuleMap ≠ ∅ := OrdMap.insert_ne_empty _ _ _
    simp [hrules, LoadRead.collect]

theorem Wiped.left_lost (h : Wiped lib reads info) : Left lib (reads ++ [.lost]) info := by
  refine ⟨h.settled_lost, ?_⟩
  rcases h with ⟨InitTime, acts, rfl⟩
  rw [targets_append_singleton]
  exact iff_of_true rfl rfl

theorem failYamlMain_leaves {n : Nat}
    (hclean : ∀ {now info'}, info.clean now = .ok info' → Wiped lib reads info')
    (h : info.failYamlMain env n = .ok result) : StepLeaves lib reads true result := by
  rcases bind_eq_ok.1 h with ⟨info', hwiped, hresult⟩
  cases hresult
  exact hclean hwiped

theorem Left.failYamlMain {n : Nat} (h : Left lib reads info)
    (hfail : info.failYamlMain env n = .ok result) : StepLeaves lib reads true result :=
  failYamlMain_leaves h.settled.clean hfail

theorem Left.failYamlRule (h : Left lib reads info) (hfail : info.failYamlRule env = .ok result) :
    StepLeaves lib reads true result := by
  rcases bind_eq_ok.1 hfail with ⟨info', hwiped, hmain⟩
  exact failYamlMain_leaves (h.settled.clean hwiped).clean hmain

/-- Nothing is read that could stay. -/
theorem stepLeaves_nothing {p : YamlAt} {cleans : Bool} (hnone : p.loadRead args = none)
    (h : StepLeaves lib reads cleans result) :
    StepLeaves lib (reads ++ (p.loadRead args).toList) cleans result := by
  rw [hnone, Option.toList_none, List.append_nil]
  exact h

theorem yamlAclStep_leaves {is_key_allow : Bool} {sec : YamlRule} {phase : YamlAclPhase}
    (h : Left lib reads info)
    (hstep : yamlAclStep env top is_key_allow sec phase event info = .ok result) :
    StepLeaves lib reads true result := by
  unfold yamlAclStep at hstep
  split at hstep
  case h_9 => exact h.failYamlRule hstep
  all_goals
    cases hstep
    exact h

theorem yamlRuleScalar_leaves {sec : YamlRule} {value : Bytes} (h : Left lib reads info)
    (hstep : yamlRuleScalar lib env top sec value info = .ok result) :
    StepLeaves lib reads true result := by
  unfold yamlRuleScalar at hstep
  split at hstep
  · split at hstep <;> cases hstep <;> exact h
  · split at hstep
    · split at hstep <;> cases hstep
      exact h
    · cases hstep
      exact h

/-- The end of a rule section. -/
theorem yamlMappingEnd_leaves {sec : YamlRule} (h : Left lib reads info)
    (hstep : yamlRuleStep lib args env top sec .mappingEnd info = .ok result) :
    StepLeaves lib
      (reads ++ (YamlAt.loadRead args ⟨⟨.mappingEnd, env⟩, .rule sec, info⟩).toList) true result := by
  simp only [yamlRuleStep] at hstep
  cases hin : sec.in_mapping with
  | false =>
      simp only [hin, Bool.not_false, if_true] at hstep
      refine stepLeaves_nothing ?_ (h.failYamlRule hstep)
      simp [YamlAt.loadRead, YamlAt.ruleSection, YamlAt.refuses, YamlAt.endsRules, hin]
  | true =>
      simp only [hin, Bool.not_true, Bool.false_eq_true, if_false] at hstep
      cases hrule : sec.pTmpRule with
      | none =>
          simp [hrule] at hstep
      | some pTmpRule =>
          simp only [hrule] at hstep
          cases hstep
          simp only [YamlAt.loadRead, YamlAt.ruleSection, hin, hrule, if_true, Option.map_some]
          exact h.register _ _

/-- The end of a sequence of rule sections: the rules are prepared, or everything is lost. -/
theorem yamlSequenceEnd_leaves {sec : YamlRule} (h : Left lib reads info)
    (hstep : yamlRuleStep lib args env top sec .sequenceEnd info = .ok result) :
    StepLeaves lib
      (reads ++ (YamlAt.loadRead args ⟨⟨.sequenceEnd, env⟩, .rule sec, info⟩).toList) true result := by
  simp only [yamlRuleStep] at hstep
  cases hin : sec.in_mapping with
  | true =>
      simp only [hin, if_true] at hstep
      refine stepLeaves_nothing ?_ (h.failYamlRule hstep)
      simp [YamlAt.loadRead, YamlAt.ruleSection, YamlAt.refuses, YamlAt.endsRules, hin]
  | false =>
      simp only [hin, Bool.false_eq_true, if_false] at hstep
      rcases bind_eq_ok.1 hstep with ⟨⟨ok, info₁⟩, houtputs, hnext⟩
      have hsettled := h.settled.initializeOutputFiles houtputs
      cases ok with
      | false =>
          -- the result of the section stays true, so this is no failure but a loss
          rcases bind_eq_ok.1 hnext with ⟨info₂, hclean, hresult⟩
          cases hresult
          simp only [YamlAt.loadRead, YamlAt.ruleSection, YamlAt.refuses, YamlAt.endsRules,
            YamlAt.outputs, hin, houtputs, Except.toOption, Option.map_some, Bool.not_false,
            Bool.true_and, beq_self_eq_true, if_true]
          exact (hsettled.clean hclean).left_lost
      | true =>
          rcases bind_eq_ok.1 hnext with ⟨info₂, hbinary, hresult⟩
          cases hresult
          refine stepLeaves_nothing ?_ ⟨hsettled.checkBinaryMode hbinary, ?_⟩
          · simp [YamlAt.loadRead, YamlAt.ruleSection, YamlAt.refuses, YamlAt.endsRules,
              YamlAt.outputs, hin, houtputs, Except.toOption]
          · rw [checkBinaryMode_empty_iff hbinary, initializeOutputFiles_empty_iff houtputs]
            exact h.rules

theorem yamlRuleStep_leaves {sec : YamlRule} (h : Left lib reads info)
    (hstep : yamlRuleStep lib args env top sec event info = .ok result) :
    StepLeaves lib
      (reads ++ (YamlAt.loadRead args ⟨⟨event, env⟩, .rule sec, info⟩).toList) true result := by
  cases event with
  | mappingStart =>
      apply stepLeaves_nothing rfl
      simp only [yamlRuleStep] at hstep
      split at hstep
      · exact h.failYamlRule hstep
      · cases hstep
        exact h
  | mappingEnd =>
      exact yamlMappingEnd_leaves h hstep
  | sequenceEnd =>
      exact yamlSequenceEnd_leaves h hstep
  | scalar value =>
      exact stepLeaves_nothing rfl (yamlRuleScalar_leaves h hstep)
  | noEvent | streamStart | streamEnd | documentStart | documentEnd | sequenceStart | aliasNode =>
      exact stepLeaves_nothing rfl (h.failYamlRule hstep)

theorem yamlMainStep_leaves {key : Bytes} (h : Left lib reads info)
    (hstep : yamlMainStep lib env top key event info = .ok result) :
    StepLeaves lib
      (reads ++ (YamlAt.loadRead args ⟨⟨event, env⟩, .main key, info⟩).toList) true result := by
  cases event with
  | mappingEnd =>
      apply stepLeaves_nothing rfl
      simp only [yamlMainStep] at hstep
      split at hstep
      · cases hstep
        exact h
      · exact h.failYamlMain hstep
  | scalar value =>
      simp only [yamlMainStep] at hstep
      by_cases hempty : key = []
      · refine stepLeaves_nothing (by simp [YamlAt.loadRead, hempty]) ?_
        rw [if_pos hempty] at hstep
        split at hstep <;> cases hstep <;> exact h
      · rw [if_neg hempty] at hstep
        have hnext := h.load ⟨env, fun name => strcasecmp name key, value⟩
        simp only [YamlAt.loadRead, if_neg hempty, Option.toList_some]
        unfold MainEntry.load at hnext
        rcases hkey : info.loadMainKey lib env (fun name => strcasecmp name key) value with ⟨ok, info₁⟩
        rw [hkey] at hnext hstep
        cases ok with
        | false =>
            exact hnext.failYamlMain hstep
        | true =>
            cases hstep
            exact hnext
  | noEvent | streamStart | streamEnd | documentStart | documentEnd | mappingStart | sequenceStart
  | sequenceEnd | aliasNode =>
      exact stepLeaves_nothing rfl (h.failYamlMain hstep)

/-- One event. -/
theorem yamlStep_leaves {phase : YamlPhase} (h : Left lib reads info)
    (hstep : yamlStep lib stack args env top phase event info = .ok result) :
    StepLeaves lib (reads ++ (YamlAt.loadRead args ⟨⟨event, env⟩, phase, info⟩).toList) phase.cleans
      result := by
  cases phase with
  | top =>
      apply stepLeaves_nothing rfl
      cases hstep
      cases yamlTopStep stack top event with
      | «continue» top phase => exact h
      | done ok =>
          cases ok with
          | false => exact h
          | true => trivial
  | mainStart =>
      apply stepLeaves_nothing rfl
      simp only [yamlStep] at hstep
      split at hstep <;> cases hstep <;> exact h
  | main key =>
      exact yamlMainStep_leaves h hstep
  | ruleStart =>
      apply stepLeaves_nothing rfl
      simp only [yamlStep] at hstep
      split at hstep
      · cases hstep
        exact h
      · exact h.failYamlMain hstep
  | rule sec =>
      exact yamlRuleStep_leaves h hstep
  | acl is_key_allow sec aclPhase =>
      exact stepLeaves_nothing rfl (yamlAclStep_leaves h hstep)

theorem yamlParseError_leaves {phase : YamlPhase} {ok : Bool} {info' : K2hFtInfo}
    (h : Left lib reads info) (herror : info.yamlParseError env phase = .ok (ok, info')) :
    FailLeaves lib reads phase.cleans info' := by
  cases phase with
  | top | mainStart =>
      cases herror
      exact h
  | main | ruleStart =>
      rcases bind_eq_ok.1 herror with ⟨info₁, hclean, hresult⟩
      cases hresult
      exact h.settled.clean hclean
  | rule | acl =>
      rcases bind_eq_ok.1 herror with ⟨info₁, hclean, hrest⟩
      rcases bind_eq_ok.1 hrest with ⟨info₂, hclean', hresult⟩
      cases hresult
      exact (h.settled.clean hclean).clean hclean'

/-- A run that failed, from where the loader stands. -/
theorem loadYamlEvents_leaves {events : List YamlRead} {phase : YamlPhase} {info' : K2hFtInfo}
    (h : Left lib reads info)
    (hload : loadYamlEvents lib stack args env events top phase info = .ok (false, info')) :
    FailLeaves lib
      (reads ++ (yamlTrace lib stack args events top phase info).filterMap (YamlAt.loadRead args))
      (yamlStop lib stack args events top phase info).cleans info' := by
  induction events generalizing top phase info reads with
  | nil =>
      have hleft := yamlParseError_leaves h hload
      simpa [yamlTrace, yamlStop] using hleft
  | cons read rest ih =>
      simp only [loadYamlEvents] at hload
      have hfirst : ∀ trace : List YamlAt,
          reads ++ ((⟨read, phase, info⟩ : YamlAt) :: trace).filterMap (YamlAt.loadRead args) =
            reads ++ (YamlAt.loadRead args ⟨read, phase, info⟩).toList ++
              trace.filterMap (YamlAt.loadRead args) := by
        intro trace
        rw [List.filterMap_cons]
        cases YamlAt.loadRead args ⟨read, phase, info⟩ <;> simp
      split at hload
      · cases hload
      · -- the loader stops with this event
        rename_i ok info₁ hstep
        cases hload
        have hleaves := yamlStep_leaves h hstep
        rw [yamlTrace, yamlStop, hstep, hfirst, List.filterMap_nil, List.append_nil]
        exact hleaves
      · rename_i top₁ phase₁ info₁ hstep
        have hleaves := yamlStep_leaves h hstep
        rw [yamlTrace, yamlStop, hstep, hfirst]
        exact ih hleaves hload

end Yaml

/-! ## Both loaders -/

section Load

variable {lib : ConfLib} {stack : YamlDataStack} {args : LoadArgs} {config : Bytes}
  {source : ConfSource} {now : Option Timespec} {info : K2hFtInfo} {reads : List LoadRead}

theorem left_start (lib : ConfLib) (now : Option Timespec) : Left lib [] (start now) :=
  ⟨settled_start lib now, iff_of_true rfl rfl⟩

/-- A load of a new object that failed. -/
theorem load_leaves (h : (start now).load lib stack args config source = .ok (false, info)) :
    FailLeaves lib (source.reads lib stack args config (start now))
      (source.cleans lib stack args (start now)) info := by
  cases source with
  | unknown =>
      cases h
      exact wiped_start lib now
  | ini lines env =>
      exact loadIni_wiped stack h
  | yaml events env =>
      cases events with
      | none =>
          cases h
          exact wiped_start lib now
      | some events =>
          rcases bind_eq_ok.1 h with ⟨⟨ok, info₁⟩, hevents, hresult⟩
          cases ok with
          | false =>
              cases hresult
              exact loadYamlEvents_leaves (left_start lib now) hevents
          | true =>
              cases hresult

/-! ## What follows a load that failed -/

/-- Every load goes on as on a new object of a new process. -/
def Traceless (lib : ConfLib) (stack : YamlDataStack) (now : Option Timespec) (info : K2hFtInfo) :
    Prop :=
  ∀ args config source, Related AlikeWith ((start now).load lib stack args config source)
    (info.load lib stack args config source)

/-- The settings are those of a new object, and there are no rules. -/
structure AsNew (info : K2hFtInfo) : Prop where
  main : SameMain (start none) info
  rules : info.RuleMap = ∅

theorem Alike.sameMain {info info' : K2hFtInfo} (h : Alike info info') : SameMain info info' := by
  rcases h with ⟨RuleMap, InitTime, acts, rfl, -⟩
  constructor <;> rfl

theorem Alike.empty_iff {info info' : K2hFtInfo} (h : Alike info info') :
    info'.RuleMap = ∅ ↔ info.RuleMap = ∅ := by
  rcases h with ⟨RuleMap, InitTime, acts, rfl, hrules⟩
  have hnone : ∀ target, RuleMap.find? target = none ↔ info.RuleMap.find? target = none := by
    intro target
    have hfind := congrArg (fun map : OrdMap Bytes K2hFtRule => map.find? target) hrules
    simp only [OrdMap.find?_mapVals] at hfind
    rw [← Option.map_eq_none_iff (f := K2hFtRule.timeless), hfind, Option.map_eq_none_iff]
  simp only [OrdMap.eq_empty_iff]
  exact forall_congr' hnone

theorem Idle.alike_start (h : Idle info) (hnew : AsNew info) (now : Option Timespec) :
    Alike (start now) info := by
  refine ⟨∅, info.InitTime, info.acts, ?_, rfl⟩
  rcases h with ⟨hconfig, hmode, huid, hgid, hlock, hfreed⟩
  rcases hnew with ⟨hmain, hrules⟩
  rcases hmain with ⟨h₁, h₂, h₃, h₄, h₅, h₆, h₇, h₈, h₉, h₁₀, h₁₁, h₁₂, h₁₃⟩
  -- every member is one that is idle, one that is set or one that is not compared
  rcases info with ⟨⟩
  simp only at hconfig hmode huid hgid hlock hfreed hrules h₁ h₂ h₃ h₄ h₅ h₆ h₇ h₈ h₉ h₁₀ h₁₁ h₁₂ h₁₃
  subst_vars
  rfl

/-- A stream without a `K2HFTFUSE` mapping. -/
def emptyStream (env : LoadEnv) : ConfSource :=
  .yaml (some [{ event := .streamStart, env := env }, { event := .streamEnd, env := env }]) env

theorem load_emptyStream (lib : ConfLib) (stack : YamlDataStack) (args : LoadArgs) (config : Bytes)
    (env : LoadEnv) (info : K2hFtInfo) :
    info.load lib stack args config (emptyStream env) = .ok (true, info.setLoaded args config) :=
  rfl

/-- No trace is left exactly when the object is as a new one: a stream without a `K2HFTFUSE` mapping
shows every setting and every rule that is left. -/
theorem traceless_iff_asNew (hidle : Idle info) : Traceless lib stack now info ↔ AsNew info := by
  constructor
  · intro htraceless
    have hempty := htraceless plainArgs [] (emptyStream plainEnv)
    rw [load_emptyStream, load_emptyStream] at hempty
    rcases hempty.of_ok with ⟨_, heq, -, halike⟩
    obtain rfl := Except.ok.inj heq
    -- this load sets the name and the permissions only, so what it shows was there before
    refine ⟨?_, ?_⟩
    · have hmain := halike.sameMain
      exact ⟨hmain.1, hmain.2, hmain.3, hmain.4, hmain.5, hmain.6, hmain.7, hmain.8, hmain.9,
        hmain.10, hmain.11, hmain.12, hmain.13⟩
    · exact halike.empty_iff.2 rfl
  · intro hnew args config source
    exact (hidle.alike_start hnew now).load lib stack args config source

theorem FailLeaves.idle {cleans : Bool} (h : FailLeaves lib reads cleans info) : Idle info := by
  have hidle := settings_idle lib reads
  cases cleans with
  | true =>
      rcases h with ⟨InitTime, acts, rfl⟩
      exact hidle.of_same rfl rfl rfl rfl rfl rfl
  | false =>
      rcases h with ⟨⟨RuleMap, InitTime, acts, rfl⟩, -⟩
      exact hidle.of_same rfl rfl rfl rfl rfl rfl

/-- What a failure leaves is a new object exactly when nothing was read that stays. -/
theorem FailLeaves.asNew_iff {cleans : Bool} (h : FailLeaves lib reads cleans info) :
    AsNew info ↔ LeavesNothing lib reads cleans := by
  have hforgotten := (settings_readForgotten lib reads).unforgotten_iff
  cases cleans with
  | true =>
      rcases h with ⟨InitTime, acts, rfl⟩
      -- the settings that are not forgotten were set back, and the rules are gone
      constructor
      · rintro ⟨hmain, -⟩
        exact ⟨hforgotten.1 ⟨hmain.IsBinaryMode, hmain.ExpireTime, hmain.limits⟩, by simp⟩
      · rintro ⟨hunset, -⟩
        rcases hforgotten.2 hunset with ⟨hmode, hexpire, hlimits⟩
        exact ⟨⟨rfl, rfl, rfl, rfl, rfl, rfl, rfl, rfl, rfl, rfl, hmode, hexpire, hlimits⟩, rfl⟩
  | false =>
      rcases h with ⟨⟨RuleMap, InitTime, acts, rfl⟩, hrules⟩
      -- nothing was set back, so every setting that was read has to be compared
      constructor
      · rintro ⟨hmain, hempty⟩
        refine ⟨hforgotten.1 ⟨hmain.IsBinaryMode, hmain.ExpireTime, hmain.limits⟩, fun _ => ?_⟩
        exact ⟨⟨hmain.1, hmain.2, hmain.3, hmain.4, hmain.5, hmain.6, hmain.7, hmain.8, hmain.9,
          hmain.10, rfl, rfl, rfl⟩, hrules.1 hempty⟩
      · rintro ⟨hunset, huncleaned⟩
        rcases hforgotten.2 hunset with ⟨hmode, hexpire, hlimits⟩
        rcases huncleaned rfl with ⟨hmain, htargets⟩
        exact ⟨⟨hmain.1, hmain.2, hmain.3, hmain.4, hmain.5, hmain.6, hmain.7, hmain.8, hmain.9,
          hmain.10, hmode, hexpire, hlimits⟩, hrules.2 htargets⟩

end Load

/-- After a load that failed, every further load goes on as on a new object of a new process exactly
when what was read is nothing that stays: no value of its own for a setting that `Clean` forgets and,
where the load stopped without `Clean`, none for the other settings and no rule. -/
theorem failed_load_traceless_iff {lib : ConfLib} {stack : YamlDataStack} {args : LoadArgs}
    {config : Bytes} {source : ConfSource} {now : Option Timespec} {info : K2hFtInfo}
    (h : (start now).load lib stack args config source = .ok (false, info))
    (now' : Option Timespec) :
    Traceless lib stack now' info ↔
      LeavesNothing lib (source.reads lib stack args config (start now))
        (source.cleans lib stack args (start now)) := by
  have hleaves := load_leaves h
  exact (traceless_iff_asNew hleaves.idle).trans hleaves.asNew_iff

/-- A file for a memory type, which is refused after the main section. -/
def refusedFile : ConfSource :=
  iniOf ["[K2HFTFUSE]", "K2HTYPE = mem", "K2HFILE = /tmp/k2hft.k2h", "TRANSLINECNT = 0"]

theorem failed_load_traceless_iff_refusedFile : ∃ info,
    (start none).load plainLib plainStack plainArgs (ascii "/etc/k2hftfuse.ini") refusedFile =
      .ok (false, info) ∧ Traceless plainLib plainStack none info := by
  have hrun : ∃ info, (start none).load plainLib plainStack plainArgs
      (ascii "/etc/k2hftfuse.ini") refusedFile = .ok (false, info) ∧ () = () :=
    exists_of_toOption (by decide +kernel)
  rcases hrun with ⟨info, hload, -⟩
  refine ⟨info, hload, (failed_load_traceless_iff hload none).2 ⟨?_, ?_⟩⟩
  · decide +kernel
  · intro hcleans
    cases hcleans

/-- The transfer mode is read, and then a key is refused. -/
def refusedMode : ConfSource :=
  iniOf ["[K2HFTFUSE]", "BINTRANS = yes", "DTORTHREADCNT = 0"]

/-- A rule that denies `debug`, without a main section. -/
def filterIni : ConfSource :=
  iniOf ["[K2HFTFUSE_RULE]", "TARGET = log/a", "OUTPUTFILE = /var/log/a", "DEFAULTALL = ALLOW",
    "DENY = debug"]

/-- The next load is in binary mode. -/
theorem refusedMode_survives : ∃ info,
    (start none).load plainLib plainStack plainArgs (ascii "/etc/k2hftfuse.ini") refusedMode =
      .ok (false, info) ∧
    ¬ Related AlikeWith
      ((start none).load plainLib plainStack plainArgs (ascii "/etc/k2hftfuse.ini") filterIni)
      (info.load plainLib plainStack plainArgs (ascii "/etc/k2hftfuse.ini") filterIni) := by
  have hrun : ∃ info, (start none).load plainLib plainStack plainArgs
      (ascii "/etc/k2hftfuse.ini") refusedMode = .ok (false, info) ∧
        ((info.load plainLib plainStack plainArgs (ascii "/etc/k2hftfuse.ini") filterIni).toOption.map
          fun answer => answer.2.IsBinaryMode) = some true :=
    exists_of_toOption (by decide +kernel)
  have hnew : ∃ info, (start none).load plainLib plainStack plainArgs
      (ascii "/etc/k2hftfuse.ini") filterIni = .ok (true, info) ∧ info.IsBinaryMode = false :=
    exists_of_toOption (by decide +kernel)
  rcases hrun with ⟨info, hload, hmode⟩
  rcases hnew with ⟨info₂, hload₂, hmode₂⟩
  refine ⟨info, hload, ?_⟩
  intro hrelated
  rw [hload₂] at hrelated
  rcases hrelated.of_ok with ⟨⟨ok, info₃⟩, hload₃, -, halike⟩
  rw [hload₃] at hmode
  have hmode₃ : info₃.IsBinaryMode = true := Option.some.inj hmode
  have hsame : info₃.IsBinaryMode = info₂.IsBinaryMode := halike.sameMain.IsBinaryMode
  rw [hmode₃, hmode₂] at hsame
  cases hsame

end K2hFtInfo

end K2hFtFuse
