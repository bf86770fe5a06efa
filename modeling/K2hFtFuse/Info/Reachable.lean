import K2hFtFuse.Info.Listing
import K2hFtFuse.Info.Origins

/-!
# Info.Reachable — whether FUSE finds the rules of a configuration

The loaders put a rule under the value of its `TARGET` as it is. FUSE asks for paths with one `/`
before them and none behind, and `FindPath` takes the first `/` away. So a rule is found under the
path of its target exactly when the target has no `/` at its ends (`reachable_iff`).
-/

namespace K2hFtFuse

open ByteSeq SpinLock Outcome

/-! ## Targets -/

/-- A target without the slashes around it. -/
def trimSlashes (target : Bytes) : Bytes :=
  (target.dropWhile fun c => c = SLASH).rdropWhile fun c => c = SLASH

/-- The path of a target as FUSE asks for it: a C string with one `/` before it and none behind. -/
def targetPath (target : Bytes) : Bytes := cStr (SLASH :: trimSlashes target)

/-- What `TargetPath` is meant to be: not empty, and without a `/` at its ends. -/
structure Addressable (target : Bytes) : Prop where
  notEmpty : target ≠ []
  first : target.head? ≠ some SLASH
  last : target.getLast? ≠ some SLASH
  noNul : (0 : UInt8) ∉ target

theorem dropWhile_slash_eq_self_iff {target : Bytes} :
    target.dropWhile (fun c => c = SLASH) = target ↔ target.head? ≠ some SLASH := by
  cases target with
  | nil =>
      simp
  | cons c rest =>
      rw [List.dropWhile_eq_self_iff]
      simp

theorem rdropWhile_slash_eq_self_iff {target : Bytes} :
    target.rdropWhile (fun c => c = SLASH) = target ↔ target.getLast? ≠ some SLASH := by
  rcases List.eq_nil_or_concat target with rfl | ⟨rest, c, rfl⟩
  · simp
  · rw [List.concat_eq_append, List.rdropWhile_eq_self_iff]
    simp

theorem trimSlashes_eq_self_iff {target : Bytes} :
    trimSlashes target = target ↔ target.head? ≠ some SLASH ∧ target.getLast? ≠ some SLASH := by
  rw [← dropWhile_slash_eq_self_iff, ← rdropWhile_slash_eq_self_iff, trimSlashes]
  constructor
  · intro h
    -- nothing can be taken away at either end
    have hsuffix := @List.dropWhile_suffix _ target fun c => decide (c = SLASH)
    have hbegins := List.rdropWhile_prefix (fun c => decide (c = SLASH))
      (target.dropWhile fun c => c = SLASH)
    have hlen : target.length ≤ (target.dropWhile fun c => c = SLASH).length := by
      calc target.length = _ := congrArg List.length h.symm
        _ ≤ (target.dropWhile fun c => c = SLASH).length := hbegins.length_le
    have hdrop := hsuffix.eq_of_length_le hlen
    rw [hdrop] at h
    exact ⟨hdrop, h⟩
  · rintro ⟨hdrop, hrdrop⟩
    rw [hdrop, hrdrop]

theorem length_trimSlashes_le (target : Bytes) : (trimSlashes target).length ≤ target.length :=
  (List.rdropWhile_prefix _ _).length_le.trans (List.dropWhile_suffix _).length_le

theorem Addressable.trimSlashes_eq {target : Bytes} (h : Addressable target) :
    trimSlashes target = target :=
  trimSlashes_eq_self_iff.2 ⟨h.first, h.last⟩

theorem stripSlash_targetPath (target : Bytes) :
    stripSlash (targetPath target) = cStr (trimSlashes target) := by
  have hslash : SLASH ≠ 0 := by decide
  simp [stripSlash, targetPath, cStr, hslash]

/-- The path leads back to the target exactly when nothing was taken away of it. -/
theorem stripSlash_targetPath_eq_iff {target : Bytes} :
    stripSlash (targetPath target) = target ↔
      target.head? ≠ some SLASH ∧ target.getLast? ≠ some SLASH ∧ (0 : UInt8) ∉ target := by
  rw [stripSlash_targetPath]
  constructor
  · intro h
    -- the path has the length of the target, so no step took a byte away
    have hlen : (trimSlashes target).length ≤ (cStr (trimSlashes target)).length := by
      rw [h]
      exact length_trimSlashes_le target
    have hwhole : cStr (trimSlashes target) = trimSlashes target :=
      (List.takeWhile_prefix _).eq_of_length_le hlen
    have hnul := nul_notMem_cStr (trimSlashes target)
    rw [h] at hnul
    rw [hwhole] at h
    rcases trimSlashes_eq_self_iff.1 h with ⟨hfirst, hlast⟩
    exact ⟨hfirst, hlast, hnul⟩
  · rintro ⟨hfirst, hlast, hnul⟩
    rw [trimSlashes_eq_self_iff.2 ⟨hfirst, hlast⟩, cStr_eq_self hnul]

/-! ## Lookup -/

/-- An entry that the search ends at has the path as its key. -/
theorem findEntry_eq_entry {path key : Bytes} {rule : K2hFtRule}
    {entries : List (Bytes × K2hFtRule)} (h : findEntry path entries = some (.entry key rule)) :
    key = path := by
  rw [findEntry_eq] at h
  rcases Option.map_eq_some_iff.1 h with ⟨e, -, hfound⟩
  unfold foundAt at hfound
  split at hfound
  · rename_i hkey
    obtain ⟨rfl, -⟩ := Found.entry.inj hfound
    exact hkey
  · cases hfound

/-- `GetFileHandle` finds what `FindPath` finds. -/
theorem findHandle_of_findEntry {path key : Bytes} {rule : K2hFtRule}
    {entries : List (Bytes × K2hFtRule)} (h : findEntry path entries = some (.entry key rule)) :
    findHandle path entries = some key := by
  induction entries with
  | nil =>
      cases h
  | cons e rest ih =>
      rcases e with ⟨key₁, rule₁⟩
      simp only [findEntry] at h
      simp only [findHandle]
      split at h
      · rename_i hskip
        rw [if_pos hskip]
        exact ih h
      · rename_i hstarts
        rw [if_neg hstarts]
        split at h
        · rename_i hlen
          obtain ⟨rfl, -⟩ := Found.entry.inj (Option.some.inj h)
          exact if_pos hlen
        · -- the searches part only at an entry below the path
          rename_i hlen
          rw [if_neg hlen]
          split at h
          · cases h
          · exact ih h

namespace K2hFtInfo

/-- FUSE finds the rule under the path of its target: the search of `FindPath` ends at the entry of
the rule, its attributes are returned, and `GetFileHandle` gives the rule. -/
structure Reachable (info : K2hFtInfo) (pagesize : Nat) (target : Bytes) (rule : K2hFtRule) :
    Prop where
  entry : findEntry (stripSlash (targetPath target)) info.RuleMap.entries = some (.entry target rule)
  stat : findPath pagesize (targetPath target) info = .ok (some (rule.stat pagesize), info)
  handle : getFileHandle (targetPath target) info = .ok (some target, info)

/-- Operations may begin on the object: it is loaded, the lock is free and no rule was deleted. -/
structure Serving (info : K2hFtInfo) : Prop where
  isLoad : info.isLoad = true
  prule_lockval : info.prule_lockval = false
  freedRules : info.freedRules = []

/-- A rule is found exactly when the path of its target leads back to the target. -/
theorem reachable_iff {info : K2hFtInfo} (h : Serving info) (pagesize : Nat) {target : Bytes}
    {rule : K2hFtRule} (hrule : info.RuleMap.find? target = some rule) :
    Reachable info pagesize target rule ↔ Addressable target := by
  constructor
  · intro hreach
    have hback : stripSlash (targetPath target) = target := (findEntry_eq_entry hreach.entry).symm
    rcases stripSlash_targetPath_eq_iff.1 hback with ⟨hfirst, hlast, hnul⟩
    refine ⟨?_, hfirst, hlast, hnul⟩
    rintro rfl
    -- the mount point has no handle
    have hhandle := hreach.handle
    have hroot : targetPath [] = ascii "/" := by decide
    rw [hroot] at hhandle
    cases hhandle
  · intro haddr
    have hback := stripSlash_targetPath_eq_iff.2 ⟨haddr.first, haddr.last, haddr.noNul⟩
    -- the key of a sorted map is found at its own entry
    have hentry : findEntry (stripSlash (targetPath target)) info.RuleMap.entries =
        some (.entry target rule) := by
      rw [hback]
      exact findEntry_of_lookup info.RuleMap.sorted hrule
    have hhandle := findHandle_of_findEntry hentry
    have hnonempty : targetPath target ≠ [] := by
      intro hnil
      rw [hnil] at hback
      exact haddr.notEmpty hback.symm
    have hroot : targetPath target ≠ ascii "/" := by
      intro hroot
      rw [hroot] at hback
      exact haddr.notEmpty (hback.symm.trans (by decide))
    have hload : (!info.isLoad) = false := by simp [h.isLoad]
    refine ⟨hentry, ?_, ?_⟩
    · -- none of the early returns is taken, and the lock is given back
      unfold findPath
      simp only [if_neg hnonempty, if_neg hroot, hload, Bool.false_eq_true, if_false,
        lock_of_free h.prule_lockval, Bind.bind, Except.bind, pure, Except.pure, locked_RuleMap,
        hentry, locked_deref, deref_of_live h.freedRules, locked_unlock,
        unlock_of_free h.prule_lockval]
    · unfold getFileHandle
      simp only [if_neg hnonempty, if_neg hroot, hload, Bool.false_eq_true, if_false,
        lock_of_free h.prule_lockval, Bind.bind, Except.bind, pure, Except.pure, locked_RuleMap,
        hhandle, locked_unlock, unlock_of_free h.prule_lockval]

/-! ## After a load -/

section Load

variable {lib : ConfLib} {stack : YamlDataStack} {args : LoadArgs} {config : Bytes}
  {source : ConfSource} {info info' : K2hFtInfo}

theorem checkBinaryMode_freedRules (h : info.checkBinaryMode = .ok info') :
    info'.freedRules = info.freedRules := by
  unfold checkBinaryMode at h
  split at h
  · cases h
    rfl
  · rcases bind_eq_ok.1 h with ⟨-, -, hresult⟩
    cases hresult
    rfl

/-- A load takes no lock without giving it back, and it deletes no rule that stays in the map. -/
theorem loadInvariant_idle (args : LoadArgs) (envs : List LoadEnv) :
    LoadInvariant args envs fun info => info.prule_lockval = false ∧ info.freedRules = [] where
  settings info info' hsame h := ⟨hsame.prule_lockval.trans h.1, hsame.freedRules.trans h.2⟩
  register info acl rule h := ⟨h.1, by simp [register, act, h.2]⟩
  outputs env henv info info' result hcall h := by
    rcases initializeOutputFiles_eq_ok hcall with ⟨hlock, -, -, hlive, -⟩
    exact ⟨hlock.trans h.1, hlive⟩
  binary info info' hcall h := by
    rcases checkBinaryMode_eq_ok hcall with ⟨hlock, -⟩
    exact ⟨hlock.trans h.1, (checkBinaryMode_freedRules hcall).trans h.2⟩
  clean now info info' hcall h := by
    rcases clean_eq_ok hcall with ⟨-, hfree, -, -, hlive⟩
    exact ⟨hfree, hlive⟩

theorem load_Config (h : info.load lib stack args config source = .ok (true, info')) :
    info'.Config = config := by
  cases source with
  | unknown =>
      cases h
  | ini lines env =>
      rcases loadIni_eq_ok_true h with ⟨read, info₁, info₂, info₃, -, -, -, -, rfl⟩
      rfl
  | yaml events env =>
      change loadYaml lib stack args config events env info = _ at h
      unfold loadYaml at h
      split at h
      · cases h
      · rcases bind_eq_ok.1 h with ⟨⟨result, info₁⟩, -, hresult⟩
        cases result with
        | false =>
            cases hresult
        | true =>
            cases hresult
            rfl

theorem load_serving {now : Option Timespec} (hconfig : config ≠ [])
    (h : (start now).load lib stack args config source = .ok (true, info')) : Serving info' := by
  rcases (loadInvariant_idle args source.envs).load ⟨rfl, rfl⟩ h with ⟨hfree, hlive⟩
  refine ⟨?_, hfree, hlive⟩
  rw [isLoad, load_Config h]
  simpa using hconfig

/-- Every section gives a rule with a target that is not empty, under the target without slashes
around it, and every rule is found. -/
structure RulesReachable (lib : ConfLib) (stack : YamlDataStack) (args : LoadArgs)
    (source : ConfSource) (info info' : K2hFtInfo) : Prop where
  given : ∀ target ∈ source.targets lib stack args info,
    trimSlashes target ≠ [] ∧ ∃ rule, info'.RuleMap.find? (trimSlashes target) = some rule
  reachable : ∀ target rule, info'.RuleMap.find? target = some rule →
    Reachable info' args.pagesize target rule

/-- The sections that are not lost have proper targets, and they have the targets of all sections,
without slashes around these. -/
structure TargetsAddressable (lib : ConfLib) (stack : YamlDataStack) (args : LoadArgs)
    (source : ConfSource) (info : K2hFtInfo) : Prop where
  addressable : ∀ rule ∈ source.rules lib stack args info, Addressable rule.TargetPath
  remaining : ∀ target ∈ source.targets lib stack args info,
    ∃ rule ∈ source.rules lib stack args info, rule.TargetPath = trimSlashes target

theorem foldl_keep_of_accepted {trace : List YamlAt} (h : OutputsAccepted args trace)
    (rules : List K2hFtRule) :
    trace.foldl (YamlAt.keep args) rules =
      rules ++ trace.filterMap fun p => (p.ruleSection args).map fun sec => sec.2 := by
  induction trace generalizing rules with
  | nil =>
      simp
  | cons p trace ih =>
      have hp : p.refuses args = false := h p List.mem_cons_self
      have hrest : OutputsAccepted args trace := fun q hq => h q (List.mem_cons_of_mem p hq)
      rw [List.foldl_cons, ih hrest, YamlAt.keep, hp]
      cases hsec : p.ruleSection args <;> simp [hsec]

/-- Where no outputs are refused, no section is lost. -/
theorem targets_eq_of_accepted
    (haccepted : OutputsAccepted args (source.trace lib stack args info)) :
    source.targets lib stack args info =
      (source.rules lib stack args info).map fun rule => rule.TargetPath := by
  cases source with
  | unknown =>
      rfl
  | ini lines env =>
      cases lines with
      | none =>
          rfl
      | some lines =>
          rw [ConfSource.targets, ConfSource.rules,
            ← iniRuleSections_targets lib args info.InitTime, List.map_map, List.map_map]
          rfl
  | yaml events env =>
      -- no event clears what the sections gave
      rw [ConfSource.targets, ConfSource.rules, foldl_keep_of_accepted haccepted, List.nil_append,
        List.map_filterMap]
      simp only [Option.map_map]
      rfl

/-- Where no outputs are refused, all sections have to have proper targets. -/
theorem targetsAddressable_iff
    (haccepted : OutputsAccepted args (source.trace lib stack args info)) :
    TargetsAddressable lib stack args source info ↔
      ∀ target ∈ source.targets lib stack args info, Addressable target := by
  rw [targets_eq_of_accepted haccepted]
  constructor
  · intro h target htarget
    rcases List.mem_map.1 htarget with ⟨rule, hrule, rfl⟩
    exact h.addressable rule hrule
  · intro h
    refine ⟨?_, ?_⟩
    · intro rule hrule
      exact h _ (List.mem_map_of_mem hrule)
    · rw [targets_eq_of_accepted haccepted]
      intro target htarget
      rw [(h target htarget).trimSlashes_eq]
      exact List.mem_map.1 htarget

/-- After a load that returns true, FUSE finds the rules of all sections exactly when the sections
that are not lost have targets without a `/` at their ends, and no other section is lost for good. A
configuration without a name is of no known type. -/
theorem load_reachable_iff {now : Option Timespec} (hconfig : config = [] → source = .unknown)
    (h : (start now).load lib stack args config source = .ok (true, info')) :
    RulesReachable lib stack args source (start now) info' ↔
      TargetsAddressable lib stack args source (start now) := by
  -- `IsLoad` asks for a name
  have hnamed : config ≠ [] := by
    intro hnil
    rw [hconfig hnil] at h
    cases h
  have hserving := load_serving hnamed h
  have hfind := @load_find?_iff lib stack args config source (start now) info' ⟨rfl, rfl⟩ h
  constructor
  · intro hall
    -- every rule that is not lost is in the map, so it is found
    have haddr : ∀ rule ∈ source.rules lib stack args (start now), Addressable rule.TargetPath := by
      intro rule hrule
      rcases (hfind rule.TargetPath).2 ⟨rule, hrule, rfl⟩ with ⟨rule', hrule'⟩
      exact (reachable_iff hserving args.pagesize hrule').1 (hall.reachable _ rule' hrule')
    refine ⟨haddr, ?_⟩
    intro target htarget
    exact (hfind _).1 (hall.given target htarget).2
  · intro hok
    refine ⟨?_, ?_⟩
    · intro target htarget
      -- a lost section is made up for by one with the target it should have had
      rcases hok.remaining target htarget with ⟨rule, hrule, heq⟩
      rw [← heq]
      exact ⟨(hok.addressable rule hrule).notEmpty, (hfind _).2 ⟨rule, hrule, rfl⟩⟩
    · intro target rule hrule
      rcases (hfind target).1 ⟨rule, hrule⟩ with ⟨rule', hrule', rfl⟩
      exact (reachable_iff hserving args.pagesize hrule).2 (hok.addressable rule' hrule')

end Load

theorem load_reachable_iff_denyIni : ∃ info',
    (start none).load plainLib plainStack plainArgs (ascii "/etc/k2hftfuse.ini") denyIni =
      .ok (true, info') ∧
        RulesReachable plainLib plainStack plainArgs denyIni (start none) info' := by
  rcases load_denyIni with ⟨info', hload, -⟩
  have hnamed : ascii "/etc/k2hftfuse.ini" = [] → denyIni = .unknown := by
    intro hnil
    exact absurd hnil (by decide)
  have htargets : ∀ rule ∈ denyIni.rules plainLib plainStack plainArgs (start none),
      rule.TargetPath = ascii "log/a" := by decide +kernel
  refine ⟨info', hload, (load_reachable_iff hnamed hload).2 ⟨?_, by decide +kernel⟩⟩
  intro rule hrule
  rw [htargets rule hrule]
  exact ⟨by decide, by decide, by decide, by decide⟩

/-- A target with a `/` before it, and a section without a target. -/
def slashIni : ConfSource :=
  iniOf ["[K2HFTFUSE]", "[K2HFTFUSE_RULE]", "TARGET = /log/a", "[K2HFTFUSE_RULE_DIR]",
    "DEFAULTALL = ALLOW"]

/-- Both sections give rules, one of them without a target, and the file of the other one is not
found. -/
theorem slashIni_hides_rules : ∃ info',
    (start none).load plainLib plainStack plainArgs (ascii "/etc/k2hftfuse.ini") slashIni =
      .ok (true, info') ∧
        info'.RuleMap.keys = [[], ascii "/log/a"] ∧
        (findPath plainArgs.pagesize (targetPath (ascii "/log/a")) info').toOption.map Prod.fst =
          some none ∧
        ¬ RulesReachable plainLib plainStack plainArgs slashIni (start none) info' := by
  have hrun : ∃ info', (start none).load plainLib plainStack plainArgs (ascii "/etc/k2hftfuse.ini")
      slashIni = .ok (true, info') ∧
        (info'.RuleMap.keys,
          (findPath plainArgs.pagesize (targetPath (ascii "/log/a")) info').toOption.map Prod.fst) =
          ([[], ascii "/log/a"], some none) :=
    exists_of_toOption (by decide +kernel)
  rcases hrun with ⟨info', hload, hresult⟩
  obtain ⟨hkeys, hfound⟩ := Prod.mk.inj hresult
  refine ⟨info', hload, hkeys, hfound, ?_⟩
  intro hall
  have hmem : ascii "/log/a" ∈ info'.RuleMap.keys := by simp [hkeys]
  rcases OrdMap.mem_keys_iff.1 hmem with ⟨rule, hrule⟩
  have hkey := findEntry_eq_entry (hall.reachable _ rule hrule).entry
  exact absurd hkey (by decide +kernel)

end K2hFtInfo

end K2hFtFuse
