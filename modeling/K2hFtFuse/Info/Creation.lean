import K2hFtFuse.Info.Ops

/-!
# Info.Creation — `CreateFile` does its work wholly or not at all, except for late failures

The new rule is put into `RuleMap` before its plugin is started, and a failure behind that point
deletes the rule but not the entry. `createFile_allOrNothing_iff` says exactly when a call leaves
nothing half done.
-/

namespace K2hFtFuse

open ByteSeq SpinLock

/-! ## File names -/

/-- Where a path has a parent directory, its file name is the part behind the last `/`. -/
theorem getFileName_of_parent {path parentpath : Bytes}
    (h : getParentDirpath path = some parentpath) :
    ∃ dir fname, path = dir ++ SLASH :: fname ∧ SLASH ∉ fname ∧ getFileName path = some fname := by
  unfold getParentDirpath at h
  split at h
  · cases h
  · rename_i hnil
    split at h
    · cases h
    · rename_i hroot
      by_cases hlast : path.getLast? = some SLASH
      · refine ⟨path.dropLast, [], ?_, by simp, by simp [getFileName, hnil, hroot, hlast]⟩
        exact (List.dropLast_append_getLast? SLASH hlast).symm
      · simp only [if_neg hlast] at h
        rcases hsplit : splitLast SLASH path with _ | ⟨dir, fname⟩
        · rw [hsplit] at h
          cases h
        · rcases splitLast_eq_some hsplit with ⟨hpath, hfname⟩
          exact ⟨dir, fname, hpath, hfname, by simp [getFileName, hnil, hroot, hlast, hsplit]⟩

/-! ## What is left after a call -/

namespace K2hFtInfo

/-- `after` is `before` with one entry more, a file rule that has its settings from the rule of its
directory. -/
structure NewEntry (before after : OrdMap Bytes K2hFtRule) (path : Bytes) : Prop where
  fresh : before.find? path = none
  entry : ∃ parentpath parent rule,
    getParentDirpath path = some parentpath ∧ before.find? parentpath = some parent ∧
      after = before.insert path rule ∧ rule.IsTransfer = parent.IsTransfer ∧
      rule.DefaultDenyAll = parent.DefaultDenyAll ∧ rule.MatchingList = parent.MatchingList ∧
      ∃ dir fname, path = dir ++ SLASH :: fname ∧ SLASH ∉ fname ∧
        rule.OutputPath =
          if parent.OutputPath.getLast? = some SLASH then parent.OutputPath ++ fname
          else parent.OutputPath

/-- A call that returns false leaves map, rules and handle as they were; a call that changes the map
adds one entry; no call uses a deleted rule or leaves one in the map. A call that waits for the lock
does nothing. -/
def AllOrNothing (path : Bytes) (handle : Option Bytes) (info : K2hFtInfo) :
    Except Stop ((Bool × Option Bytes) × K2hFtInfo) → Prop
  | .error .spin => True
  | .error .fault => False
  | .ok ((result, handle'), info') =>
      info'.freedRules = info.freedRules ∧
        (result = false → info'.RuleMap = info.RuleMap ∧ handle' = handle) ∧
        (info'.RuleMap = info.RuleMap ∨ NewEntry info.RuleMap info'.RuleMap (stripSlash path))

/-- The call comes to the rule of the parent directory. -/
structure ComesTo (info : K2hFtInfo) (path parentpath : Bytes) (parent : K2hFtRule) : Prop where
  free : info.prule_lockval = false
  loaded : info.isLoad = true
  notEmpty : path ≠ []
  notRoot : path ≠ ascii "/"
  fresh : info.RuleMap.find? (stripSlash path) = none
  parentpath_eq : getParentDirpath (stripSlash path) = some parentpath
  parent_eq : info.RuleMap.find? parentpath = some parent

/-- In a parent directory all expressions compile again, and the plugin of a parent with one gets its
named pipe and is started. -/
structure SubstepsSucceed (env : CreateEnv) (parent : K2hFtRule) : Prop where
  compiled : ∀ i ptn, parent.MatchingList[i]? = some ptn → ptn.IsRegex = true →
    env.regcomp i = true
  started : parent.pPlugin.isSome = true → env.pipeFile.isSome = true ∧ env.runAddPlugin = true

theorem duplicateMatchList_eq {regcomp : Nat → Bool} {src : List K2hFtMatchPtn}
    (h : ∀ i ptn, src[i]? = some ptn → ptn.IsRegex = true → regcomp i = true) :
    duplicateMatchList regcomp src = some src := by
  induction src generalizing regcomp with
  | nil =>
      rfl
  | cons ptn src ih =>
      -- the first answer of `regcomp` belongs to the first expression
      have hhead : ¬ (ptn.IsRegex && !regcomp 0) = true := by
        intro hbad
        rw [Bool.and_eq_true, Bool.not_eq_true'] at hbad
        rw [h 0 ptn rfl hbad.1] at hbad
        exact absurd hbad.2 (by simp)
      have htail : duplicateMatchList (fun n => regcomp (n + 1)) src = some src :=
        ih fun i p hp => h (i + 1) p (by simpa using hp)
      simp [duplicateMatchList, hhead, htail]

/-- If an expression does not compile again, there is no copy of the list. -/
theorem compiled_of_duplicateMatchList {regcomp : Nat → Bool} {src dst : List K2hFtMatchPtn}
    (h : duplicateMatchList regcomp src = some dst) (i : Nat) (ptn : K2hFtMatchPtn)
    (hptn : src[i]? = some ptn) (hregex : ptn.IsRegex = true) : regcomp i = true := by
  induction src generalizing regcomp dst i with
  | nil =>
      simp at hptn
  | cons p src ih =>
      simp only [duplicateMatchList] at h
      split at h
      · cases h
      · rename_i hhead
        rcases Option.map_eq_some_iff.1 h with ⟨rest, hrest, -⟩
        cases i with
        | zero =>
            obtain rfl : p = ptn := by simpa using hptn
            simpa [hregex] using hhead
        | succ i =>
            exact ih hrest i (by simpa using hptn)

theorem newOutputPath_eq {path parentpath : Bytes} (h : getParentDirpath path = some parentpath)
    (parentOutput : Bytes) :
    ∃ dir fname, path = dir ++ SLASH :: fname ∧ SLASH ∉ fname ∧
      newOutputPath parentOutput path =
        some (if parentOutput.getLast? = some SLASH then parentOutput ++ fname else parentOutput) := by
  rcases getFileName_of_parent h with ⟨dir, fname, hpath, hfname, hname⟩
  refine ⟨dir, fname, hpath, hfname, ?_⟩
  unfold newOutputPath
  split <;> simp [hname]

/-- The part of `CreateFile` that has the rule of the directory, where all steps succeed. -/
theorem createUnder_of_success {env : CreateEnv} {path parentpath : Bytes} {parent : K2hFtRule}
    {info : K2hFtInfo} (hnone : info.RuleMap.find? path = none)
    (hpath : getParentDirpath path = some parentpath)
    (hparent : info.RuleMap.find? parentpath = some parent)
    (hsteps : S_ISDIR parent.Mode = true → SubstepsSucceed env parent) (mode uid gid : UInt32)
    (handle : Option Bytes) :
    ∃ result handle' info',
      createUnder env path parent (newRule env path mode uid gid) handle info =
          .ok ((result, handle'), info') ∧
        info'.freedRules = info.freedRules ∧
        (result = false → info'.RuleMap = info.RuleMap ∧ handle' = handle) ∧
        (info'.RuleMap = info.RuleMap ∨ NewEntry info.RuleMap info'.RuleMap path) := by
  by_cases hdir : S_ISDIR parent.Mode = true
  · have hok := hsteps hdir
    rcases newOutputPath_eq hpath parent.OutputPath with ⟨dir, fname, hsplit, hfname, houtput⟩
    -- whatever else the new rule has, it takes these members from the parent
    have hentry : ∀ rule : K2hFtRule, rule.IsTransfer = parent.IsTransfer →
        rule.DefaultDenyAll = parent.DefaultDenyAll →
        rule.OutputPath = (if parent.OutputPath.getLast? = some SLASH then
          parent.OutputPath ++ fname else parent.OutputPath) →
        rule.MatchingList = parent.MatchingList →
        NewEntry info.RuleMap (info.RuleMap.insert path rule) path := by
      intro rule htrans hdeny hout hlist
      exact ⟨hnone, parentpath, parent, rule, hpath, hparent, rfl, htrans, hdeny, hlist, dir, fname,
        hsplit, hfname, hout⟩
    unfold createUnder
    simp only [hdir, Bool.not_true, Bool.false_eq_true, if_false, houtput,
      duplicateMatchList_eq hok.compiled]
    rcases hplugin : parent.pPlugin with _ | plugin
    · exact ⟨true, some path, _, rfl, rfl, by simp, Or.inr (hentry _ rfl rfl rfl rfl)⟩
    · -- the plugin gets its pipe and is started
      rcases hok.started (by simp [hplugin]) with ⟨hpipe, hrun⟩
      rcases Option.isSome_iff_exists.1 hpipe with ⟨PipeFilePath, hfile⟩
      simp only [hfile, hrun, if_true]
      exact ⟨true, some path, _, rfl, rfl, by simp, Or.inr (hentry _ rfl rfl rfl rfl)⟩
  · refine ⟨false, handle, info.unlock, ?_, rfl, fun _ => ⟨rfl, rfl⟩, Or.inl rfl⟩
    simp [createUnder, hdir]

/-- Where a step fails in a directory, a NULL rule is written to, or a deleted rule stays. -/
theorem createUnder_of_failure {env : CreateEnv} {path : Bytes} {parent : K2hFtRule}
    {info : K2hFtInfo} (hdir : S_ISDIR parent.Mode = true) (hsteps : ¬ SubstepsSucceed env parent)
    (pTmpRule : K2hFtRule) (handle : Option Bytes) :
    createUnder env path parent pTmpRule handle info = .error .fault ∨
      ∃ result handle' info',
        createUnder env path parent pTmpRule handle info = .ok ((result, handle'), info') ∧
          info'.freedRules ≠ info.freedRules := by
  unfold createUnder
  simp only [hdir, Bool.not_true, Bool.false_eq_true, if_false]
  rcases newOutputPath parent.OutputPath path with _ | OutputPath
  · exact Or.inl rfl
  · rcases hcopy : duplicateMatchList env.regcomp parent.MatchingList with _ | MatchingList
    · exact Or.inl rfl
    · -- the copy was made, so the entry is in the map when the plugin fails
      right
      rcases hplugin : parent.pPlugin with _ | plugin
      · refine absurd ⟨fun i ptn => compiled_of_duplicateMatchList hcopy i ptn, ?_⟩ hsteps
        simp [hplugin]
      · rcases hpipe : env.pipeFile with _ | PipeFilePath
        · exact ⟨false, _, _, rfl, by simp [freeRule, unlock, setRule]⟩
        · by_cases hrun : env.runAddPlugin = true
          · refine absurd ⟨fun i ptn => compiled_of_duplicateMatchList hcopy i ptn, ?_⟩ hsteps
            simp [hpipe, hrun]
          · simp only [if_neg hrun]
            exact ⟨false, _, _, rfl, by simp [freeRule, unlock, setRule]⟩

theorem createFile_of_comesTo {info : K2hFtInfo} {path parentpath : Bytes} {parent : K2hFtRule}
    (h : ComesTo info path parentpath parent) (env : CreateEnv) (mode uid gid : UInt32)
    (handle : Option Bytes) :
    createFile env path mode uid gid handle info =
      if parentpath ∈ info.freedRules then .error .fault
      else createUnder env (stripSlash path) parent (newRule env (stripSlash path) mode uid gid)
        handle info.locked := by
  unfold createFile
  simp only [if_neg h.notEmpty, if_neg h.notRoot, h.loaded, Bool.not_true, Bool.false_eq_true,
    if_false, lock_of_free h.free, Bind.bind, Except.bind, locked_RuleMap, h.fresh,
    h.parentpath_eq, h.parent_eq, deref]
  by_cases hfreed : parentpath ∈ info.freedRules
  · simp [hfreed]
  · simp [hfreed]

/-- A call that does not come to a parent directory changes nothing but the lock. -/
theorem createFile_of_not_comesTo {info : K2hFtInfo} {path : Bytes}
    (h : ∀ parentpath parent, ¬ ComesTo info path parentpath parent) (env : CreateEnv)
    (mode uid gid : UInt32) (handle : Option Bytes) :
    createFile env path mode uid gid handle info = .error .spin ∨
      ∃ result info', createFile env path mode uid gid handle info = .ok ((result, handle), info') ∧
        info'.RuleMap = info.RuleMap ∧ info'.freedRules = info.freedRules := by
  by_cases hempty : path = []
  · exact Or.inr ⟨false, info, by simp [createFile, hempty, pure, Except.pure], rfl, rfl⟩
  by_cases hroot : path = ascii "/"
  · exact Or.inr ⟨false, info, by simp [createFile, hroot, pure, Except.pure], rfl, rfl⟩
  by_cases hload : info.isLoad = true
  · by_cases hheld : info.prule_lockval = true
    · left
      simp [createFile, hempty, hroot, hload, lock, hheld, Bind.bind, Except.bind]
    · right
      have hfree : info.prule_lockval = false := by simpa using hheld
      unfold createFile
      simp only [if_neg hempty, if_neg hroot, hload, Bool.not_true, Bool.false_eq_true, if_false,
        lock_of_free hfree, Bind.bind, Except.bind, pure, Except.pure, locked_RuleMap]
      rcases hfind : info.RuleMap.find? (stripSlash path) with _ | rule
      · rcases hparent : getParentDirpath (stripSlash path) with _ | parentpath
        · exact ⟨false, info.locked, rfl, rfl, rfl⟩
        · rcases hrule : info.RuleMap.find? parentpath with _ | parent
          · exact ⟨false, info.unlock, by simp only [hrule, locked_unlock], rfl, rfl⟩
          · -- all that `ComesTo` asks for was met
            exact absurd ⟨hfree, hload, hempty, hroot, hfind, hparent, hrule⟩ (h parentpath parent)
      · exact ⟨true, info.unlock, rfl, rfl, rfl⟩
  · exact Or.inr ⟨false, info, by simp [createFile, hempty, hroot, hload, pure, Except.pure], rfl, rfl⟩

/-- `CreateFile` is all or nothing exactly when, in a call that comes to a rule of a parent
directory, that rule was not deleted and every step behind it succeeds. -/
theorem createFile_allOrNothing_iff (env : CreateEnv) (path : Bytes) (mode uid gid : UInt32)
    (handle : Option Bytes) (info : K2hFtInfo) :
    AllOrNothing path handle info (createFile env path mode uid gid handle info) ↔
      ∀ parentpath parent, ComesTo info path parentpath parent →
        parentpath ∉ info.freedRules ∧
          (S_ISDIR parent.Mode = true → SubstepsSucceed env parent) := by
  constructor
  · intro h parentpath parent hcomes
    rw [createFile_of_comesTo hcomes] at h
    by_cases hfreed : parentpath ∈ info.freedRules
    · -- to look at the parent is a fault
      rw [if_pos hfreed] at h
      exact h.elim
    · rw [if_neg hfreed] at h
      refine ⟨hfreed, ?_⟩
      intro hdir
      by_contra hsteps
      -- a failure leaves a fault or a deleted rule
      rcases createUnder_of_failure hdir hsteps (newRule env (stripSlash path) mode uid gid) handle with
        hfault | ⟨result, handle', info', hcall, hne⟩
      · rw [hfault] at h
        exact h
      · rw [hcall] at h
        exact hne h.1
  · intro h
    by_cases hcomes : ∃ parentpath parent, ComesTo info path parentpath parent
    · rcases hcomes with ⟨parentpath, parent, hcomes⟩
      rcases h parentpath parent hcomes with ⟨hlive, hsteps⟩
      rw [createFile_of_comesTo hcomes, if_neg hlive]
      have hfresh : info.locked.RuleMap.find? (stripSlash path) = none := hcomes.fresh
      rcases createUnder_of_success hfresh hcomes.parentpath_eq hcomes.parent_eq hsteps mode uid gid
        handle with ⟨result, handle', info', hcall, hfreed, hfalse, hentry⟩
      rw [hcall]
      exact ⟨hfreed, hfalse, hentry⟩
    · simp only [not_exists] at hcomes
      rcases createFile_of_not_comesTo hcomes env mode uid gid handle with
        hspin | ⟨result, info', hcall, hmap, hfreed⟩
      · rw [hspin]
        trivial
      · rw [hcall]
        exact ⟨hfreed, fun _ => ⟨hmap, rfl⟩, Or.inl hmap⟩

/-- A directory rule for `log` with a plugin. -/
def pluginRules : K2hFtInfo :=
  { start none with
    Config := ascii "/etc/k2hftfuse.ini"
    RuleMap :=
      (∅ : OrdMap Bytes K2hFtRule).insert (ascii "log")
        { K2hFtRule.fresh with
          TargetPath := ascii "log"
          Mode := S_IFDIR
          pPlugin := some
            { BaseParam := ascii "/bin/cat"
              OutputPath := []
              PipeFilePath := []
              mode := S_IFDIR
              not_execute := true } } }

/-- The plugin of the new rule does not start: the call returns false, the entry of the deleted rule
stays, and the handle refers to it. -/
theorem createFile_leaves_deleted_rule :
    (createFile ⟨none, fun _ => true, some (ascii "/tmp/pipe"), false⟩ (ascii "/log/a") 0o644 0 0
        none pluginRules).map (fun r => (r.1, (r.2.RuleMap.find? (ascii "log/a")).isSome,
          r.2.freedRules)) =
      .ok ((false, some (ascii "log/a")), true, [ascii "log/a"]) ∧
      ¬ AllOrNothing (ascii "/log/a") none pluginRules
        (createFile ⟨none, fun _ => true, some (ascii "/tmp/pipe"), false⟩ (ascii "/log/a") 0o644 0 0
          none pluginRules) := by
  have hcall : (createFile ⟨none, fun _ => true, some (ascii "/tmp/pipe"), false⟩ (ascii "/log/a")
      0o644 0 0 none pluginRules).map (fun r => (r.1, (r.2.RuleMap.find? (ascii "log/a")).isSome,
        r.2.freedRules)) = .ok ((false, some (ascii "log/a")), true, [ascii "log/a"]) := by
    decide +kernel
  refine ⟨hcall, ?_⟩
  rcases hresult : createFile ⟨none, fun _ => true, some (ascii "/tmp/pipe"), false⟩
    (ascii "/log/a") 0o644 0 0 none pluginRules with e | ⟨⟨result, handle'⟩, info'⟩
  · rw [hresult] at hcall
    cases hcall
  · intro h
    rw [hresult] at hcall
    simp only [Except.map, Except.ok.injEq, Prod.mk.injEq] at hcall
    have hfreed : info'.freedRules = [ascii "log/a"] := hcall.2.2
    have hsame : info'.freedRules = [] := h.1
    rw [hsame] at hfreed
    cases hfreed

end K2hFtInfo

end K2hFtFuse
