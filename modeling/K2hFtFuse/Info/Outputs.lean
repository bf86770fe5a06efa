import K2hFtFuse.Info.History

/-!
# Info.Outputs — what `InitializeOutputFiles` makes of a rule

The call changes the output paths of the rules and nothing else. The path of a rule for files depends
on this rule only (`fileOutput`), and a second call gives it back: this is what the YAML loader, which
prepares all rules again at the end of each sequence, relies on (`Settled`).
-/

namespace K2hFtFuse

open ByteSeq SpinLock Outcome

/-! ## One rule -/

/-- Only the output path and the mode of a rule are looked at. -/
theorem initOutput_congr {pRule pRule' : K2hFtRule} (hpath : pRule.OutputPath = pRule'.OutputPath)
    (hmode : pRule.Mode = pRule'.Mode) (args : LoadArgs) (env : LoadEnv)
    (RuleMap : OrdMap Bytes K2hFtRule) (key : Bytes) :
    initOutput args env RuleMap key pRule = initOutput args env RuleMap key pRule' := by
  unfold initOutput
  rw [hpath, hmode]

/-- The path that an accepted rule for files is given. -/
def fileOutput (args : LoadArgs) (env : LoadEnv) (key : Bytes) (pRule : K2hFtRule) : Bytes :=
  if pRule.OutputPath = [] then
    []
  else if pRule.OutputPath.head? = some SLASH ∧
      args.mountPoint.isPrefixOf pRule.OutputPath = false then
    (env.makeFileByAbsPath key pRule.OutputPath pRule.Mode).getD []
  else
    fullPath args pRule.OutputPath

section File

variable {args : LoadArgs} {env : LoadEnv} {RuleMap : OrdMap Bytes K2hFtRule} {key : Bytes}
  {pRule : K2hFtRule} {OutputPath : Bytes}

/-- The output path names a directory, which only the rule of a directory can have. -/
def IsOutputDir (pRule : K2hFtRule) : Prop :=
  S_ISDIR pRule.Mode = true ∧ pRule.OutputPath.getLast? = some SLASH

theorem IsOutputDir.ne_nil (h : IsOutputDir pRule) : pRule.OutputPath ≠ [] := by
  intro hnil
  simp [IsOutputDir, hnil] at h

theorem not_isOutputDir_of_file (hfile : S_ISDIR pRule.Mode = false) : ¬ IsOutputDir pRule := by
  intro hdir
  rw [IsOutputDir, hfile] at hdir
  exact absurd hdir.1 Bool.false_ne_true

/-- The ways in which an output file is accepted. -/
theorem initOutput_file_cases (hfile : ¬ IsOutputDir pRule)
    (h : initOutput args env RuleMap key pRule = .ok (some OutputPath)) :
    (pRule.OutputPath = [] ∧ OutputPath = []) ∨
    (pRule.OutputPath ≠ [] ∧
      (pRule.OutputPath.head? = some SLASH ∧ args.mountPoint.isPrefixOf pRule.OutputPath = false) ∧
      env.makeFileByAbsPath key pRule.OutputPath pRule.Mode = some OutputPath) ∨
    (pRule.OutputPath ≠ [] ∧
      ¬ (pRule.OutputPath.head? = some SLASH ∧
        args.mountPoint.isPrefixOf pRule.OutputPath = false) ∧
      OutputPath = fullPath args pRule.OutputPath) := by
  unfold IsOutputDir at hfile
  unfold initOutput at h
  by_cases hempty : pRule.OutputPath = []
  · simp only [if_pos hempty, Except.ok.injEq, Option.some.injEq] at h
    exact .inl ⟨hempty, h.symm⟩
  · right
    simp only [if_neg hempty, if_neg hfile] at h
    by_cases houtside : pRule.OutputPath.head? = some SLASH ∧
        args.mountPoint.isPrefixOf pRule.OutputPath = false
    · left
      rw [if_pos houtside] at h
      refine ⟨hempty, houtside, ?_⟩
      split at h
      · cases h
      · split at h
        · cases h
        · split at h
          · cases h
          · exact Except.ok.inj h
    · right
      rw [if_neg houtside] at h
      refine ⟨hempty, houtside, ?_⟩
      split at h
      · cases h
      · split at h
        · exact (Option.some.inj (Except.ok.inj h)).symm
        · cases h

/-- The ways in which an output directory is accepted. -/
theorem initOutput_dir_cases (hdir : IsOutputDir pRule)
    (h : initOutput args env RuleMap key pRule = .ok (some OutputPath)) :
    (∃ abspath, env.mkdirByAbsPath key pRule.OutputPath.dropLast = some abspath ∧
      OutputPath = abspath ++ [SLASH]) ∨
    OutputPath = fullPath args pRule.OutputPath := by
  have hne := hdir.ne_nil
  unfold IsOutputDir at hdir
  unfold initOutput at h
  simp only [if_neg hne, if_pos hdir] at h
  split at h
  · -- outside of the mount point
    rcases Option.map_eq_some_iff.1 (Except.ok.inj h) with ⟨abspath, hmade, rfl⟩
    exact .inl ⟨abspath, hmade, rfl⟩
  · right
    split at h
    · cases h
    · split at h
      · cases h
      · cases h
      · split at h
        · exact (Option.some.inj (Except.ok.inj h)).symm
        · cases h

theorem initOutput_file (hfile : S_ISDIR pRule.Mode = false)
    (h : initOutput args env RuleMap key pRule = .ok (some OutputPath)) :
    OutputPath = fileOutput args env key pRule := by
  unfold fileOutput
  rcases initOutput_file_cases (not_isOutputDir_of_file hfile) h with
    ⟨hempty, rfl⟩ | ⟨hne, houtside, hmade⟩ | ⟨hne, hinside, rfl⟩
  · rw [if_pos hempty]
  · rw [if_neg hne, if_pos houtside, hmade]
    rfl
  · rw [if_neg hne, if_neg hinside]

/-- The answers about files are absolute paths that are answered by themselves. -/
def RealPaths (env : LoadEnv) : Prop :=
  ∀ key path mode abspath, env.makeFileByAbsPath key path mode = some abspath →
    abspath.head? = some SLASH ∧
      ∀ abspath', env.makeFileByAbsPath key abspath mode = some abspath' → abspath' = abspath

/-- Where a further call accepts the rule, it leaves its output path as it is. -/
def Settled (args : LoadArgs) (env : LoadEnv) (key : Bytes) (pRule : K2hFtRule) : Prop :=
  ∀ RuleMap OutputPath, initOutput args env RuleMap key pRule = .ok (some OutputPath) →
    OutputPath = pRule.OutputPath

theorem Settled.congr {pRule' : K2hFtRule} (h : Settled args env key pRule)
    (hpath : pRule'.OutputPath = pRule.OutputPath) (hmode : pRule'.Mode = pRule.Mode) :
    Settled args env key pRule' := by
  intro RuleMap OutputPath houtput
  rw [initOutput_congr hpath hmode] at houtput
  rw [hpath]
  exact h RuleMap OutputPath houtput

theorem fullPath_of_head {path : Bytes} (h : path.head? = some SLASH) : fullPath args path = path := by
  simp [fullPath, h]

theorem head?_fullPath (hmount : args.mountPoint.head? = some SLASH) (path : Bytes) :
    (fullPath args path).head? = some SLASH := by
  unfold fullPath
  split
  · rw [List.head?_append, hmount]
    rfl
  · rename_i hhead
    simpa using hhead

/-- A path that is not outside the mount point has a full path under it. -/
theorem isPrefixOf_fullPath {path : Bytes}
    (hinside : ¬ (path.head? = some SLASH ∧ args.mountPoint.isPrefixOf path = false)) :
    args.mountPoint.isPrefixOf (fullPath args path) = true := by
  unfold fullPath
  split
  · exact List.isPrefixOf_iff_prefix.2 (List.prefix_append _ _)
  · rename_i hhead
    by_contra hprefix
    exact hinside ⟨by simpa using hhead, Bool.eq_false_iff.2 hprefix⟩

/-- A rule for files that was accepted is settled. -/
theorem initOutput_settled (hmount : args.mountPoint.head? = some SLASH) (hpaths : RealPaths env)
    (hfile : S_ISDIR pRule.Mode = false)
    (h : initOutput args env RuleMap key pRule = .ok (some OutputPath)) :
    Settled args env key { pRule with OutputPath := OutputPath } := by
  intro RuleMap' OutputPath' h'
  have hfile' : S_ISDIR ({ pRule with OutputPath := OutputPath } : K2hFtRule).Mode = false := hfile
  have hcases := initOutput_file_cases (not_isOutputDir_of_file hfile') h'
  dsimp only at hcases ⊢
  rcases initOutput_file_cases (not_isOutputDir_of_file hfile) h with
    ⟨-, rfl⟩ | ⟨-, -, hmade⟩ | ⟨-, hinside, rfl⟩
  · -- no output
    rcases hcases with ⟨-, hsame⟩ | ⟨hne, -⟩ | ⟨hne, -⟩
    · exact hsame
    · exact absurd rfl hne
    · exact absurd rfl hne
  · -- the file was made, perhaps under the mount point
    rcases hpaths _ _ _ _ hmade with ⟨hhead, hagain⟩
    rcases hcases with ⟨hempty, hsame⟩ | ⟨-, -, hmade'⟩ | ⟨-, -, hfull⟩
    · rw [hempty, hsame]
    · exact hagain _ hmade'
    · rw [hfull, fullPath_of_head hhead]
  · -- a path under the mount point
    have hhead := head?_fullPath hmount pRule.OutputPath
    rcases hcases with ⟨hempty, hsame⟩ | ⟨-, houtside, hmade'⟩ | ⟨-, -, hfull⟩
    · rw [hempty, hsame]
    · rw [isPrefixOf_fullPath hinside] at houtside
      exact absurd houtside.2 (by simp)
    · rw [hfull, fullPath_of_head hhead]

end File

/-! ## All rules -/

section All

variable {args : LoadArgs} {env : LoadEnv}

/-- The loop gives every rule the path that was accepted for it. -/
theorem initOutputs_eq {entries : List (Bytes × K2hFtRule)}
    {RuleMap RuleMap' : OrdMap Bytes K2hFtRule} (hnodup : (entries.map Prod.fst).Nodup)
    (h : initOutputs args env entries RuleMap = .ok (some RuleMap')) :
    (∀ key, key ∉ entries.map Prod.fst → RuleMap'.find? key = RuleMap.find? key) ∧
      ∀ key pRule, (key, pRule) ∈ entries → ∃ RuleMap₁ OutputPath,
        initOutput args env RuleMap₁ key pRule = .ok (some OutputPath) ∧
          RuleMap'.find? key = some { pRule with OutputPath := OutputPath } := by
  induction entries generalizing RuleMap with
  | nil =>
      simp only [initOutputs, Except.ok.injEq, Option.some.injEq] at h
      exact ⟨fun key _ => by rw [h], fun key pRule hmem => by cases hmem⟩
  | cons e rest ih =>
      rcases e with ⟨key₁, pRule₁⟩
      rcases List.nodup_cons.1 hnodup with ⟨hnew, hrest⟩
      simp only [initOutputs] at h
      split at h
      · cases h
      · cases h
      · rename_i OutputPath houtput
        rcases ih hrest h with ⟨hother, hdone⟩
        refine ⟨?_, ?_⟩
        · intro key hkey
          simp only [List.map_cons, List.mem_cons, not_or] at hkey
          rw [hother key hkey.2, OrdMap.find?_insert_ne _ _ hkey.1]
        · intro key pRule hmem
          rcases List.mem_cons.1 hmem with heq | hmem
          · obtain ⟨rfl, rfl⟩ := Prod.mk.inj heq
            -- the rest of the loop does not come back to this key
            refine ⟨RuleMap, OutputPath, houtput, ?_⟩
            rw [hother _ hnew, OrdMap.find?_insert_self]
          · exact hdone key pRule hmem

namespace K2hFtInfo

/-- What `InitializeOutputFiles` answers for the rules that are there. -/
def outputs (args : LoadArgs) (env : LoadEnv) (info : K2hFtInfo) : Option Bool :=
  (info.initializeOutputFiles args env).toOption.map fun answer => answer.1

/-- After the call was accepted, every rule has the path that was accepted for it. -/
theorem initializeOutputFiles_find? {info info' : K2hFtInfo}
    (h : info.initializeOutputFiles args env = .ok (true, info')) (key : Bytes) :
    (info.RuleMap.find? key = none → info'.RuleMap.find? key = none) ∧
      ∀ pRule, info.RuleMap.find? key = some pRule → ∃ RuleMap OutputPath,
        initOutput args env RuleMap key pRule = .ok (some OutputPath) ∧
          info'.RuleMap.find? key = some { pRule with OutputPath := OutputPath } := by
  rcases bind_eq_ok.1 h with ⟨u, -, hrest⟩
  rcases bind_eq_ok.1 hrest with ⟨outputs, houtputs, hresult⟩
  cases outputs with
  | none =>
      cases hresult
  | some RuleMap =>
      cases hresult
      rcases initOutputs_eq info.RuleMap.nodup_keys houtputs with ⟨hother, hdone⟩
      constructor
      · intro hnone
        refine (hother key ?_).trans hnone
        intro hmem
        rcases OrdMap.mem_keys_iff.1 hmem with ⟨pRule, hrule⟩
        rw [hnone] at hrule
        cases hrule
      · intro pRule hrule
        exact hdone key pRule (OrdMap.mem_entries_iff.2 hrule)

end K2hFtInfo

end All

end K2hFtFuse
