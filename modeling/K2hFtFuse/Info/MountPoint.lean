import K2hFtFuse.Info.Settings
import K2hFtFuse.Plugin.Manager

/-!
# Info.MountPoint — which output paths lie under the mount point

`InitializeOutputFiles`, `RunPlugin` and `Write` each test whether the mount point is a prefix of an
output path.  This file states what they would do if they respected path components
(`RespectsComponents`) and shows for which paths they do.
-/

namespace K2hFtFuse

open ByteSeq SpinLock

/-- The path lies below the mount point. -/
def UnderMount (mountpoint path : Bytes) : Prop := mountpoint ++ [SLASH] <+: path

instance instDecidableUnderMount (mountpoint path : Bytes) :
    Decidable (UnderMount mountpoint path) :=
  inferInstanceAs (Decidable (mountpoint ++ [SLASH] <+: path))

/-! ## The two ways of each function -/

/-- What `InitializeOutputFiles` does for an output that is not under the mount point: the
directories and the file are made. -/
def makeOutput (env : LoadEnv) (key : Bytes) (pRule : K2hFtRule) : Option Bytes :=
  if S_ISDIR pRule.Mode ∧ pRule.OutputPath.getLast? = some SLASH then
    (env.mkdirByAbsPath key pRule.OutputPath.dropLast).map fun abspath => abspath ++ [SLASH]
  else if pRule.OutputPath.getLast? = some SLASH then
    -- the path of a file must not end in `/`
    none
  else
    match getParentDirpath pRule.OutputPath with
    | none => none
    | some dirpath =>
        match env.mkdirByAbsPath key dirpath with
        | none => none
        | some _ => env.makeFileByAbsPath key pRule.OutputPath pRule.Mode

/-- What it does for an output under the mount point: `tmppath` is searched in the rules. -/
def searchOutput (args : LoadArgs) (RuleMap : OrdMap Bytes K2hFtRule) (pRule : K2hFtRule)
    (tmppath : Bytes) : Except Stop (Option Bytes) :=
  let OutputPath := fullPath args pRule.OutputPath
  if S_ISDIR pRule.Mode ∧ pRule.OutputPath.getLast? = some SLASH then
    -- a directory rule looks for a rule that covers the rest of the path
    match findOutputDir args OutputPath tmppath RuleMap.entries with
    | none => .error .fault
    | some none => .ok none
    | some (some found) => .ok (if found then some OutputPath else none)
  else if RuleMap.entries.any fun e => isOutputFile tmppath e.2 then
    .ok (some OutputPath)
  else
    .ok none

/-- `InitializeOutputFiles` for a rule with an output, from its two ways. -/
theorem initOutput_eq {args : LoadArgs} {env : LoadEnv} {RuleMap : OrdMap Bytes K2hFtRule}
    {key : Bytes} {pRule : K2hFtRule} (hpath : pRule.OutputPath.head? = some SLASH) :
    initOutput args env RuleMap key pRule =
      if args.mountPoint <+: pRule.OutputPath then
        if pRule.OutputPath.length < args.mountPoint.length + 1 then
          .error .fault
        else
          searchOutput args RuleMap pRule (pRule.OutputPath.drop (args.mountPoint.length + 1))
      else
        .ok (makeOutput env key pRule) := by
  have hne : pRule.OutputPath ≠ [] := by
    intro h
    simp [h] at hpath
  have hfull : fullPath args pRule.OutputPath = pRule.OutputPath := by
    simp [fullPath, hpath]
  unfold initOutput
  rw [if_neg hne]
  by_cases hbegins : args.mountPoint <+: pRule.OutputPath
  · have htrue : args.mountPoint.isPrefixOf pRule.OutputPath = true :=
      List.isPrefixOf_iff_prefix.2 hbegins
    simp only [hpath, htrue, hbegins, hfull, searchOutput, Bool.true_eq_false, and_false, if_false,
      if_true]
    -- a directory rule or a file rule, inside the mount point
    split <;> split <;> rfl
  · have hfalse : args.mountPoint.isPrefixOf pRule.OutputPath = false := by
      rw [Bool.eq_false_iff, ne_eq, List.isPrefixOf_iff_prefix]
      exact hbegins
    simp only [hpath, hfalse, hbegins, makeOutput, and_self, if_true, if_false]
    split
    · rfl
    · split
      · rfl
      · rcases getParentDirpath pRule.OutputPath with _ | dirpath
        · rfl
        · simp only
          rcases env.mkdirByAbsPath key dirpath with _ | _ <;> rfl

namespace PluginMan

theorem write_eq {m : PluginMan} {id : Nat} {p : Plugin} (hp : m.plugins.find? id = some p)
    {data : Bytes} (hdata : data ≠ []) (find : Bool) (kill : KillEnv) (env : RunEnv) :
    m.write id data find kill env =
      if needsNoOutput m.mountpoint p || find then some m
      else (m.restart id kill env).map Prod.fst := by
  simp only [write, prepareWrite, hp, if_neg hdata]
  split
  · rfl
  · rfl

end PluginMan

/-! ## Components -/

/-- For this output path, the three functions separate what lies below the mount point from all
else, and the loader searches the rules for the rest of the path. -/
structure RespectsComponents (args : LoadArgs) (path : Bytes) : Prop where
  loader : ∀ (env : LoadEnv) (RuleMap : OrdMap Bytes K2hFtRule) (key : Bytes) (pRule : K2hFtRule),
    pRule.OutputPath = path →
      initOutput args env RuleMap key pRule =
        if UnderMount args.mountPoint path then
          searchOutput args RuleMap pRule (path.drop (args.mountPoint ++ [SLASH]).length)
        else
          .ok (makeOutput env key pRule)
  run : ∀ (env : RunEnv) (p : Plugin), p.OutputPath = path →
    checkOutput args.mountPoint env p =
      if UnderMount args.mountPoint path then
        some { p with
          st_dev := 0
          st_ino := 0 }
      else if env.find then
        some p
      else
        env.makeFile.map fun (st_dev, st_ino) =>
          { p with
            st_dev := st_dev
            st_ino := st_ino }
  write : ∀ (m : PluginMan) (id : Nat) (p : Plugin) (data : Bytes) (find : Bool)
      (kill : PluginMan.KillEnv) (env : RunEnv),
    m.mountpoint = args.mountPoint → m.plugins.find? id = some p → p.OutputPath = path → data ≠ [] →
      m.write id data find kill env =
        if UnderMount args.mountPoint path ∨ find = true then some m
        else (m.restart id kill env).map Prod.fst

section Absolute

variable {args : LoadArgs} {path : Bytes}

theorem UnderMount.isPrefix {mountpoint : Bytes} (h : UnderMount mountpoint path) :
    mountpoint <+: path :=
  (List.prefix_append mountpoint [SLASH]).trans h

theorem UnderMount.length {mountpoint : Bytes} (h : UnderMount mountpoint path) :
    mountpoint.length + 1 ≤ path.length := by
  simpa using List.IsPrefix.length_le h

/-- The test of the plugin manager. -/
theorem needsNoOutput_iff {mountpoint : Bytes} (hmount : mountpoint ≠ []) {p : Plugin}
    (hpath : p.OutputPath ≠ []) :
    needsNoOutput mountpoint p = true ↔ mountpoint <+: p.OutputPath := by
  simp [needsNoOutput, hmount, hpath]

/-- The components are respected exactly when the mount point ends at a component of the path. -/
theorem respectsComponents_iff (hmount : args.mountPoint.head? = some SLASH)
    (hpath : path.head? = some SLASH) :
    RespectsComponents args path ↔
      (args.mountPoint <+: path → args.mountPoint ++ [SLASH] <+: path) := by
  have hmount' : args.mountPoint ≠ [] := by
    intro h
    simp [h] at hmount
  have hpath' : path ≠ [] := by
    intro h
    simp [h] at hpath
  constructor
  · -- a plugin that is started takes the path as one under the mount point
    intro h hbegins
    by_contra hunder
    -- the answers of the system do not matter, so nothing succeeds here
    let p : Plugin := { Plugin.fresh with OutputPath := path }
    let env : RunEnv :=
      { find := false
        makeFile := none
        fork := none
        openPipe := none }
    have hrun := h.run env p rfl
    have htaken : needsNoOutput args.mountPoint p = true := (needsNoOutput_iff hmount' hpath').2 hbegins
    have hnot : ¬ UnderMount args.mountPoint path := hunder
    rw [checkOutput, if_pos htaken, if_neg hnot] at hrun
    cases hrun
  · intro h
    have hunder : UnderMount args.mountPoint path ↔ args.mountPoint <+: path :=
      ⟨UnderMount.isPrefix, h⟩
    refine ⟨?_, ?_, ?_⟩
    · -- the loader
      rintro env RuleMap key pRule rfl
      rw [initOutput_eq hpath]
      by_cases hbegins : args.mountPoint <+: pRule.OutputPath
      · have hlength := (hunder.2 hbegins).length
        rw [if_pos hbegins, if_pos (hunder.2 hbegins), if_neg (by omega), List.length_append,
          List.length_singleton]
      · rw [if_neg hbegins, if_neg fun hu => hbegins hu.isPrefix]
    · -- `RunPlugin`
      rintro env p rfl
      have htest := (needsNoOutput_iff hmount' hpath').trans hunder.symm
      by_cases hu : UnderMount args.mountPoint p.OutputPath
      · rw [checkOutput, if_pos (htest.2 hu), if_pos hu]
      · rw [checkOutput, if_neg fun ht => hu (htest.1 ht), if_neg hu]
    · -- `Write`
      rintro m id p data find kill env hm hp rfl hdata
      have htest := (needsNoOutput_iff hmount' hpath').trans hunder.symm
      rw [PluginMan.write_eq hp hdata, hm]
      simp only [Bool.or_eq_true, htest]

end Absolute

/-- Only the mount point matters here. -/
def mountedAt (mountPoint : Bytes) : LoadArgs :=
  { init_mode := 0
    init_dmode := 0
    init_uid := 0
    init_gid := 0
    mountPoint := mountPoint
    pagesize := 4096 }

/-- Nothing can be made. -/
def barrenEnv : LoadEnv :=
  { realpath := fun _ => none
    regcomp := fun _ => false
    addPluginInfo := fun _ => none
    mkdirByAbsPath := fun _ _ => none
    makeFileByAbsPath := fun _ _ _ => none
    now := fun _ => none }

/-- `/m2/x` beside the mount point `/m`. -/
theorem respectsComponents_iff_beside :
    RespectsComponents (mountedAt (ascii "/m")) (ascii "/m2/x") ↔
      (ascii "/m" <+: ascii "/m2/x" → ascii "/m" ++ [SLASH] <+: ascii "/m2/x") :=
  respectsComponents_iff (by decide +kernel) (by decide +kernel)

/-- An output at the mount point itself makes `substr` throw. -/
theorem not_respectsComponents :
    ¬ ∀ (args : LoadArgs) (path : Bytes),
      args.mountPoint.head? = some SLASH → args.mountPoint.getLast? ≠ some SLASH →
        path.head? = some SLASH → RespectsComponents args path := by
  intro h
  let pRule : K2hFtRule := { K2hFtRule.fresh with OutputPath := ascii "/m" }
  have hself := h (mountedAt (ascii "/m")) (ascii "/m") (by decide +kernel) (by decide +kernel)
    (by decide +kernel)
  have hthrows : initOutput (mountedAt (ascii "/m")) barrenEnv ∅ [] pRule = .error .fault := by
    rw [initOutput_eq (show (ascii "/m").head? = some SLASH by decide +kernel)]
    exact (if_pos (by decide +kernel)).trans (if_pos (by decide +kernel))
  have houtside : ¬ UnderMount (mountedAt (ascii "/m")).mountPoint (ascii "/m") := by decide +kernel
  have hmade := hself.loader barrenEnv ∅ [] pRule rfl
  rw [hthrows, if_neg houtside] at hmade
  cases hmade

end K2hFtFuse
