import K2hFtFuse.Info.History
import K2hFtFuse.Info.Ops

/-!
# Info.Locking — `prule_lockval` in the operations of `K2hFtInfo`

Every operation leaves the lock as it found it and does not wait for itself. `CreateFile` does so but
on one path, on which it returns with the lock (`CreateFileKeepsLock`).
-/

namespace K2hFtFuse

open ByteSeq SpinLock

namespace K2hFtInfo

/-- The outcome of a computation that found the lock in the state `b`. -/
abbrev LockSettles {α : Type} (b : Bool) : Except Stop (α × K2hFtInfo) → Prop :=
  Settles (fun r : α × K2hFtInfo => r.2.prule_lockval) false b

/-! ## Computations without the lock -/

theorem deref_ne_spin (info : K2hFtInfo) (key : Bytes) (rule : K2hFtRule) :
    info.deref key rule ≠ .error .spin := by
  unfold deref
  split <;> simp

theorem derefAll_ne_spin (info : K2hFtInfo) : info.derefAll ≠ .error .spin := by
  unfold derefAll
  split <;> simp

theorem initOutput_ne_spin (args : LoadArgs) (env : LoadEnv) (RuleMap : OrdMap Bytes K2hFtRule)
    (key : Bytes) (pRule : K2hFtRule) : initOutput args env RuleMap key pRule ≠ .error .spin := by
  unfold initOutput
  repeat' (first | split | simp)

theorem initOutputs_ne_spin (args : LoadArgs) (env : LoadEnv) (entries : List (Bytes × K2hFtRule))
    (RuleMap : OrdMap Bytes K2hFtRule) : initOutputs args env entries RuleMap ≠ .error .spin := by
  induction entries generalizing RuleMap with
  | nil =>
      simp [initOutputs]
  | cons e rest ih =>
      rcases e with ⟨key, pRule⟩
      have hhead := initOutput_ne_spin args env RuleMap key pRule
      rw [initOutputs]
      split
      · rename_i e he
        rw [he] at hhead
        simpa using hhead
      · simp
      · exact ih _

/-! ## Taking the lock -/

/-- What runs between lock and unlock starts with the lock held, where it was free. -/
theorem settles_lock {γ : Type} {held : γ → Bool} {info : K2hFtInfo} {f : K2hFtInfo → Except Stop γ}
    (h : info.prule_lockval = false → Settles held false false (f info.locked)) :
    Settles held false info.prule_lockval (info.lock >>= f) := by
  cases hlock : info.prule_lockval with
  | false =>
      rw [lock_of_free hlock]
      exact h hlock
  | true =>
      rw [lock_of_held hlock]
      exact settles_of_held (by decide)

theorem clean_settles (now : Option Timespec) (info : K2hFtInfo) :
    Settles prule_lockval false info.prule_lockval (info.clean now) := by
  unfold clean
  refine settles_lock fun _ => ?_
  exact settles_bind_of_ne_spin (derefAll_ne_spin _) fun _ _ => settles_ok rfl

/-! ## Lookup and changes of attributes -/

theorem findPath_settles (pagesize : Nat) (path : Bytes) (info : K2hFtInfo) :
    LockSettles info.prule_lockval (findPath pagesize path info) := by
  unfold findPath
  split
  · exact settles_ok rfl
  · split
    · exact settles_ok rfl
    · split
      · exact settles_ok rfl
      · refine settles_lock fun _ => ?_
        split
        · exact settles_bind_of_ne_spin (deref_ne_spin _ _ _) fun _ _ => settles_ok rfl
        · exact settles_ok rfl
        · exact settles_ok rfl

theorem getFileHandle_settles (path : Bytes) (info : K2hFtInfo) :
    LockSettles info.prule_lockval (getFileHandle path info) := by
  unfold getFileHandle
  split
  · exact settles_ok rfl
  · split
    · exact settles_ok rfl
    · split
      · exact settles_ok rfl
      · refine settles_lock fun _ => ?_
        split
        · exact settles_ok rfl
        · exact settles_ok rfl

theorem listEntries_ne_spin (info : K2hFtInfo) (pagesize : Nat) (path : Bytes)
    (entries : List (Bytes × K2hFtRule)) (list : List K2hFtListDir) :
    info.listEntries pagesize path entries list ≠ .error .spin := by
  induction entries generalizing list with
  | nil =>
      simp [listEntries]
  | cons e rest ih =>
      rcases e with ⟨key, rule⟩
      have hentry : info.listEntry pagesize path list key rule ≠ .error .spin := by
        unfold listEntry
        split
        · simp
        · split
          · simp
          · split
            · simp
            · split
              · simp
              · rcases hderef : info.deref key rule with e | rule'
                · have hne := deref_ne_spin info key rule
                  rw [hderef] at hne
                  simpa [Bind.bind, Except.bind] using hne
                · simp [Bind.bind, Except.bind, pure, Except.pure]
      rw [listEntries]
      rcases hlist : info.listEntry pagesize path list key rule with e | list'
      · rw [hlist] at hentry
        simpa [Bind.bind, Except.bind] using hentry
      · exact ih list'

theorem readDir_settles (pagesize : Nat) (path : Bytes) (info : K2hFtInfo) :
    LockSettles info.prule_lockval (readDir pagesize path info) := by
  unfold readDir
  split
  · exact settles_ok rfl
  · refine settles_lock fun _ => ?_
    exact settles_bind_of_ne_spin (listEntries_ne_spin _ _ _ _ _) fun _ _ => settles_ok rfl

/-- `TruncateZero`, `SetOwner`, `SetMode` and `SetTimespec`. -/
theorem changeRule_settles (takesLock : Bool) (path : Bytes) (change : K2hFtRule → Bool × K2hFtRule)
    (info : K2hFtInfo) : LockSettles info.prule_lockval (changeRule takesLock path change info) := by
  unfold changeRule
  split
  · exact settles_ok rfl
  · split
    · exact settles_ok rfl
    · split
      · exact settles_ok rfl
      · cases takesLock with
        | true =>
            refine settles_lock fun _ => ?_
            dsimp only
            split
            · refine settles_bind_of_ne_spin (deref_ne_spin _ _ _) fun _ _ => ?_
              split
              · exact settles_ok rfl
              · exact settles_ok rfl
            · exact settles_ok rfl
        | false =>
            -- without the lock, the operation goes on with the object as it is
            refine settles_bind_of_ne_spin (by simp) fun info₁ hinfo => ?_
            obtain rfl : info = info₁ := by simpa using hinfo
            dsimp only
            split
            · refine settles_bind_of_ne_spin (deref_ne_spin _ _ _) fun _ _ => ?_
              split
              · exact settles_ok rfl
              · exact settles_ok rfl
            · exact settles_ok rfl

theorem dump_settles (info : K2hFtInfo) : LockSettles info.prule_lockval (dump info) := by
  unfold dump
  split
  · exact settles_ok rfl
  · refine settles_lock fun _ => ?_
    exact settles_bind_of_ne_spin (derefAll_ne_spin _) fun _ _ => settles_ok rfl

/-! ## The loaders -/

theorem initializeOutputFiles_settles (args : LoadArgs) (env : LoadEnv) (info : K2hFtInfo) :
    LockSettles info.prule_lockval (info.initializeOutputFiles args env) := by
  unfold initializeOutputFiles
  refine settles_bind_of_ne_spin (derefAll_ne_spin _) fun _ _ => ?_
  refine settles_bind_of_ne_spin (initOutputs_ne_spin _ _ _ _) fun outputs _ => ?_
  cases outputs with
  | none => exact settles_ok rfl
  | some RuleMap => exact settles_ok rfl

theorem checkBinaryMode_settles (info : K2hFtInfo) :
    Settles prule_lockval false info.prule_lockval info.checkBinaryMode := by
  unfold checkBinaryMode
  split
  · exact settles_ok rfl
  · exact settles_bind_of_ne_spin (derefAll_ne_spin _) fun _ _ => settles_ok rfl

/-- A loader that cleans and returns. -/
theorem clean_return_settles {α : Type} {b : Bool} {info : K2hFtInfo} (hb : info.prule_lockval = b)
    (now : Option Timespec) (a : α) :
    LockSettles b (do
      let info ← info.clean now
      return (a, info)) := by
  rw [← hb]
  exact (clean_settles now info).bind fun _ _ hheld => settles_ok hheld

section Yaml

variable {lib : ConfLib} {stack : YamlDataStack} {args : LoadArgs} {env : LoadEnv} {top : YamlTop}

theorem failYamlRule_settles (info : K2hFtInfo) :
    LockSettles info.prule_lockval (info.failYamlRule env) :=
  (clean_settles _ info).bind fun _ _ hheld => clean_return_settles hheld _ _

theorem yamlAclStep_settles {is_key_allow : Bool} {sec : YamlRule} {phase : YamlAclPhase}
    {event : YamlEvent} (info : K2hFtInfo) :
    LockSettles info.prule_lockval (yamlAclStep env top is_key_allow sec phase event info) := by
  unfold yamlAclStep
  split
  case h_9 => exact failYamlRule_settles info
  all_goals exact settles_ok rfl

theorem yamlRuleScalar_settles {sec : YamlRule} {value : Bytes} (info : K2hFtInfo) :
    LockSettles info.prule_lockval (yamlRuleScalar lib env top sec value info) := by
  unfold yamlRuleScalar
  split
  · split
    · exact settles_ok rfl
    · exact settles_ok rfl
  · split
    · split
      · exact settles_fault
      · exact settles_ok rfl
    · exact settles_ok rfl

theorem yamlRuleStep_settles {sec : YamlRule} {event : YamlEvent} (info : K2hFtInfo) :
    LockSettles info.prule_lockval (yamlRuleStep lib args env top sec event info) := by
  unfold yamlRuleStep
  split
  · split
    · exact failYamlRule_settles info
    · exact settles_ok rfl
  · split
    · exact failYamlRule_settles info
    · split
      · exact settles_fault
      · exact settles_ok rfl
  · split
    · exact failYamlRule_settles info
    · -- the sequence ends
      refine (initializeOutputFiles_settles args env info).bind fun outputs _ hheld => ?_
      rcases outputs with ⟨result, info₁⟩
      cases result with
      | false => exact clean_return_settles hheld _ _
      | true =>
          have hcheck := checkBinaryMode_settles info₁
          rw [show info₁.prule_lockval = info.prule_lockval from hheld] at hcheck
          exact hcheck.bind fun _ _ hheld' => settles_ok hheld'
  · exact yamlRuleScalar_settles info
  · exact failYamlRule_settles info

theorem yamlMainStep_settles {key : Bytes} {event : YamlEvent} (info : K2hFtInfo) :
    LockSettles info.prule_lockval (yamlMainStep lib env top key event info) := by
  unfold yamlMainStep
  split
  · split
    · exact settles_ok rfl
    · exact clean_return_settles rfl _ _
  · rename_i value
    split
    · split
      · exact settles_ok rfl
      · exact settles_ok rfl
    · have hsame := loadMainKey_sameRules lib env (fun name => strcasecmp name key) value info
      split
      · rename_i info₁ hkey
        rw [hkey] at hsame
        exact settles_ok hsame.prule_lockval
      · rename_i info₁ hkey
        rw [hkey] at hsame
        exact clean_return_settles hsame.prule_lockval _ _
  · exact clean_return_settles rfl _ _

theorem yamlStep_settles {phase : YamlPhase} {event : YamlEvent} (info : K2hFtInfo) :
    LockSettles info.prule_lockval (yamlStep lib stack args env top phase event info) := by
  cases phase with
  | top => exact settles_ok rfl
  | mainStart =>
      simp only [yamlStep]
      split
      · exact settles_ok rfl
      · exact settles_ok rfl
  | main key => exact yamlMainStep_settles info
  | ruleStart =>
      simp only [yamlStep]
      split
      · exact settles_ok rfl
      · exact clean_return_settles rfl _ _
  | rule sec => exact yamlRuleStep_settles info
  | acl is_key_allow sec aclPhase => exact yamlAclStep_settles info

theorem yamlParseError_settles {phase : YamlPhase} (info : K2hFtInfo) :
    LockSettles info.prule_lockval (info.yamlParseError env phase) := by
  have htwice : LockSettles info.prule_lockval (do
      let info ← info.clean (env.now 0)
      let info ← info.clean (env.now 1)
      return (false, info)) :=
    (clean_settles _ info).bind fun _ _ hheld => clean_return_settles hheld _ _
  cases phase with
  | top => exact settles_ok rfl
  | mainStart => exact settles_ok rfl
  | main key => exact clean_return_settles rfl _ _
  | ruleStart => exact clean_return_settles rfl _ _
  | rule sec => exact htwice
  | acl is_key_allow sec phase => exact htwice

theorem loadYamlEvents_settles {events : List YamlRead} {phase : YamlPhase} (info : K2hFtInfo) :
    LockSettles info.prule_lockval (loadYamlEvents lib stack args env events top phase info) := by
  induction events generalizing top phase info with
  | nil =>
      exact yamlParseError_settles info
  | cons read rest ih =>
      have hread : LockSettles info.prule_lockval
          (yamlStep lib stack args read.env top phase read.event info) := yamlStep_settles info
      rw [loadYamlEvents]
      split
      · rename_i e he
        rw [he] at hread
        exact hread
      · rename_i result info₁ he
        exact settles_ok (hread.held_eq he)
      · rename_i top₁ phase₁ info₁ he
        have hheld : info₁.prule_lockval = info.prule_lockval := hread.held_eq he
        rw [← hheld]
        exact ih info₁

end Yaml

section Ini

variable {lib : ConfLib} {args : LoadArgs}

theorem loadIniMainLines_settles {body : List IniLine} (info : K2hFtInfo) :
    LockSettles info.prule_lockval (loadIniMainLines lib body info) := by
  induction body generalizing info with
  | nil =>
      exact settles_ok rfl
  | cons line rest ih =>
      have hsame := loadMainKey_sameRules lib line.env
        (fun name => name == (parseIniLine lib line.text).1) (parseIniLine lib line.text).2 info
      simp only [loadIniMainLines]
      split
      · rename_i info₁ hkey
        rw [hkey] at hsame
        exact clean_return_settles hsame.prule_lockval _ _
      · rename_i info₁ hkey
        rw [hkey] at hsame
        have hheld : info₁.prule_lockval = info.prule_lockval := hsame.prule_lockval
        rw [← hheld]
        exact ih info₁

theorem loadIniSections_settles {secs : List IniSection} {set_main_sec : Bool} (info : K2hFtInfo) :
    LockSettles info.prule_lockval (loadIniSections lib args secs set_main_sec info) := by
  induction secs generalizing set_main_sec info with
  | nil =>
      exact settles_ok rfl
  | cons sec rest ih =>
      simp only [loadIniSections]
      split
      · split
        · exact clean_return_settles rfl _ _
        · refine (loadIniMainLines_settles info).bind fun main _ hheld => ?_
          rcases main with ⟨result, info₁⟩
          cases result with
          | false => exact settles_ok hheld
          | true =>
              simp only [Bool.not_true, Bool.false_eq_true, if_false]
              split
              · exact clean_return_settles hheld _ _
              · have hrest := @ih true info₁
                rwa [show info₁.prule_lockval = info.prule_lockval from hheld] at hrest
      · split
        · exact ih _
        · exact ih info

theorem finishIni_settles {conffile : Bytes} {env : LoadEnv} (info : K2hFtInfo) :
    LockSettles info.prule_lockval (finishIni args conffile env info) := by
  unfold finishIni
  split
  · exact clean_return_settles rfl _ _
  · refine (initializeOutputFiles_settles args env info).bind fun outputs _ hheld => ?_
    rcases outputs with ⟨result, info₁⟩
    cases result with
    | false => exact clean_return_settles hheld _ _
    | true =>
        have hcheck := checkBinaryMode_settles info₁
        rw [show info₁.prule_lockval = info.prule_lockval from hheld] at hcheck
        exact hcheck.bind fun _ _ hheld' => settles_ok hheld'

end Ini

theorem load_settles (lib : ConfLib) (stack : YamlDataStack) (args : LoadArgs) (config : Bytes)
    (source : ConfSource) (info : K2hFtInfo) :
    LockSettles info.prule_lockval (info.load lib stack args config source) := by
  cases source with
  | unknown => exact settles_ok rfl
  | ini lines env =>
      change LockSettles _ (loadIni lib args config lines env info)
      unfold loadIni
      split
      · exact settles_ok rfl
      · split
        · exact settles_ok rfl
        · cases lines with
          | none => exact settles_ok rfl
          | some lines =>
              refine (loadIniSections_settles info).bind fun sections _ hheld => ?_
              rcases sections with ⟨result, info₁⟩
              cases result with
              | false => exact settles_ok hheld
              | true =>
                  have hfinish : LockSettles info₁.prule_lockval (finishIni args config env info₁) :=
                    finishIni_settles info₁
                  rwa [show info₁.prule_lockval = info.prule_lockval from hheld] at hfinish
  | yaml events env =>
      change LockSettles _ (loadYaml lib stack args config events env info)
      unfold loadYaml
      cases events with
      | none => exact settles_ok rfl
      | some events =>
          refine (loadYamlEvents_settles info).bind fun read _ hheld => ?_
          rcases read with ⟨result, info₁⟩
          cases result with
          | false => exact settles_ok hheld
          | true => exact settles_ok hheld

/-! ## `CreateFile` -/

/-- `CreateFile` takes the lock for a path that is not registered and has no parent path. -/
structure CreateFileKeepsLock (path : Bytes) (info : K2hFtInfo) : Prop where
  free : info.prule_lockval = false
  nonempty : path ≠ []
  notMountPoint : path ≠ ascii "/"
  loaded : info.isLoad = true
  unregistered : info.RuleMap.find? (stripSlash path) = none
  parentless : getParentDirpath (stripSlash path) = none

theorem createUnder_settles {env : CreateEnv} {path : Bytes} {parent pTmpRule : K2hFtRule}
    {handle : Option Bytes} {info : K2hFtInfo} :
    Settles (fun r : (Bool × Option Bytes) × K2hFtInfo => r.2.prule_lockval) false false
      (createUnder env path parent pTmpRule handle info) := by
  unfold createUnder
  split
  · exact settles_ok rfl
  · split
    · exact settles_fault
    · split
      · exact settles_fault
      · dsimp only
        split
        · exact settles_ok rfl
        · split
          · exact settles_ok rfl
          · split
            · exact settles_ok rfl
            · exact settles_ok rfl

theorem createFile_settles {env : CreateEnv} {path : Bytes} {mode uid gid : UInt32}
    {handle : Option Bytes} {info : K2hFtInfo} (hpath : ¬ CreateFileKeepsLock path info) :
    LockSettles info.prule_lockval (createFile env path mode uid gid handle info) := by
  unfold createFile
  split
  · exact settles_ok rfl
  · rename_i hnonempty
    split
    · exact settles_ok rfl
    · rename_i hmount
      split
      · exact settles_ok rfl
      · rename_i hloaded
        refine settles_lock fun hfree => ?_
        split
        · exact settles_ok rfl
        · rename_i hunregistered
          split
          · rename_i hparentless
            exact absurd ⟨hfree, hnonempty, hmount, by simpa using hloaded, hunregistered,
              hparentless⟩ hpath
          · split
            · exact settles_ok rfl
            · exact settles_bind_of_ne_spin (deref_ne_spin _ _ _) fun _ _ => createUnder_settles

/-- On the one path, the lock stays held. -/
theorem createFile_keepsLock {env : CreateEnv} {path : Bytes} {mode uid gid : UInt32}
    {handle : Option Bytes} {info : K2hFtInfo} (h : CreateFileKeepsLock path info) :
    createFile env path mode uid gid handle info = .ok ((false, handle), info.locked) := by
  have hloaded : (!info.isLoad) = false := by simp [h.loaded]
  simp only [createFile, h.nonempty, h.notMountPoint, hloaded, if_false, Bool.false_eq_true,
    lock_of_free h.free, Bind.bind, Except.bind, locked_RuleMap, h.unregistered, h.parentless]
  rfl

end K2hFtInfo

end K2hFtFuse
