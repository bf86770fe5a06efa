import K2hFtFuse.Fuse.Attributes
import K2hFtFuse.Svr.Processing

/-!
# Fuse.Ownership — what runs of hooks leave of the configuration

This file defines:
* `Kept`: what no step changes in a rule,
* `Evolves`: rules stay, and the ones that are added are for files,
* `HandlesFiles`: the handles that requests have got are those of files.

and shows that no interleaving of calls changes what the configuration says about a rule, nor anything of
a directory (`configuration_kept`), and that callers who are neither root nor the owner leave mode and
owner alone (`strangers_change_nothing`).
-/

namespace K2hFtFuse

open ByteSeq SpinLock Transition K2hFtInfo Outcome

/-! ## What stays of a rule -/

/-- The same rule but for permissions, owner, size and time. -/
structure Kept (rule rule' : K2hFtRule) : Prop where
  others : rule' =
    { rule with
      Mode := rule'.Mode
      Uid := rule'.Uid
      Gid := rule'.Gid
      AccumSize := rule'.AccumSize
      LastTime := rule'.LastTime }
  Mode : rule'.Mode &&& ~~~S_IRWXUGO = rule.Mode &&& ~~~S_IRWXUGO

namespace Kept

variable {rule rule' rule'' : K2hFtRule}

theorem refl (rule : K2hFtRule) : Kept rule rule := ⟨rfl, rfl⟩

theorem trans (h : Kept rule rule') (h' : Kept rule' rule'') : Kept rule rule'' := by
  refine ⟨?_, h'.Mode.trans h.Mode⟩
  rw [h'.others, h.others]

/-- The kind of file is not among the permissions. -/
theorem isDir (h : Kept rule rule') : S_ISDIR rule'.Mode = S_ISDIR rule.Mode := by
  have hmask : ∀ mode : UInt32, mode &&& S_IFMT = (mode &&& ~~~S_IRWXUGO) &&& S_IFMT := by
    intro mode
    rw [UInt32.and_assoc]
    rfl
  unfold S_ISDIR
  rw [hmask rule'.Mode, h.Mode, ← hmask rule.Mode]

theorem touch (now : Option Timespec) (h : Kept rule rule') :
    Kept rule (K2hFtInfo.touch now rule').2 := by
  cases now with
  | none => exact h
  | some now =>
      refine ⟨?_, h.Mode⟩
      change ({ rule' with LastTime := now } : K2hFtRule) = _
      rw [h.others]
      rfl

/-- `SetMode` keeps the bits that are no permissions. -/
theorem mode_bits (mode perm : UInt32) :
    ((mode &&& ~~~S_IRWXUGO) ||| (perm &&& S_IRWXUGO &&& S_IRWXUGO)) &&& ~~~S_IRWXUGO =
      mode &&& ~~~S_IRWXUGO := by
  have hdistrib : ∀ a b c : UInt32, (a ||| b) &&& c = (a &&& c) ||| (b &&& c) :=
    fun a b c => UInt32.toBitVec_inj.1 BitVec.and_or_distrib_right
  calc ((mode &&& ~~~S_IRWXUGO) ||| (perm &&& S_IRWXUGO &&& S_IRWXUGO)) &&& ~~~S_IRWXUGO
      = ((mode &&& ~~~S_IRWXUGO) &&& ~~~S_IRWXUGO) |||
          ((perm &&& S_IRWXUGO &&& S_IRWXUGO) &&& ~~~S_IRWXUGO) := hdistrib _ _ _
    _ = (mode &&& ~~~S_IRWXUGO) ||| 0 := by
        have hnone : S_IRWXUGO &&& ~~~S_IRWXUGO = 0 := by decide
        rw [UInt32.and_assoc, UInt32.and_self, UInt32.and_assoc, hnone, UInt32.and_zero]
    _ = mode &&& ~~~S_IRWXUGO := UInt32.or_zero

theorem on (change : AttrChange) (now : Option Timespec) (rule : K2hFtRule) :
    Kept rule (change.on now rule) := by
  cases change with
  | mode perm => exact touch now ⟨rfl, mode_bits _ _⟩
  | owner uid gid => exact touch now ⟨rfl, rfl⟩
  | times ts => exact ⟨rfl, rfl⟩

end Kept

theorem infoProcessing_kept {malloc IsBinaryMode : Bool} {env : ProcessEnv}
    {rule rule' : K2hFtRule} {value : Bytes} {result : Bool} {effects : ProcessEffects}
    (h : infoProcessing malloc env IsBinaryMode rule value = some (result, effects, rule')) :
    rule'.Mode = rule.Mode ∧ rule'.Uid = rule.Uid ∧ rule'.Gid = rule.Gid ∧ Kept rule rule' := by
  unfold infoProcessing at h
  split at h
  · cases h
    exact ⟨rfl, rfl, rfl, .refl rule⟩
  · rcases Option.bind_eq_some_iff.1 h with ⟨size, -, h⟩
    rcases Option.bind_eq_some_iff.1 h with ⟨sets, -, h⟩
    rcases Option.bind_eq_some_iff.1 h with ⟨lines, -, h⟩
    cases h
    exact ⟨rfl, rfl, rfl, rfl, rfl⟩

/-- An update keeps the rule that was there. -/
theorem RuleUpdate.kept {s : AttrServer} {l : AttrLabel} {key : Bytes} {old : Option K2hFtRule}
    {rule rule' : K2hFtRule} {events : List AttrEvent} (h : RuleUpdate s l key old rule' events)
    (hold : old = some rule) : Kept rule rule' := by
  cases h with
  | created l key rule' hsize hfile => cases hold
  | changed c now r rule' hphase hfile =>
      cases hold
      exact .on r.change now rule
  | zeroed path now rule' hfile =>
      cases hold
      exact .touch now ⟨rfl, rfl⟩
  | touched c now key rule' hhandle =>
      cases hold
      exact .touch now (.refl rule)
  | processed c malloc env key value rule₁ rule' result effects hhandle hprocess =>
      cases hold
      exact (infoProcessing_kept hprocess).2.2.2

/-! ## What becomes of all rules -/

/-- No rule is lost, each is kept, and the rules that come are for files. -/
structure Evolves (info info' : K2hFtInfo) : Prop where
  Config : info'.Config = info.Config
  kept : ∀ key rule, info.RuleMap.find? key = some rule →
    ∃ rule', info'.RuleMap.find? key = some rule' ∧ Kept rule rule'
  added : ∀ key rule', info.RuleMap.find? key = none → info'.RuleMap.find? key = some rule' →
    S_ISDIR rule'.Mode = false

namespace Evolves

variable {info info' : K2hFtInfo}

theorem of_same (hConfig : info'.Config = info.Config) (hRuleMap : info'.RuleMap = info.RuleMap) :
    Evolves info info' := by
  refine ⟨hConfig, ?_, ?_⟩
  · intro key rule hrule
    exact ⟨rule, by rw [hRuleMap, hrule], .refl rule⟩
  · intro key rule' hnone hrule'
    rw [hRuleMap, hnone] at hrule'
    cases hrule'

/-- A path that leads to a rule had led to the same one, or to none. -/
theorem ruleAt (h : Evolves info info') {path : Bytes} {rule' : K2hFtRule}
    (hrule' : K2hFtFuse.ruleAt info' path = some rule') :
    (∃ rule, K2hFtFuse.ruleAt info path = some rule ∧ Kept rule rule') ∨
      S_ISDIR rule'.Mode = false := by
  rcases ruleAt_eq_some hrule' with ⟨hreg, hfind⟩
  cases hrule : info.RuleMap.find? (stripSlash path) with
  | none => exact .inr (h.added _ _ hrule hfind)
  | some rule =>
      rcases h.kept _ rule hrule with ⟨rule₁, hrule₁, hkept⟩
      obtain rfl : rule₁ = rule' := Option.some.inj (hrule₁.symm.trans hfind)
      refine .inl ⟨rule, ?_, hkept⟩
      have hload : info.isLoad = true := by
        simpa [isLoad, h.Config] using hreg.loaded
      rw [K2hFtFuse.ruleAt, if_neg, hrule]
      simp [hreg.notEmpty, hreg.notRoot, hload]

end Evolves

namespace AttrServer

variable {env : FuseEnv} {s t : AttrServer} {l : AttrLabel}

theorem step_evolves (h : step env s l = some t) : Evolves s.info t.info := by
  rcases step_rules h with ⟨hConfig, ⟨hrules, -⟩ | ⟨key, rule', events, hupdate, hrules, -⟩⟩
  · exact .of_same hConfig hrules
  · have hinsert : t.info.RuleMap = s.info.RuleMap.insert key rule' := hrules
    refine ⟨hConfig, ?_, ?_⟩
    · intro key' rule hrule
      rw [hinsert, OrdMap.find?_insert]
      split
      · rename_i heq
        subst heq
        exact ⟨rule', rfl, hupdate.kept hrule⟩
      · exact ⟨rule, hrule, .refl rule⟩
    · intro key' rule'' hnone hrule''
      rw [hinsert, OrdMap.find?_insert] at hrule''
      split at hrule''
      · rename_i heq
        subst heq
        obtain rfl := Option.some.inj hrule''
        -- the other updates are of rules that are there
        have hold : s.rules.find? key' = none := hnone
        rw [hold] at hupdate
        cases hupdate with
        | created l key rule hsize hfile => exact hfile
      · rw [hnone] at hrule''
        cases hrule''

end AttrServer

/-! ## Handles -/

/-- There is a rule for a file under the key. -/
def IsFile (info : K2hFtInfo) (key : Bytes) : Prop :=
  ∃ rule, info.RuleMap.find? key = some rule ∧ S_ISDIR rule.Mode = false

/-- A request has the handles of files only, and gets only such. -/
def HandlesFiles (info : K2hFtInfo) : RequestPhase → Prop
  | .idle => True
  | .handle r => ∀ rule, ruleAt info r.path = some rule → S_ISDIR rule.Mode = false
  | .parent _ _ file_handle => ∀ key, file_handle = some key → IsFile info key
  | .creating _ => True
  | .returned _ _ fh => ∀ key, fh = some key → IsFile info key

theorem IsFile.of_evolves {info info' : K2hFtInfo} {key : Bytes} (h : IsFile info key)
    (hevolves : Evolves info info') : IsFile info' key := by
  rcases h with ⟨rule, hrule, hfile⟩
  rcases hevolves.kept key rule hrule with ⟨rule', hrule', hkept⟩
  exact ⟨rule', hrule', hkept.isDir.trans hfile⟩

theorem HandlesFiles.of_evolves {info info' : K2hFtInfo} {phase : RequestPhase}
    (h : HandlesFiles info phase) (hevolves : Evolves info info') : HandlesFiles info' phase := by
  cases phase with
  | idle => trivial
  | handle r =>
      intro rule' hrule'
      rcases hevolves.ruleAt hrule' with ⟨rule, hrule, hkept⟩ | hfile
      · exact hkept.isDir.trans (h rule hrule)
      · exact hfile
  | parent r parentpath file_handle => exact fun key hkey => (h key hkey).of_evolves hevolves
  | creating r => trivial
  | returned r result fh => exact fun key hkey => (h key hkey).of_evolves hevolves

theorem handlesFiles_toParent {info : K2hFtInfo} {r : Request} {file_handle : Option Bytes}
    (h : ∀ key, file_handle = some key → IsFile info key) :
    HandlesFiles info (toParent r file_handle) := by
  unfold toParent
  split
  · intro key hkey
    cases hkey
  · exact h

namespace FuseServer

variable {env : FuseEnv} {s t : FuseServer}

/-- A request that goes on gets a handle only where its look at the path has found a file. -/
theorem step_handlesFiles {l : ServeLabel} (h : step env s l = some t)
    (hevolves : Evolves s.info t.info) (hinv : ∀ c, HandlesFiles s.info (s.phaseOf c)) (c : Nat) :
    HandlesFiles t.info (t.phaseOf c) := by
  -- the other requests stand where they stood
  have hrest : ∀ {c'} {phase : RequestPhase}, HandlesFiles t.info phase →
      t.phaseOf c' = phase → (∀ c₁, c₁ ≠ c' → t.phaseOf c₁ = s.phaseOf c₁) →
      HandlesFiles t.info (t.phaseOf c) := by
    intro c' phase hphase hnext hothers
    by_cases hc : c = c'
    · rw [hc, hnext]
      exact hphase
    · rw [hothers c hc]
      exact (hinv c).of_evolves hevolves
  cases l with
  | findPath c' r =>
      simp only [step] at h
      cases hphase : s.phaseOf c' <;> simp only [hphase] at h <;> try cases h
      rcases call_eq_some h with ⟨stbuf, hop, hnext, hothers⟩
      refine hrest ?_ hnext hothers
      unfold afterFindPath
      split
      · exact handlesFiles_toParent (by simp)
      · rename_i stbuf
        split
        · intro key hkey
          cases hkey
        · rename_i hdir
          split
          · intro rule hrule
            have hat : ruleAt s.info r.path = some rule := by
              rw [← findPath_eq_ok hop]
              exact hrule
            obtain rfl := Option.some.inj (findPath_of_ruleAt hat hop).1
            simpa [K2hFtRule.stat] using hdir
          · intro key hkey
            cases hkey
  | getFileHandle c' =>
      simp only [step] at h
      cases hphase : s.phaseOf c' <;> simp only [hphase] at h <;> try cases h
      rename_i r
      rcases call_eq_some h with ⟨file_handle, hop, hnext, hothers⟩
      refine hrest (handlesFiles_toParent ?_) hnext hothers
      intro key hkey
      rcases (getFileHandle_eq_ok hop).2 key hkey with ⟨rfl, hreg⟩
      rcases Option.isSome_iff_exists.1 hreg.entry with ⟨rule, hfind⟩
      have hat : ruleAt s.info r.path = some rule := by
        rw [ruleAt, if_neg, hfind]
        simp [hreg.notEmpty, hreg.notRoot, hreg.loaded]
      have hfile := hinv c'
      rw [hphase] at hfile
      rw [(getFileHandle_eq_ok hop).1]
      exact ⟨rule, hfind, hfile rule hat⟩
  | findParent c' =>
      simp only [step] at h
      cases hphase : s.phaseOf c' <;> simp only [hphase] at h <;> try cases h
      rename_i r parentpath file_handle
      rcases call_eq_some h with ⟨parent_stbuf, hop, hnext, hothers⟩
      refine hrest ?_ hnext hothers
      have hhandle := (hinv c').of_evolves hevolves
      rw [hphase] at hhandle
      unfold afterParent
      dsimp only
      split
      · intro key hkey
        cases hkey
      · split
        · intro key hkey
          cases hkey
        · split
          · exact hhandle
          · split
            · intro key hkey
              cases hkey
            · trivial
  | createFile c' createEnv =>
      simp only [step] at h
      cases hphase : s.phaseOf c' <;> simp only [hphase] at h <;> try cases h
      rename_i r
      rcases call_eq_some h with ⟨⟨result, handle⟩, hop, hnext, hothers⟩
      refine hrest ?_ hnext hothers
      have hfile : ∀ key, handle = some key → IsFile t.info key := by
        intro key hkey
        rcases createFile_change hop with ⟨-, ⟨-, hsame⟩ | ⟨rule, hfresh, hrules, hnew, -, hmode⟩⟩
        · rw [hsame] at hkey
          cases hkey
        · obtain rfl : stripSlash r.path = key := Option.some.inj (hnew.symm.trans hkey)
          have hfind : t.info.RuleMap.find? (stripSlash r.path) = some rule := by
            rw [hrules, OrdMap.find?_insert_self]
          exact ⟨rule, hfind, hevolves.added _ _ hfresh hfind⟩
      unfold afterCreateFile
      split
      · exact hfile
      · split
        · intro key hkey
          cases hkey
        · exact hfile

end FuseServer

namespace AttrServer

variable {env : FuseEnv} {s t : AttrServer} {l : AttrLabel}

/-- All open files are files. -/
def OpensFiles (s : AttrServer) : Prop := ∀ c, HandlesFiles s.info (s.files.phaseOf c)

theorem opensFiles_start (info : K2hFtInfo) : OpensFiles (start info) := by
  intro c
  simp [start, FuseServer.start, FuseServer.phaseOf, HandlesFiles]

/-- Only the requests themselves go on. -/
theorem step_requests (h : step env s l = some t) :
    (∃ l', l = .serve l' ∧ s.files.step env l' = some t.files) ∨
      t.files.requests = s.files.requests := by
  cases l with
  | serve l' =>
      rcases Option.map_eq_some_iff.1 h with ⟨files, hfiles, rfl⟩
      exact .inl ⟨l', rfl, hfiles⟩
  | lookup c r =>
      simp only [step] at h
      split at h
      · split at h
        · obtain rfl := Option.some.inj h
          exact .inr rfl
        · rcases call_eq_some h with ⟨answer, info, -, rfl⟩
          exact .inr rfl
      · cases h
  | lookupParent c =>
      simp only [step] at h
      split at h
      · rcases call_eq_some h with ⟨answer, info, -, rfl⟩
        exact .inr rfl
      · cases h
  | apply c now =>
      simp only [step] at h
      split at h
      · rcases call_eq_some h with ⟨answer, info, -, rfl⟩
        exact .inr rfl
      · cases h
  | truncate path length now =>
      simp only [step] at h
      split at h
      · cases h
      · obtain rfl := Option.some.inj h
        exact .inr rfl
  | fsync c isdatasync now =>
      simp only [step] at h
      split at h
      · cases h
      · split at h
        · cases h
        · obtain rfl := Option.some.inj h
          exact .inr rfl
  | processing c penv value =>
      simp only [step] at h
      split at h
      · split at h
        · cases h
        · obtain rfl := Option.some.inj h
          exact .inr rfl
      · cases h

theorem step_opensFiles (h : step env s l = some t) (hinv : OpensFiles s) : OpensFiles t := by
  have hevolves := step_evolves h
  rcases step_requests h with ⟨l', -, hfiles⟩ | hrequests
  · exact FuseServer.step_handlesFiles hfiles hevolves hinv
  · intro c
    have hphase : t.files.phaseOf c = s.files.phaseOf c := by
      simp only [FuseServer.phaseOf, hrequests]
    rw [hphase]
    exact (hinv c).of_evolves hevolves

theorem isFile_of_handleOf (hinv : OpensFiles s) {c : Nat} {key : Bytes}
    (h : s.handleOf c = some (some key)) : IsFile s.info key := by
  unfold handleOf at h
  split at h
  · rename_i r result fh hphase
    split at h
    · have hhandle := hinv c
      rw [hphase] at hhandle
      exact hhandle key (Option.some.inj h)
    · cases h
  · cases h

/-- No update is of a directory. -/
theorem file_of_update (hinv : OpensFiles s) {key : Bytes} {rule rule' : K2hFtRule}
    {events : List AttrEvent} (hrule : s.rules.find? key = some rule)
    (h : RuleUpdate s l key (some rule) rule' events) : S_ISDIR rule.Mode = false := by
  have hhandle : ∀ {c}, s.handleOf c = some (some key) → S_ISDIR rule.Mode = false := by
    intro c hc
    rcases isFile_of_handleOf hinv hc with ⟨rule₁, hrule₁, hfile⟩
    obtain rfl : rule₁ = rule := Option.some.inj (hrule₁.symm.trans hrule)
    exact hfile
  cases h with
  | changed c now r rule hphase hfile => exact hfile
  | zeroed path now rule hfile => exact hfile
  | touched c now key rule hc => exact hhandle hc
  | processed c malloc env key value rule rule' result effects hc hprocess => exact hhandle hc

theorem step_directory (hinv : OpensFiles s) (h : step env s l = some t) {key : Bytes}
    {rule : K2hFtRule} (hrule : s.rules.find? key = some rule) (hdir : S_ISDIR rule.Mode = true) :
    t.rules.find? key = some rule := by
  rcases step_rules h with ⟨-, ⟨hrules, -⟩ | ⟨key', rule', events, hupdate, hrules, -⟩⟩
  · rw [hrules, hrule]
  · rw [hrules, OrdMap.find?_insert]
    split
    · rename_i heq
      subst heq
      rw [hrule] at hupdate
      rw [file_of_update hinv hrule hupdate] at hdir
      cases hdir
    · exact hrule

/-- However the calls interleave, no rule is lost, what the configuration says about it stays, and the
rule of a directory stays as it is. -/
theorem configuration_kept (env : FuseEnv) (info : K2hFtInfo) {labels : List AttrLabel}
    (hrun : run (step env) (start info) labels = some t) {key : Bytes} {rule : K2hFtRule}
    (hrule : info.RuleMap.find? key = some rule) :
    ∃ rule', t.rules.find? key = some rule' ∧ Kept rule rule' ∧
      (S_ISDIR rule.Mode = true → rule' = rule) := by
  have hinv : OpensFiles t ∧ ∃ rule', t.rules.find? key = some rule' ∧ Kept rule rule' ∧
      (S_ISDIR rule.Mode = true → rule' = rule) := by
    have hpres : ∀ s l t, (OpensFiles s ∧ ∃ rule', s.rules.find? key = some rule' ∧ Kept rule rule' ∧
        (S_ISDIR rule.Mode = true → rule' = rule)) → step env s l = some t →
        OpensFiles t ∧ ∃ rule', t.rules.find? key = some rule' ∧ Kept rule rule' ∧
          (S_ISDIR rule.Mode = true → rule' = rule) := by
      rintro s l t ⟨hopens, rule₁, hrule₁, hkept₁, hsame₁⟩ hstep
      refine ⟨step_opensFiles hstep hopens, ?_⟩
      rcases (step_evolves hstep).kept key rule₁ hrule₁ with ⟨rule', hrule', hkept⟩
      refine ⟨rule', hrule', hkept₁.trans hkept, ?_⟩
      intro hdir
      obtain rfl := hsame₁ hdir
      have hstays := step_directory hopens hstep hrule₁ hdir
      exact Option.some.inj (hrule'.symm.trans hstays)
    exact invariant_run hpres hrun
      ⟨opensFiles_start info, rule, hrule, .refl rule, fun _ => rfl⟩
  exact hinv.2

/-- `/log` is a directory whose files are transferred. -/
def transferDirectory : K2hFtInfo :=
  FuseServer.logDirectory.setRule (ascii "log")
    { K2hFtRule.fresh with
      TargetPath := ascii "log"
      IsTransfer := true
      Mode := S_IFDIR ||| 0o777 }

/-- User 1000 makes `/log/a`. -/
def creatorSteps : List AttrLabel :=
  [.serve (.findPath 1
      { kind := .create 0o640
        path := ascii "/log/a"
        pfusectx := { uid := 1000, gid := 1000, umask := 0 } }),
    .serve (.findParent 1), .serve (.createFile 1 FuseServer.noPlugin)]

/-- User `uid` asks for another mode of `/log/a`. -/
def chmodRequest (uid : UInt32) : AttrRequest :=
  { change := .mode 0o666
    path := ascii "/log/a"
    pfusectx := { uid := uid, gid := uid, umask := 0 } }

def transferEnv : ProcessEnv :=
  { getpid := 7
    set := true
    put := fun _ => true
    now := none }

/-- The file is made, and its mode is changed by the owner while a line is passed on. -/
def ownerSteps : List AttrLabel :=
  creatorSteps ++
    [.lookup 2 (chmodRequest 1000), .lookupParent 2, .processing 1 true transferEnv (sampleValue [lineA]),
      .apply 2 none]

theorem directory_kept :
    ∃ t rule, run (step ⟨4096, fun _ _ _ => false⟩) (start transferDirectory) ownerSteps = some t ∧
      transferDirectory.RuleMap.find? (ascii "log") = some rule ∧ S_ISDIR rule.Mode = true ∧
      t.rules.find? (ascii "log") = some rule ∧
      (t.rules.find? (ascii "log/a")).map K2hFtRule.Mode = some (S_IFREG ||| 0o666) := by
  have hrun : (run (step ⟨4096, fun _ _ _ => false⟩) (start transferDirectory) ownerSteps).map
      (fun t => (t.rules.find? (ascii "log/a")).map K2hFtRule.Mode) =
      some (some (S_IFREG ||| 0o666)) := by
    decide +kernel
  rcases Option.map_eq_some_iff.1 hrun with ⟨t, ht, hmode⟩
  have hdir : (transferDirectory.RuleMap.find? (ascii "log")).map (fun rule => S_ISDIR rule.Mode) =
      some true := by
    decide +kernel
  rcases Option.map_eq_some_iff.1 hdir with ⟨rule, hrule, hdir⟩
  rcases configuration_kept _ _ ht hrule with ⟨rule', hrule', -, hsame⟩
  rw [hsame hdir] at hrule'
  exact ⟨t, rule, ht, hrule, hdir, hrule', hmode⟩

end AttrServer

/-! ## Strangers -/

/-- The call has been found to be that of root or the owner, and it has not made its change. -/
def AttrPhase.pending : AttrPhase → Option AttrRequest
  | .parent r _ => some r
  | .applying r => some r
  | .returned _ _ => none

/-- Permissions, owner and group are the same. -/
def SameOwnership (rule rule' : K2hFtRule) : Prop :=
  rule'.Mode = rule.Mode ∧ rule'.Uid = rule.Uid ∧ rule'.Gid = rule.Gid

instance instDecidableSameOwnership (rule rule' : K2hFtRule) : Decidable (SameOwnership rule rule') :=
  inferInstanceAs (Decidable (_ ∧ _ ∧ _))

theorem SameOwnership.touch (now : Option Timespec) {rule rule' : K2hFtRule}
    (h : SameOwnership rule rule') : SameOwnership rule (K2hFtInfo.touch now rule').2 := by
  cases now with
  | none => exact h
  | some now => exact h

/-- Only the change of a pending call is one of permissions, owner or group. -/
theorem RuleUpdate.sameOwnership {s : AttrServer} {l : AttrLabel} {key : Bytes}
    {rule rule' : K2hFtRule} {events : List AttrEvent}
    (h : RuleUpdate s l key (some rule) rule' events) :
    SameOwnership rule rule' ∨
      ∃ c r, s.changes.find? c = some (.applying r) ∧ stripSlash r.path = key := by
  cases h with
  | changed c now r rule hphase hfile => exact .inr ⟨c, r, hphase, rfl⟩
  | zeroed path now rule hfile => exact .inl (.touch now ⟨rfl, rfl, rfl⟩)
  | touched c now key rule hhandle => exact .inl (.touch now ⟨rfl, rfl, rfl⟩)
  | processed c malloc env key value rule rule' result effects hhandle hprocess =>
      rcases infoProcessing_kept hprocess with ⟨hmode, huid, hgid, -⟩
      exact .inl ⟨hmode, huid, hgid⟩

/-- `FindPath` finds the rule under the path, also where the path is none to change anything by. -/
theorem findPath_of_find {info info' : K2hFtInfo} {pagesize : Nat} {path : Bytes} {stbuf : Stat}
    (h : findPath pagesize path info = .ok (some stbuf, info')) (hroot : path ≠ ascii "/")
    {rule : K2hFtRule} (hrule : info.RuleMap.find? (stripSlash path) = some rule) :
    stbuf = rule.stat pagesize := by
  have hempty : path ≠ [] := by
    rintro rfl
    cases h
  have hload : info.isLoad = true := by
    cases hload : info.isLoad with
    | true => rfl
    | false =>
        unfold findPath at h
        rw [if_neg hempty, if_neg hroot, hload] at h
        cases h
  have hat : ruleAt info path = some rule := by
    rw [ruleAt, if_neg, hrule]
    simp [hempty, hroot, hload]
  exact Option.some.inj (findPath_of_ruleAt hat h).1

namespace AttrServer

variable {env : FuseEnv} {s t : AttrServer} {l : AttrLabel}

/-- Call `c` has passed its look at the owner. -/
def pending (s : AttrServer) (c : Nat) : Option AttrRequest :=
  (s.changes.find? c).bind AttrPhase.pending

theorem pending_insert {changes : OrdMap Nat AttrPhase} {c c' : Nat} {phase : AttrPhase} :
    ((changes.insert c phase).find? c').bind AttrPhase.pending =
      if c' = c then phase.pending else (changes.find? c').bind AttrPhase.pending := by
  rw [OrdMap.find?_insert]
  split
  · rfl
  · rfl

theorem afterOwner_pending {r r' : AttrRequest} {stbuf : Option Stat}
    (h : (afterOwner r stbuf).pending = some r') :
    r' = r ∧ ∃ st, stbuf = some st ∧ checkPremissionOwner st r.pfusectx.uid = true := by
  unfold afterOwner at h
  split at h
  · cases h
  · rename_i st
    split at h
    · cases h
    · rename_i howner
      have howner : checkPremissionOwner st r.pfusectx.uid = true := by simpa using howner
      split at h
      · cases h
      · split at h
        · cases h
        · exact ⟨(Option.some.inj h).symm, st, rfl, howner⟩

theorem afterDirectory_pending {r r' : AttrRequest} {parent_stbuf : Option Stat}
    (h : (afterDirectory env r parent_stbuf).pending = some r') : r' = r := by
  unfold afterDirectory at h
  split at h
  · cases h
  · dsimp only at h
    split at h
    · cases h
    · exact (Option.some.inj h).symm

/-- A call becomes pending when it is looked up by root or the owner. -/
theorem step_pending (h : step env s l = some t) {c : Nat} {r : AttrRequest}
    (hpending : t.pending c = some r) :
    s.pending c = some r ∨
      (l = .lookup c r ∧ ∀ rule, s.rules.find? (stripSlash r.path) = some rule →
        r.pfusectx.uid = 0 ∨ r.pfusectx.uid = rule.Uid) := by
  cases l with
  | serve l' =>
      rcases Option.map_eq_some_iff.1 h with ⟨files, -, rfl⟩
      exact .inl hpending
  | lookup c' r' =>
      simp only [step] at h
      split at h
      · split at h
        · obtain rfl := Option.some.inj h
          rw [pending, pending_insert] at hpending
          split at hpending
          · cases hpending
          · exact .inl hpending
        · rename_i hroot
          rcases call_eq_some h with ⟨stbuf, info, hop, rfl⟩
          rw [pending, pending_insert] at hpending
          split at hpending
          · rename_i hc
            subst hc
            rcases afterOwner_pending hpending with ⟨rfl, st, rfl, howner⟩
            refine .inr ⟨rfl, ?_⟩
            intro rule hrule
            -- the owner that was looked at is the owner of the rule
            rw [findPath_of_find hop hroot hrule, checkPremissionOwner, Bool.or_eq_true, beq_iff_eq,
              beq_iff_eq] at howner
            exact howner
          · exact .inl hpending
      · cases h
  | lookupParent c' =>
      simp only [step] at h
      split at h
      · rename_i r' parentpath hphase
        rcases call_eq_some h with ⟨parent_stbuf, info, -, rfl⟩
        rw [pending, pending_insert] at hpending
        split at hpending
        · rename_i hc
          subst hc
          rw [afterDirectory_pending hpending, pending, hphase]
          exact .inl rfl
        · exact .inl hpending
      · cases h
  | apply c' now =>
      simp only [step] at h
      split at h
      · rename_i r' hphase
        rcases call_eq_some h with ⟨result, info, -, rfl⟩
        rw [pending, pending_insert] at hpending
        split at hpending
        · cases hpending
        · exact .inl hpending
      · cases h
  | truncate path length now =>
      simp only [step] at h
      split at h
      · cases h
      · obtain rfl := Option.some.inj h
        exact .inl hpending
  | fsync c' isdatasync now =>
      simp only [step] at h
      split at h
      · cases h
      · split at h
        · cases h
        · obtain rfl := Option.some.inj h
          exact .inl hpending
  | processing c' penv value =>
      simp only [step] at h
      split at h
      · split at h
        · cases h
        · obtain rfl := Option.some.inj h
          exact .inl hpending
      · cases h

/-- The rule is there with this ownership, and no call is about to change it. -/
def Unclaimed (key : Bytes) (rule : K2hFtRule) (s : AttrServer) : Prop :=
  (∃ rule', s.rules.find? key = some rule' ∧ SameOwnership rule rule') ∧
    ∀ c r, s.pending c = some r → stripSlash r.path ≠ key

/-- The step is not the look of root or of the owner at the file. -/
def IsStranger (key : Bytes) (rule : K2hFtRule) : AttrLabel → Prop
  | .lookup _ r => stripSlash r.path = key → r.pfusectx.uid ≠ 0 ∧ r.pfusectx.uid ≠ rule.Uid
  | _ => True

theorem step_unclaimed {key : Bytes} {rule : K2hFtRule} (hinv : Unclaimed key rule s)
    (hstranger : IsStranger key rule l) (h : step env s l = some t) : Unclaimed key rule t := by
  rcases hinv with ⟨⟨rule₁, hrule₁, hsame⟩, hidle⟩
  constructor
  · rcases step_rules h with ⟨-, ⟨hrules, -⟩ | ⟨key', rule', events, hupdate, hrules, -⟩⟩
    · exact ⟨rule₁, by rw [hrules, hrule₁], hsame⟩
    · by_cases hkey : key = key'
      · subst hkey
        rw [hrule₁] at hupdate
        refine ⟨rule', by rw [hrules, OrdMap.find?_insert_self], ?_⟩
        rcases hupdate.sameOwnership with hsame' | ⟨c, r, hphase, hpath⟩
        · exact ⟨hsame'.1.trans hsame.1, hsame'.2.1.trans hsame.2.1, hsame'.2.2.trans hsame.2.2⟩
        · have hpending : s.pending c = some r := by
            rw [pending, hphase]
            rfl
          exact absurd hpath (hidle c r hpending)
      · exact ⟨rule₁, by rw [hrules, OrdMap.find?_insert_ne _ _ hkey, hrule₁], hsame⟩
  · intro c r hpending hpath
    rcases step_pending h hpending with hbefore | ⟨rfl, howner⟩
    · exact hidle c r hbefore hpath
    · rcases hstranger hpath with ⟨hroot, hother⟩
      rw [hpath] at howner
      rcases howner rule₁ hrule₁ with huid | huid
      · exact hroot huid
      · exact hother (huid.trans hsame.2.1)

/-- From any state in which no change of a file is under way: as long as neither root nor the owner
calls for one, its permissions, owner and group stay, however calls of others interleave with opening,
writing and truncating. -/
theorem strangers_change_nothing (env : FuseEnv) {labels : List AttrLabel} {key : Bytes}
    {rule : K2hFtRule} (hrule : s.rules.find? key = some rule)
    (hidle : ∀ c r, s.pending c = some r → stripSlash r.path ≠ key)
    (hstrangers : ∀ l ∈ labels, IsStranger key rule l) (hrun : run (step env) s labels = some t) :
    ∃ rule', t.rules.find? key = some rule' ∧ SameOwnership rule rule' := by
  have hinv : Unclaimed key rule t := by
    refine invariant_run_of_guarded ?_ (guarded_of_forall_mem _ s hstrangers) hrun
      ⟨⟨rule, hrule, rfl, rfl, rfl⟩, hidle⟩
    intro s l t hs hl hstep
    exact step_unclaimed hs hl hstep
  exact hinv.1

/-- User 1001 asks for another mode, root truncates the file, and its creator syncs it. -/
def strangerSteps : List AttrLabel :=
  [.lookup 2 (chmodRequest 1001), .truncate (ascii "/log/a") 0 none, .fsync 1 false none]

theorem stranger_chmod_refused :
    ∃ s t rule rule',
      run (step ⟨4096, fun _ _ _ => false⟩) (start transferDirectory) creatorSteps = some s ∧
        run (step ⟨4096, fun _ _ _ => false⟩) s strangerSteps = some t ∧
        s.rules.find? (ascii "log/a") = some rule ∧ rule.Uid = 1000 ∧
        t.rules.find? (ascii "log/a") = some rule' ∧ SameOwnership rule rule' := by
  have hcreated : (run (step ⟨4096, fun _ _ _ => false⟩) (start transferDirectory) creatorSteps).map
      (fun s => ((s.rules.find? (ascii "log/a")).map K2hFtRule.Uid, s.changes)) =
      some (some 1000, ∅) := by
    decide +kernel
  rcases Option.map_eq_some_iff.1 hcreated with ⟨s, hs, hstate⟩
  rcases Option.map_eq_some_iff.1 (congrArg Prod.fst hstate) with ⟨rule, hrule, huid⟩
  have hchanges : s.changes = ∅ := congrArg Prod.snd hstate
  have hidle : ∀ c r, s.pending c = some r → stripSlash r.path ≠ ascii "log/a" := by
    intro c r hpending
    simp [pending, hchanges] at hpending
  have hstrangers : ∀ l ∈ strangerSteps, IsStranger (ascii "log/a") rule l := by
    intro l hl
    simp only [strangerSteps, List.mem_cons, List.not_mem_nil, or_false] at hl
    rcases hl with rfl | rfl | rfl
    · intro _
      rw [huid]
      decide
    · trivial
    · trivial
  have hrun : ((run (step ⟨4096, fun _ _ _ => false⟩) (start transferDirectory) creatorSteps).bind
      fun s => run (step ⟨4096, fun _ _ _ => false⟩) s strangerSteps).isSome = true := by
    decide +kernel
  rw [hs, Option.bind_some] at hrun
  rcases Option.isSome_iff_exists.1 hrun with ⟨t, ht⟩
  rcases strangers_change_nothing _ hrule hidle hstrangers ht with ⟨rule', hrule', hsame⟩
  exact ⟨s, t, rule, rule', hs, ht, hrule, huid, hrule', hsame⟩

end AttrServer

end K2hFtFuse
